import TensorGraph.Proofs.Propagation.Parts
import TensorGraph.Proofs.RelatedLists
import TensorGraph.Proofs.RepeatedRepair

/-!
# What a repair leaves alone

A repair drops inputs that name constants, raises the version and records types. Whatever else a
model holds comes out as it was, and of a described value at most the type changes. Descriptions
that are new come last and are about results of nodes that had none.
-/

namespace TensorGraph

/-- At most the type differs, and no type that no tensor has is given up. -/
def ValueInfo.RetypedAs (v v' : ValueInfo) : Prop := v' = v.retyped v'.type

namespace ValueInfo

variable {u v w : ValueInfo}

lemma retypedAs_retyped (v : ValueInfo) (type : TensorType) : v.RetypedAs (v.retyped type) := by
  unfold RetypedAs retyped
  split_ifs
  · rfl
  · rfl

lemma RetypedAs.refl (v : ValueInfo) : v.RetypedAs v := by
  unfold RetypedAs retyped
  split_ifs
  · rfl
  · rfl

lemma RetypedAs.trans (huv : u.RetypedAs v) (hvw : v.RetypedAs w) : u.RetypedAs w := by
  by_cases hforeign : u.foreign?.isSome = true
  · have hv : v = u := by simpa [RetypedAs, retyped, hforeign] using huv
    exact hv ▸ hvw
  · have hv : v = { u with type := v.type } := by simpa [RetypedAs, retyped, hforeign] using huv
    have hnone : ¬v.foreign?.isSome = true := by
      rw [hv]
      exact hforeign
    have hw : w = { v with type := w.type } := by simpa [RetypedAs, retyped, hnone] using hvw
    unfold RetypedAs retyped
    rw [if_neg hforeign, hw, hv]

lemma RetypedAs.name_eq (h : v.RetypedAs w) : w.name = v.name := by
  rw [h, retyped_name]

lemma RetypedAs.plain (h : v.RetypedAs w) (hv : v = { name := v.name, type := v.type }) :
    w = { name := w.name, type := w.type } := by
  have hnone : v.foreign? = none := by rw [hv]
  have hdoc : v.doc = "" := by rw [hv]
  unfold RetypedAs retyped at h
  rw [hnone, if_neg (by simp)] at h
  rw [h, hdoc]

end ValueInfo

section Lists

variable {vs vs' : List ValueInfo} {name : String} {type : TensorType}

lemma forall₂_retypedAs_refl (vs : List ValueInfo) : List.Forall₂ ValueInfo.RetypedAs vs vs :=
  List.forall₂_same.mpr fun v _ => .refl v

lemma forall₂_retypedAs_trans {vs'' : List ValueInfo}
    (h : List.Forall₂ ValueInfo.RetypedAs vs vs')
    (h' : List.Forall₂ ValueInfo.RetypedAs vs' vs'') :
    List.Forall₂ ValueInfo.RetypedAs vs vs'' :=
  forall₂_trans (fun _ _ _ huv hvw => huv.trans hvw) h h'

lemma map_name_of_forall₂_retypedAs (h : List.Forall₂ ValueInfo.RetypedAs vs vs') :
    vs'.map ValueInfo.name = vs.map ValueInfo.name := by
  induction h with
  | nil => rfl
  | cons hv _ ih => rw [List.map_cons, List.map_cons, hv.name_eq, ih]

lemma forall₂_retypedAs_setType? (h : setType? name type vs = some vs') :
    List.Forall₂ ValueInfo.RetypedAs vs vs' := by
  induction vs generalizing vs' with
  | nil => cases h
  | cons v vs ih =>
    rw [setType?] at h
    by_cases hname : v.name = name
    · rw [if_pos hname] at h
      obtain rfl := Option.some.inj h
      exact .cons (v.retypedAs_retyped type) (forall₂_retypedAs_refl vs)
    · rw [if_neg hname] at h
      obtain ⟨rest, hrest, rfl⟩ := Option.map_eq_some_iff.mp h
      exact .cons (.refl v) (ih hrest)

lemma described?_eq_none_iff : described? vs name = none ↔ name ∉ vs.map ValueInfo.name := by
  unfold described?
  simp [List.find?_eq_none]

end Lists

namespace Graph

/-- Descriptions by name and type of results, each of them the first one of its value. -/
structure NewResults (g : Graph) (new : List ValueInfo) : Prop where
  plain : ∀ v ∈ new, v = { name := v.name, type := v.type }
  nodup : (new.map ValueInfo.name).Nodup
  result : ∀ name ∈ new.map ValueInfo.name, name ∈ g.presentResults
  notInput : ∀ name ∈ new.map ValueInfo.name, name ∉ g.inputs.map ValueInfo.name
  notOutput : ∀ name ∈ new.map ValueInfo.name, name ∉ g.outputs.map ValueInfo.name
  notInner : ∀ name ∈ new.map ValueInfo.name, name ∉ g.valueInfo.map ValueInfo.name

lemma newResults_nil (g : Graph) : g.NewResults [] :=
  ⟨by simp, by simp, by simp, by simp, by simp, by simp⟩

/-- Outputs and inner values change their types in place, new inner values come behind, and all else
is the same. -/
structure Redescribed (g g' : Graph) : Prop where
  others : g' = { g with outputs := g'.outputs, valueInfo := g'.valueInfo }
  outputs : List.Forall₂ ValueInfo.RetypedAs g.outputs g'.outputs
  valueInfo : ∃ kept new, g'.valueInfo = kept ++ new ∧
    List.Forall₂ ValueInfo.RetypedAs g.valueInfo kept ∧ g.NewResults new

namespace Redescribed

variable {g g' g'' : Graph}

lemma refl (g : Graph) : g.Redescribed g where
  others := rfl
  outputs := forall₂_retypedAs_refl _
  valueInfo := ⟨g.valueInfo, [], by simp, forall₂_retypedAs_refl _, g.newResults_nil⟩

lemma presentResults_eq (h : g.Redescribed g') : g'.presentResults = g.presentResults := by
  rw [h.others]
  rfl

lemma inputs_eq (h : g.Redescribed g') : g'.inputs = g.inputs := by
  rw [h.others]

/-- What comes behind in the first step changes its types in the second one, and what comes behind
there has yet other names. -/
lemma trans (h : g.Redescribed g') (h' : g'.Redescribed g'') : g.Redescribed g'' where
  others := by
    rw [h'.others, h.others]
  outputs := forall₂_retypedAs_trans h.outputs h'.outputs
  valueInfo := by
    obtain ⟨kept, new, hsplit, hkept, hnew⟩ := h.valueInfo
    obtain ⟨kept', new', hsplit', hkept', hnew'⟩ := h'.valueInfo
    rw [hsplit] at hkept'
    obtain ⟨front, back, rfl, hfront, hback⟩ := exists_append_of_forall₂ hkept'
    have hbacknames := map_name_of_forall₂_retypedAs hback
    have hnames : g'.valueInfo.map ValueInfo.name =
        g.valueInfo.map ValueInfo.name ++ new.map ValueInfo.name := by
      rw [hsplit, List.map_append, map_name_of_forall₂_retypedAs hkept]
    have hinner := hnew'.notInner
    rw [hnames] at hinner
    refine ⟨front, back ++ new', by rw [hsplit', List.append_assoc],
      forall₂_retypedAs_trans hkept hfront, ?_⟩
    constructor
    case plain =>
      refine List.forall_mem_append.mpr ⟨fun v hv => ?_, hnew'.plain⟩
      obtain ⟨u, hu, huv⟩ := exists_of_forall₂_right hback hv
      exact huv.plain (hnew.plain u hu)
    all_goals rw [List.map_append, hbacknames]
    case nodup =>
      refine List.nodup_append.mpr ⟨hnew.nodup, hnew'.nodup, fun a ha b hb heq => ?_⟩
      exact hinner b hb (List.mem_append_right _ (heq ▸ ha))
    case result =>
      refine List.forall_mem_append.mpr ⟨hnew.result, ?_⟩
      rw [← h.presentResults_eq]
      exact hnew'.result
    case notInput =>
      refine List.forall_mem_append.mpr ⟨hnew.notInput, ?_⟩
      rw [← h.inputs_eq]
      exact hnew'.notInput
    case notOutput =>
      refine List.forall_mem_append.mpr ⟨hnew.notOutput, ?_⟩
      rw [← map_name_of_forall₂_retypedAs h.outputs]
      exact hnew'.notOutput
    case notInner =>
      refine List.forall_mem_append.mpr ⟨hnew.notInner, fun name hname hmem => ?_⟩
      exact hinner name hname (List.mem_append_left _ hmem)

end Redescribed

variable {g g' : Graph} {v : ValueInfo}

lemma redescribed_record (hplain : v = { name := v.name, type := v.type })
    (hresult : v.name ∈ g.presentResults) : g.Redescribed (g.record v) := by
  cases hinput : g.isInput v.name with
  | true =>
    rw [record_eq_self_of_isInput hinput]
    exact .refl g
  | false =>
    rcases record_cases hinput with
      ⟨outputs, hset, h⟩ | ⟨hout, ⟨valueInfo, hset, h⟩ | ⟨hinner, h⟩⟩
    · rw [h]
      exact { Redescribed.refl g with
        others := rfl
        outputs := forall₂_retypedAs_setType? hset }
    · rw [h]
      exact { Redescribed.refl g with
        others := rfl
        valueInfo := ⟨valueInfo, [], by simp, forall₂_retypedAs_setType? hset,
          g.newResults_nil⟩ }
    · rw [h]
      refine { Redescribed.refl g with
        others := rfl
        valueInfo := ⟨g.valueInfo, [v], rfl, forall₂_retypedAs_refl _, ?_⟩ }
      exact {
        plain := List.forall_mem_singleton.mpr hplain
        nodup := List.nodup_singleton _
        result := List.forall_mem_singleton.mpr hresult
        notInput := List.forall_mem_singleton.mpr (by simpa [isInput] using hinput)
        notOutput := List.forall_mem_singleton.mpr (described?_eq_none_iff.mp hout)
        notInner := List.forall_mem_singleton.mpr (described?_eq_none_iff.mp hinner) }

lemma redescribed_foldl_record {records : List ValueInfo}
    (h : ∀ v ∈ records, v = { name := v.name, type := v.type } ∧ v.name ∈ g.presentResults) :
    g.Redescribed (records.foldl record g) := by
  induction records generalizing g with
  | nil => exact .refl g
  | cons v records ih =>
    obtain ⟨⟨hplain, hresult⟩, hrest⟩ := List.forall_mem_cons.mp h
    have hfirst := redescribed_record hplain hresult
    rw [← hfirst.presentResults_eq] at hrest
    exact hfirst.trans (ih hrest)

lemma redescribed_propagate {rules : Registry} {opset : Int} {report : PropagationReport}
    (h : g.propagate rules opset = .ok (g', report)) : g.Redescribed g' := by
  obtain ⟨es, hes, rfl, _⟩ := propagate_eq_ok_iff.mp h
  exact redescribed_foldl_record (records_of_parts hes)

end Graph

namespace Model

variable {m m' : Model} {s : Settings}

lemma raiseVersion_eq (m : Model) (least : Int64) :
    m.raiseVersion least = { m with irVersion := max m.irVersion least } := by
  have hmax : max m.irVersion least = if m.irVersion ≤ least then least else m.irVersion := rfl
  unfold raiseVersion
  rw [hmax]
  by_cases hlt : m.irVersion < least
  · rw [if_pos hlt, if_pos (Int64.le_of_lt hlt)]
  · rw [if_neg hlt]
    by_cases hle : m.irVersion ≤ least
    · have heq : least = m.irVersion := Int64.le_antisymm (Int64.not_lt.mp hlt) hle
      rw [if_pos hle, heq]
    · rw [if_neg hle]

lemma propagateIf_redescribes {report? : Option PropagationReport}
    (h : m.propagateIf s = .ok (m', report?)) :
    m' = { m with graph := m'.graph } ∧ m.graph.Redescribed m'.graph := by
  rcases propagateIf_cases h with ⟨_, g, _, hgraph, rfl, _⟩ | ⟨_, rfl, _⟩
  · exact ⟨rfl, Graph.redescribed_propagate hgraph⟩
  · exact ⟨rfl, .refl _⟩

/-- A repaired model has its inputs without those that name constants, the greater version, and its
outputs and inner values with the same names, remarks and order, where nothing but types of tensors
changes. New inner values come last and describe results of nodes that neither inputs, outputs nor
inner values had described before. All the rest is as it was. -/
theorem repair_scope {r : RepairReport} (h : m.repair s = .ok (m', r)) :
    m' = { m with
        irVersion := max m.irVersion s.leastVersion
        graph := { m.graph with
          inputs := m.graph.inputs.filter fun v => v.name ∉ m.graph.initializers.map Tensor.name
          outputs := m'.graph.outputs
          valueInfo := m'.graph.valueInfo
          producers := m.graph.normalizeInputs.producers } } ∧
      List.Forall₂ ValueInfo.RetypedAs m.graph.outputs m'.graph.outputs ∧
      ∃ kept new, m'.graph.valueInfo = kept ++ new ∧
        List.Forall₂ ValueInfo.RetypedAs m.graph.valueInfo kept ∧ m.graph.NewResults new := by
  obtain ⟨hpropagate, hvalid, _, _⟩ := repair_eq_ok_iff.mp h
  have hunique := resultsUnique_of_propagateIf hpropagate hvalid
  obtain ⟨hmodel, hothers, houtputs, kept, new, hsplit, hkept, hnew⟩ :=
    propagateIf_redescribes hpropagate
  have hprepared : m.prepared s =
      { m with irVersion := max m.irVersion s.leastVersion, graph := m.graph.normalizeInputs } :=
    raiseVersion_eq _ _
  have hinputs := m.graph.normalizeInputs_inputs
  rw [hprepared] at hmodel hothers houtputs hkept hnew hunique
  refine ⟨?_, houtputs, kept, new, hsplit, hkept, { hnew with notInput := fun name hname => ?_ }⟩
  · rw [← hinputs]
    conv_lhs => rw [hmodel, hothers]
    rfl
  · -- an input that was dropped names a constant, and no result does
    intro hinput
    obtain ⟨v, hv, rfl⟩ := List.mem_map.mp hinput
    have hconstant : v.name ∉ m.graph.initializers.map Tensor.name :=
      hunique.notInitializer v.name (hnew.result v.name hname)
    refine hnew.notInput v.name hname (List.mem_map_of_mem ?_)
    rw [hinputs]
    exact List.mem_filter.mpr ⟨hv, by simpa using hconstant⟩

/-- Two nodes at an old version, with the constant of the first one among the inputs. -/
def biased : Model where
  irVersion := 3
  opsets := [⟨"", 13⟩]
  graph := {
    nodes := [{ op := "Add", inputs := ["x", "b"], outputs := ["h"] },
              { op := "Relu", inputs := ["h"], outputs := ["y"] }]
    inputs := [{ name := "b", type := .of .float (.ofExtents [1]) },
               { name := "x", type := .of .float (.ofExtents [4]) }]
    outputs := [{ name := "y", doc := "result" }]
    initializers := [{ name := "b", elem? := some .float, extents := [1], payload := .floats [0] }]
    producers := [("b", .initializer 0), ("x", .input), ("h", .node 0 0), ("y", .node 1 0)]
    order := [0, 1] }

theorem repair_scope_on_biased :
    ∃ m' r, biased.repair {} = .ok (m', r) ∧ m'.irVersion = 4 ∧
      m'.graph.inputs = [{ name := "x", type := .of .float (.ofExtents [4]) }] ∧
      List.Forall₂ ValueInfo.RetypedAs [{ name := "y", doc := "result" }] m'.graph.outputs ∧
      m'.graph.valueInfo = [{ name := "h", type := .of .float (.ofExtents [4]) }] ∧
      biased.graph.NewResults m'.graph.valueInfo := by
  have hfacts : (biased.repair {}).map (fun p => p.1.graph.valueInfo) =
      .ok [{ name := "h", type := .of .float (.ofExtents [4]) }] := by decide +kernel
  obtain ⟨⟨m', r⟩, hrepair, hvalueInfo⟩ := map_eq_ok_iff.mp hfacts
  obtain ⟨hmodel, houtputs, kept, new, hsplit, hkept, hnew⟩ := repair_scope hrepair
  obtain rfl : kept = [] := List.forall₂_nil_left_iff.mp hkept
  rw [List.nil_append] at hsplit
  refine ⟨m', r, hrepair, ?_, ?_, houtputs, hvalueInfo, hsplit ▸ hnew⟩
  · rw [hmodel]
    rfl
  · rw [hmodel]
    change (biased.graph.inputs.filter fun v =>
      v.name ∉ biased.graph.initializers.map Tensor.name) = _
    decide

end Model

end TensorGraph
