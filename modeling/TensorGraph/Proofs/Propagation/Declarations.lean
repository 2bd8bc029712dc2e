import TensorGraph.Proofs.Names.Types
import TensorGraph.Proofs.Propagation.Gains
import TensorGraph.Proofs.Propagation.Records
import TensorGraph.Proofs.Refinement
import TensorGraph.Validity

/-!
# Propagation keeps what is declared

A type that is recorded refines the type that counts as declared under its name, and it goes to the
first description of that name. Where a name is described twice, these two may be different
descriptions: each keeps what it says if the one that counts says at least as much.
-/

namespace TensorGraph

open Knowledge

/-! ### Descriptions that receive types -/

/-- A description keeps its type or receives one that is told about its name; all else stays. -/
def ValueInfo.Receives (told : String → TensorType → Prop) (v v' : ValueInfo) : Prop :=
  v' = { v with type := v'.type } ∧ (v'.type = v.type ∨ told v.name v'.type)

namespace ValueInfo

variable {told : String → TensorType → Prop} {u v w : ValueInfo}

lemma Receives.refl (v : ValueInfo) : v.Receives told v := ⟨rfl, .inl rfl⟩

lemma Receives.trans (huv : u.Receives told v) (hvw : v.Receives told w) :
    u.Receives told w := by
  obtain ⟨hv, htype⟩ := huv
  obtain ⟨hw, htype'⟩ := hvw
  have hname : v.name = u.name := by rw [hv]
  refine ⟨by rw [hw, hv], ?_⟩
  rcases htype' with heq | htold
  · rw [heq]
    exact htype
  · exact .inr (hname ▸ htold)

lemma receives_retyped {type : TensorType} (h : told v.name type) :
    v.Receives told (v.retyped type) := by
  unfold retyped
  split_ifs
  · exact .refl v
  · exact ⟨rfl, .inr h⟩

end ValueInfo

section Lists

variable {told : String → TensorType → Prop} {name : String} {type : TensorType}

lemma forall₂_receives_refl (vs : List ValueInfo) :
    List.Forall₂ (ValueInfo.Receives told) vs vs :=
  List.forall₂_same.mpr fun v _ => .refl v

lemma forall₂_receives_setType? {vs vs' : List ValueInfo} (htold : told name type)
    (h : setType? name type vs = some vs') : List.Forall₂ (ValueInfo.Receives told) vs vs' := by
  induction vs generalizing vs' with
  | nil => cases h
  | cons v vs ih =>
    rw [setType?] at h
    by_cases hname : v.name = name
    · rw [if_pos hname] at h
      obtain rfl := Option.some.inj h
      have hv : v.Receives told (v.retyped type) := ValueInfo.receives_retyped (hname ▸ htold)
      exact .cons hv (forall₂_receives_refl vs)
    · rw [if_neg hname] at h
      obtain ⟨rest, hrest, rfl⟩ := Option.map_eq_some_iff.mp h
      exact .cons (.refl v) (ih hrest)

end Lists

namespace Graph

/-- Outputs and inner values receive types that are told about their names, in place; further inner
values may have come behind them. -/
structure Receives (told : String → TensorType → Prop) (g g' : Graph) : Prop where
  inputs : g'.inputs = g.inputs
  outputs : List.Forall₂ (ValueInfo.Receives told) g.outputs g'.outputs
  valueInfo : List.Forall₂ (ValueInfo.Receives told) g.valueInfo
    (g'.valueInfo.take g.valueInfo.length)

variable {told : String → TensorType → Prop} {g g' : Graph} {v : ValueInfo}

lemma Receives.refl (g : Graph) : g.Receives told g where
  inputs := rfl
  outputs := forall₂_receives_refl _
  valueInfo := by
    rw [List.take_length]
    exact forall₂_receives_refl _

lemma Receives.trans {g'' : Graph} (h : g.Receives told g') (h' : g'.Receives told g'') :
    g.Receives told g'' where
  inputs := h'.inputs.trans h.inputs
  outputs := forall₂_trans (fun _ _ _ huv hvw => huv.trans hvw) h.outputs h'.outputs
  valueInfo := by
    have hlength : g.valueInfo.length ≤ g'.valueInfo.length := by
      have hle := h.valueInfo.length_eq
      rw [List.length_take] at hle
      omega
    have hfront := List.forall₂_take g.valueInfo.length h'.valueInfo
    rw [List.take_take, Nat.min_eq_left hlength] at hfront
    exact forall₂_trans (fun _ _ _ huv hvw => huv.trans hvw) h.valueInfo hfront

/-- Recording one type. -/
lemma receives_record (h : told v.name v.type) : g.Receives told (g.record v) := by
  cases hinput : g.isInput v.name with
  | true =>
    rw [record_eq_self_of_isInput hinput]
    exact .refl g
  | false =>
    rcases record_cases hinput with ⟨outputs, hset, hg⟩ | ⟨_, ⟨valueInfo, hset, hg⟩ | ⟨_, hg⟩⟩
    · rw [hg]
      exact { Receives.refl g with outputs := forall₂_receives_setType? h hset }
    · have hvalues := forall₂_receives_setType? h hset
      rw [hg]
      refine { Receives.refl g with valueInfo := ?_ }
      rw [hvalues.length_eq, List.take_length]
      exact hvalues
    · rw [hg]
      refine { Receives.refl g with valueInfo := ?_ }
      rw [List.take_left' rfl]
      exact forall₂_receives_refl _

lemma receives_foldl_record {records : List ValueInfo} (h : ∀ v ∈ records, told v.name v.type) :
    g.Receives told (records.foldl record g) := by
  induction records generalizing g with
  | nil => exact .refl g
  | cons v records ih =>
    rw [List.forall_mem_cons] at h
    exact (receives_record h.1).trans (ih h.2)

end Graph

/-! ### Recorded types -/

/-- The type says all that is declared under the name. -/
def Respects (declared : List (String × TensorType)) (name : String) (type : TensorType) : Prop :=
  ∀ d, declared.lookup name = some d → d.RefinedBy type

/-- All types to be recorded say what is declared under their names. -/
def Knowledge.Respectful (declared : List (String × TensorType)) (k : Knowledge) : Prop :=
  ∀ v ∈ k.records, Respects declared v.name v.type

section Passing

variable {declared : List (String × TensorType)}

lemma respectful_of_records_eq_nil {k : Knowledge} (h : k.records = []) :
    k.Respectful declared := by
  unfold Knowledge.Respectful
  simp [h]

lemma Knowledge.Respectful.append {d k : Knowledge} (hd : d.Respectful declared)
    (hk : k.Respectful declared) : (d ++ k).Respectful declared :=
  List.forall_mem_append.mpr ⟨hd, hk⟩

lemma Knowledge.Respectful.accumulate {k : Knowledge} {ds : List Knowledge}
    (hk : k.Respectful declared) (hds : ∀ d ∈ ds, d.Respectful declared) :
    (k.accumulate ds).Respectful declared := by
  induction ds generalizing k with
  | nil => exact hk
  | cons d ds ih =>
    rw [List.forall_mem_cons] at hds
    exact ih (hds.1.append hk) hds.2

/-- A result is recorded with its declaration merged in, or not at all. -/
lemma respectful_addType (n : Node) (result : String × TensorType) :
    (addType declared n nothing result).Respectful declared := by
  obtain ⟨name, type⟩ := result
  rcases addType_cases declared n name type with ⟨_, h⟩ | ⟨_, haccepted | hconflict⟩
  · rw [h]
    exact respectful_of_records_eq_nil rfl
  · obtain ⟨accepted, hfrom, h⟩ := haccepted
    have hrespects : Respects declared name accepted := by
      intro d hd
      rcases hfrom with ⟨hnone, _⟩ | ⟨d', hd', hmerge⟩
      · rw [hnone] at hd
        cases hd
      · obtain rfl : d' = d := Option.some.inj (hd'.symm.trans hd)
        exact TensorType.refinedBy_of_merge hmerge
    rw [h]
    exact List.forall_mem_singleton.mpr hrespects
  · obtain ⟨d, conflict, _, _, h⟩ := hconflict
    rw [h]
    exact respectful_of_records_eq_nil rfl

lemma respectful_learn {n : Node} {answer : NodeAnswer} {d : Knowledge}
    (h : learn declared n answer = .ok d) : d.Respectful declared := by
  rcases learn_cases h with ⟨reason, rfl⟩ | ⟨types, values, _, rfl⟩
  · exact respectful_of_records_eq_nil rfl
  · obtain ⟨constants, hconstants, _⟩ := exists_nothing_addConstants_eq n values
    rw [hconstants]
    refine Respectful.accumulate (respectful_of_records_eq_nil rfl) fun d hd => ?_
    obtain ⟨result, _, rfl⟩ := List.mem_map.mp hd
    exact respectful_addType n result

lemma respectful_passNode {rules : Registry} {opset : Int} {g : Graph} {k : Knowledge}
    (hk : k.Respectful declared) (n : Node) :
    Ensures (Respectful declared) (passNode rules opset g declared k n) := by
  rw [passNode_eq_map_gain]
  intro k' hk'
  obtain ⟨d, hd, rfl⟩ := map_eq_ok_iff.mp hk'
  exact (respectful_learn hd).append hk

lemma respectful_passNodes (rules : Registry) (opset : Int) (g : Graph) :
    Ensures (Respectful g.declaredTypes) (passNodes rules opset g) :=
  Ensures.foldlM (fun _ hk n _ => respectful_passNode hk n) (respectful_of_records_eq_nil rfl)

end Passing

/-! ### Descriptions after a propagation -/

namespace Graph

variable {rules : Registry} {opset : Int} {g g' : Graph} {report : PropagationReport}
  {v v' : ValueInfo}

lemma receives_propagate (h : g.propagate rules opset = .ok (g', report)) :
    g.Receives (Respects g.declaredTypes) g' := by
  obtain ⟨k, hk, heq⟩ := map_eq_ok_iff.mp h
  obtain ⟨rfl, _⟩ := Prod.mk.inj heq
  have hrespectful := respectful_passNodes rules opset g k hk
  exact receives_foldl_record fun v hv => hrespectful v (List.mem_reverse.mp hv)

/-- What counts as declared under the name of a description says all that the description says. -/
def Heeds (g : Graph) (v : ValueInfo) : Prop :=
  ∀ d, g.declaredTypes.lookup v.name = some d → v.type.RefinedBy d

lemma heeds_of_forall (h : ∀ w ∈ g.outputs ++ g.valueInfo, w.name = v.name →
    w.type.isUnknown = false → v.type.RefinedBy w.type) : g.Heeds v := by
  intro d hd
  have hmem : (v.name, d) ∈ g.declaredTypes := by
    obtain ⟨before, behind, heq, _⟩ := List.lookup_eq_some_iff.mp hd
    rw [heq]
    exact List.mem_append_right before List.mem_cons_self
  obtain ⟨w, hw, heq⟩ := List.mem_map.mp (List.mem_reverse.mp hmem)
  obtain ⟨hname, rfl⟩ := Prod.mk.inj heq
  obtain ⟨hw, htyped⟩ := List.mem_filter.mp hw
  exact h w hw hname (by simpa using htyped)

lemma lookup_declaredTypes_ne_none (hv : v ∈ g.outputs ++ g.valueInfo)
    (htyped : v.type.isUnknown = false) : g.declaredTypes.lookup v.name ≠ none := by
  have hmem : (v.name, v.type) ∈ g.declaredTypes :=
    List.mem_reverse.mpr (List.mem_map_of_mem (List.mem_filter.mpr ⟨hv, by simp [htyped]⟩))
  intro hnone
  have hne := List.lookup_eq_none_iff.mp hnone _ hmem
  simp at hne

/-- Nothing of a description changes but its type, and a description that is heeded is refined. -/
def Keeps (g : Graph) (v v' : ValueInfo) : Prop :=
  v' = { v with type := v'.type } ∧ (g.Heeds v → v.type.RefinedBy v'.type)

lemma keeps_of_receives (hv : v ∈ g.outputs ++ g.valueInfo)
    (h : v.Receives (Respects g.declaredTypes) v') : g.Keeps v v' := by
  obtain ⟨hplain, htype⟩ := h
  refine ⟨hplain, fun hheeds => ?_⟩
  rcases htype with heq | hrespects
  · rw [heq]
    exact .refl _
  · cases hd : g.declaredTypes.lookup v.name with
    | some d => exact (hheeds d hd).trans (hrespects d hd)
    | none =>
      cases htyped : v.type.isUnknown with
      | true => exact TensorType.refinedBy_of_isUnknown htyped _
      -- A description that says anything is itself among the declarations of its name.
      | false => exact absurd hd (lookup_declaredTypes_ne_none hv htyped)

/-- Whatever the rules say, a propagation leaves the inputs alone and keeps every output and every
inner value in its place, where nothing but its type changes. The type is refined if the declaration
that counts for its name says at least what the description itself says, as it does for every name
that is described once. -/
theorem propagate_keeps_declarations (h : g.propagate rules opset = .ok (g', report)) :
    g'.inputs = g.inputs ∧ List.Forall₂ g.Keeps g.outputs g'.outputs ∧
      List.Forall₂ g.Keeps g.valueInfo (g'.valueInfo.take g.valueInfo.length) := by
  have hreceives := receives_propagate h
  refine ⟨hreceives.inputs, ?_, ?_⟩
  · refine forall₂_imp_of_mem hreceives.outputs fun v hv v' hvv' => ?_
    exact keeps_of_receives (List.mem_append_left _ hv) hvv'
  · refine forall₂_imp_of_mem hreceives.valueInfo fun v hv v' hvv' => ?_
    exact keeps_of_receives (List.mem_append_right _ hv) hvv'

/-- A rectifier of two numbers, whose result is described twice. -/
def describedTwice (output value : TensorType) : Graph where
  nodes := [{ op := "Relu", inputs := ["x"], outputs := ["y"] }]
  inputs := [{ name := "x", type := .of .float (.ofExtents [2]) }]
  outputs := [{ name := "y", type := output }]
  valueInfo := [{ name := "y", type := value }]
  producers := [("x", .input), ("y", .node 0 0)]
  order := [0]

theorem propagate_keeps_declarations_of_y :
    let named : TensorType := .of .float ⟨[.param "n"]⟩
    let g := describedTwice (.of .float ⟨[.unknown]⟩) named
    g.Heeds { name := "y", type := .of .float ⟨[.unknown]⟩ } ∧
      ∃ g' report, g.propagate .builtin 13 = .ok (g', report) ∧
        List.Forall₂ g.Keeps g.outputs g'.outputs ∧
        g'.outputs = [{ name := "y", type := .of .float (.ofExtents [2]) }] ∧
        g'.valueInfo = [{ name := "y", type := named }] := by
  intro named g
  have hheeds : g.Heeds { name := "y", type := .of .float ⟨[.unknown]⟩ } := by
    refine heeds_of_forall fun w hw _ _ => ?_
    have hcases : w = { name := "y", type := .of .float ⟨[.unknown]⟩ } ∨
        w = { name := "y", type := named } := by simpa [g, describedTwice] using hw
    rcases hcases with rfl | rfl
    · exact .refl _
    · exact TensorType.refinedBy_some (.cons trivial .nil)
  have hrun : (g.propagate .builtin 13).map (fun (g', _) => (g'.outputs, g'.valueInfo)) =
      .ok ([{ name := "y", type := .of .float (.ofExtents [2]) }],
        [{ name := "y", type := named }]) := by decide +kernel
  obtain ⟨⟨g', report⟩, hpropagate, heq⟩ := map_eq_ok_iff.mp hrun
  obtain ⟨houtputs, hvalues⟩ := Prod.mk.inj heq
  obtain ⟨_, hkeeps, _⟩ := propagate_keeps_declarations hpropagate
  exact ⟨hheeds, g', report, hpropagate, hkeeps, houtputs, hvalues⟩

/-- The description among the inner values is the last and counts; it says nothing about the shape,
so that the inferred one does not conflict. But it is recorded in the first description, which is an
output that declares another shape. -/
theorem propagate_contradicts_first_description :
    let declared : TensorType := .of .float (.ofExtents [4])
    let g := describedTwice declared ⟨some .float, none⟩
    g.toGraphParts.build = .ok g ∧
      ({ irVersion := 8, opsets := [⟨"", 13⟩], graph := g } : Model).validate {} = .ok () ∧
      ∃ g' report, g.propagate .builtin 13 = .ok (g', report) ∧
        g'.outputs = [{ name := "y", type := .of .float (.ofExtents [2]) }] ∧
        ¬declared.RefinedBy (.of .float (.ofExtents [2])) := by
  intro declared g
  have hrun : (g.propagate .builtin 13).map (fun (g', _) => g'.outputs) =
      .ok [{ name := "y", type := .of .float (.ofExtents [2]) }] := by decide +kernel
  obtain ⟨⟨g', report⟩, hpropagate, houtputs⟩ := map_eq_ok_iff.mp hrun
  refine ⟨by decide +kernel, by decide +kernel, g', report, hpropagate, houtputs,
    fun hrefined => ?_⟩
  obtain ⟨s', hs', hdims⟩ := hrefined.shape _ rfl
  obtain rfl := Option.some.inj hs'
  obtain ⟨hextent, _⟩ := List.forall₂_cons.mp hdims
  cases hextent

end Graph

end TensorGraph
