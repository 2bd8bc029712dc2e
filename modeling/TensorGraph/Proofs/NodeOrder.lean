import TensorGraph.Proofs.Propagation.Run

/-!
# The order of the nodes

Two graphs that list the same nodes in different order propagate the same types, as long as each
has an order of its own nodes and all results have names of their own.
-/

namespace TensorGraph

open Knowledge

namespace GraphParts

/-- What produces a value other than a node. -/
def firstSource? (p : GraphParts) (name : String) : Option Producer :=
  ((p.initializers.findIdx? fun t => t.name == name).map .initializer).or <|
    ((p.sparse.findIdx? fun s => !name.isEmpty && s.name == name).map .sparse).or <|
    if p.inputs.any fun v => v.name == name then some .input else none

lemma firstProducer?_eq_or (p : GraphParts) (name : String) :
    p.firstProducer? name = (p.firstSource? name).or (firstResult? p.nodes name) := by
  unfold firstProducer? firstSource?
  rw [Option.or_assoc, Option.or_assoc]

end GraphParts

namespace Graph

variable {g g' : Graph} {rules : Registry} {opset : Int}

/-- The constant that a value stands for, given what produces it. -/
def storedConstant? (constants : List Tensor) : Option Producer → Option Tensor
  | some (.initializer i) => constants[i]?
  | _ => none

lemma initializer?_eq_storedConstant? (g : Graph) (name : String) :
    g.initializer? name = storedConstant? g.initializers (g.producer? name) := rfl

/-- Both graphs have the same lists, but for the order of the nodes, and are resolved. -/
structure Rearranged (g g' : Graph) : Prop where
  resolved : g.Resolved
  resolved' : g'.Resolved
  unique : g.ResultsUnique
  perm : g'.nodes.Perm g.nodes
  parts : g'.toGraphParts = { g.toGraphParts with nodes := g'.nodes }

namespace Rearranged

lemma inputs (h : g.Rearranged g') : g'.inputs = g.inputs := by rw [h.parts]

lemma outputs (h : g.Rearranged g') : g'.outputs = g.outputs := by rw [h.parts]

lemma valueInfo (h : g.Rearranged g') : g'.valueInfo = g.valueInfo := by rw [h.parts]

lemma initializers (h : g.Rearranged g') : g'.initializers = g.initializers := by rw [h.parts]

lemma sparse (h : g.Rearranged g') : g'.sparse = g.sparse := by rw [h.parts]

lemma symm (h : g.Rearranged g') : g'.Rearranged g where
  resolved := h.resolved'
  resolved' := h.resolved
  unique := by
    have hresults : g'.presentResults.Perm g.presentResults := h.perm.flatMap_right _
    refine ⟨hresults.nodup_iff.mpr h.unique.nodup, ?_, ?_, ?_⟩
    · rw [h.inputs]
      exact fun name hname => h.unique.notInput name (hresults.subset hname)
    · rw [h.initializers]
      exact fun name hname => h.unique.notInitializer name (hresults.subset hname)
    · rw [h.sparse]
      exact fun name hname => h.unique.notSparse name (hresults.subset hname)
  perm := h.perm.symm
  parts := by rw [h.parts]

/-- Whatever depends on the producer of a value, and on a node no more than on nothing, is the same
in both graphs. -/
lemma apply_producer?_eq {α : Type} (h : g.Rearranged g') {f : Option Producer → α}
    (hf : ∀ j slot, f (some (.node j slot)) = f none) (name : String) :
    f (g'.producer? name) = f (g.producer? name) := by
  have hsource : g'.firstSource? name = g.firstSource? name := by
    unfold GraphParts.firstSource?
    rw [h.initializers, h.sparse, h.inputs]
  have hresult (nodes : List Node) : f (GraphParts.firstResult? nodes name) = f none := by
    cases hfirst : GraphParts.firstResult? nodes name with
    | none => rfl
    | some producer =>
      obtain ⟨j, slot, rfl⟩ := GraphParts.exists_node_of_firstResult? hfirst
      exact hf j slot
  rw [h.resolved.index, h.resolved'.index, GraphParts.firstProducer?_eq_or,
    GraphParts.firstProducer?_eq_or, hsource]
  cases g.firstSource? name with
  | some producer => rfl
  | none => rw [Option.none_or, Option.none_or, hresult, hresult]

lemma initializer?_eq (h : g.Rearranged g') : g'.initializer? = g.initializer? := by
  funext name
  rw [initializer?_eq_storedConstant?, initializer?_eq_storedConstant?, h.initializers]
  exact h.apply_producer?_eq (fun _ _ => rfl) name

lemma inner?_eq (h : g.Rearranged g') : g'.inner? = g.inner? := by
  funext name
  unfold inner?
  rw [h.outputs, h.valueInfo]

lemma constantType?_eq (h : g.Rearranged g') (name : String) :
    g'.constantType? (g'.producer? name) = g.constantType? (g.producer? name) := by
  have hsame : g'.constantType? = g.constantType? := by
    funext producer?
    unfold constantType?
    rw [h.initializers, h.sparse]
  rw [hsame]
  exact h.apply_producer?_eq (fun _ _ => rfl) name

lemma valueType?_eq (h : g.Rearranged g') : g'.valueType? = g.valueType? := by
  funext name
  rw [Graph.valueType?_eq, Graph.valueType?_eq, h.inputs, h.inner?_eq, h.constantType?_eq]

lemma initialKnowledge_eq (h : g.Rearranged g') : g'.initialKnowledge = g.initialKnowledge := by
  have hsparse : g'.sparseType? = g.sparseType? := by
    funext s
    unfold sparseType?
    rw [h.valueType?_eq]
  unfold initialKnowledge
  rw [hsparse, h.inputs, h.initializers, h.sparse]

lemma gain_eq (h : g.Rearranged g') (declared : List (String × TensorType)) (k : Knowledge)
    (n : Node) : gain rules opset g' declared k n = gain rules opset g declared k n := by
  unfold gain operand?
  rw [h.initializer?_eq]

lemma declaredTypes_eq (h : g.Rearranged g') : g'.declaredTypes = g.declaredTypes := by
  unfold declaredTypes
  rw [h.outputs, h.valueInfo]

/-- Where one graph finishes the other one does, with the same parts in another order. -/
lemma exists_passNodes (h : g.Rearranged g') {k : Knowledge}
    (hrun : passNodes rules opset g = .ok k) :
    ∃ k', passNodes rules opset g' = .ok k' ∧ k'.records.reverse.Perm k.records.reverse ∧
      k'.skips.reverse.Perm k.skips.reverse := by
  obtain ⟨hgain, hk⟩ := gain_of_passNodes h.resolved.toInOrder h.unique hrun
  have hperm : (g'.orderedNodes.map Prod.snd).Perm (g.orderedNodes.map Prod.snd) :=
    (h.resolved'.orderedNodes_perm.trans h.perm).trans h.resolved.orderedNodes_perm.symm
  have hgain' : ∀ n ∈ g.orderedNodes.map Prod.snd,
      gain rules opset g g.declaredTypes k n = .ok (gained rules opset g g.declaredTypes k n) :=
    fun n hn => hgain n (h.resolved.orderedNodes_perm.mem_iff.mp hn)
  generalize gained rules opset g g.declaredTypes k = f at hk hgain'
  have hsequenced := h.resolved.sequenced h.unique
  have hsequenced' := h.resolved'.sequenced h.symm.unique
  refine ⟨g.initialKnowledge.accumulate ((g'.orderedNodes.map Prod.snd).map f), ?_, ?_, ?_⟩
  · unfold passNodes
    rw [h.initialKnowledge_eq, h.declaredTypes_eq]
    have hsame : ∀ n ∈ g'.orderedNodes.map Prod.snd,
        gain rules opset g' g.declaredTypes k n = .ok (f n) := by
      intro n hn
      rw [h.gain_eq]
      exact hgain' n (hperm.mem_iff.mp hn)
    refine foldlM_passNode_eq_of_gain hsequenced' hsame fun name => ?_
    have hagree := agreeAt_accumulate_of_perm (k := g.initialKnowledge) hperm
      (fun n hn => learn_concerns (hgain' n hn)) hsequenced.results name
    rw [← hk] at hagree
    exact hagree
  · rw [hk, records_accumulate, records_accumulate]
    exact (hperm.flatMap_right _).append_left _
  · rw [hk, skips_accumulate, skips_accumulate]
    exact (hperm.flatMap_right _).append_left _

/-- The same records, in whatever order, leave every value with the same type. -/
lemma valueType?_foldl_record_eq (h : g.Rearranged g') {records records' : List ValueInfo}
    (hconsistent : Consistent records) (hperm : records'.Perm records) (name : String) :
    (records'.foldl record g').valueType? name = (records.foldl record g).valueType? name := by
  have hinner : (records'.foldl record g').inner? name = (records.foldl record g).inner? name := by
    by_cases hrecorded : ∃ v ∈ records, v.name = name
    · obtain ⟨v, hv, rfl⟩ := hrecorded
      rw [inner?_foldl_record hconsistent hv,
        inner?_foldl_record (hconsistent.of_perm hperm) (hperm.mem_iff.mpr hv)]
      exact inner?_record_congr h.inputs (congrFun h.inner?_eq v.name)
    · push Not at hrecorded
      rw [inner?_foldl_record_of_ne hrecorded,
        inner?_foldl_record_of_ne fun v hv => hrecorded v (hperm.mem_iff.mp hv), h.inner?_eq]
  rw [Graph.valueType?_eq, Graph.valueType?_eq, hinner, constantType?_foldl_record,
    constantType?_foldl_record, foldl_record_inputs, foldl_record_inputs, h.inputs,
    h.constantType?_eq]

end Rearranged

/-- Propagation does not see the order in which a graph lists its nodes: either both graphs give
up, or both finish with the same types of all values, the same count and the same skipped nodes. -/
theorem propagate_same_of_rearranged (h : g.Rearranged g') (rules : Registry) (opset : Int) :
    (∃ a a', g.propagate rules opset = .error a ∧ g'.propagate rules opset = .error a') ∨
      ∃ p p' r r', g.propagate rules opset = .ok (p, r) ∧ g'.propagate rules opset = .ok (p', r') ∧
        (∀ name, p'.valueType? name = p.valueType? name) ∧ r'.inferred = r.inferred ∧
          r'.skipped.Perm r.skipped := by
  unfold propagate
  cases hrun : passNodes rules opset g with
  | ok k =>
    obtain ⟨k', hrun', hrecords, hskips⟩ := h.exists_passNodes hrun
    have hconsistent := consistent_of_passNodes h.resolved.toInOrder h.unique hrun
    rw [hrun']
    exact .inr ⟨_, _, _, _, rfl, rfl, h.valueType?_foldl_record_eq hconsistent hrecords,
      hrecords.length_eq, hskips⟩
  | error a =>
    cases hrun' : passNodes rules opset g' with
    | error a' => exact .inl ⟨a, a', rfl, rfl⟩
    | ok k' =>
      obtain ⟨k, hback, _⟩ := h.symm.exists_passNodes hrun'
      cases hrun.symm.trans hback

theorem propagate_same_on_chain :
    (chain ["x"] false [0, 1]).Rearranged (chain ["x"] true [1, 0]) ∧
      ∃ p r, (chain ["x"] true [1, 0]).propagate .builtin 13 = .ok (p, r) ∧
        p.valueType? "y" = some (.of .float (.ofExtents [4])) ∧ r.inferred = 2 := by
  have hrearranged : (chain ["x"] false [0, 1]).Rearranged (chain ["x"] true [1, 0]) := {
    resolved := resolved_of_build chain_forwards_build
    resolved' := resolved_of_build chain_backwards_build
    unique := ⟨by decide, by decide, by decide, by decide⟩
    perm := List.reverse_perm _
    parts := rfl }
  refine ⟨hrearranged, ?_⟩
  have hforwards : ((chain ["x"] false [0, 1]).propagate .builtin 13).map
      (fun (p, r) => (p.valueType? "y", r.inferred)) =
        .ok (some (.of .float (.ofExtents [4])), 2) := by decide +kernel
  rcases propagate_same_of_rearranged hrearranged .builtin 13 with
    ⟨a, _, ha, _⟩ | ⟨p, p', r, r', hp, hp', htypes, hinferred, _⟩
  · rw [ha] at hforwards
    cases hforwards
  · rw [hp] at hforwards
    obtain ⟨htype, hcount⟩ := Prod.mk.inj (Except.ok.inj hforwards)
    exact ⟨p', r', hp', (htypes "y").trans htype, hinferred.trans hcount⟩

/-- A graph that was built may be out of order once an input is dropped that a node gives as well.
What is propagated then depends on how the nodes are listed. -/
theorem propagate_differs_after_retainInputs :
    ∃ keep, (chainParts ["x", "h"] true).build = .ok (chain ["x", "h"] true [0, 1]) ∧
      (chainParts ["x"] false).build = .ok (chain ["x"] false [0, 1]) ∧
      ((chain ["x", "h"] true [0, 1]).retainInputs keep).ResultsUnique ∧
      (chain ["x"] false [0, 1]).nodes.Perm
        ((chain ["x", "h"] true [0, 1]).retainInputs keep).nodes ∧
      (chain ["x"] false [0, 1]).toGraphParts =
        { ((chain ["x", "h"] true [0, 1]).retainInputs keep).toGraphParts with
          nodes := (chain ["x"] false [0, 1]).nodes } ∧
      (((chain ["x", "h"] true [0, 1]).retainInputs keep).propagate .builtin 13).map
        (fun (p, r) => (p.valueType? "y", r.inferred)) = .ok (some .unknown, 1) ∧
      ((chain ["x"] false [0, 1]).propagate .builtin 13).map
        (fun (p, r) => (p.valueType? "y", r.inferred)) =
          .ok (some (.of .float (.ofExtents [4])), 2) := by
  refine ⟨fun v => v.name != "h", by decide +kernel, chain_forwards_build,
    ⟨by decide, by decide, by decide, by decide⟩, (List.reverse_perm _).symm, by decide,
    by decide +kernel, by decide +kernel⟩

end Graph

end TensorGraph
