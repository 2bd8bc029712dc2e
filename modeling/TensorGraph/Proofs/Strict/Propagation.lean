import TensorGraph.Proofs.Propagation.GivingUp
import TensorGraph.Proofs.Propagation.Order
import TensorGraph.Proofs.Strict.Registry

/-!
# Strict propagation

A strict propagation reads the nodes of a graph at the positions in its order and asks strict forms
of the rules. For the built-in rules it does the same as a propagation, which gives up at the first
node whose rule does.
-/

namespace TensorGraph

namespace Strict

def askRule (rules : List (String × StrictRule)) (c : Context) :
    Strict (List TensorType × List (Option Tensor)) :=
  let noRule := halt (.noRule c.node.domain c.node.op)
  if !c.node.isDefaultDomain then noRule
  else
    match rules.lookup c.node.op with
    | none => noRule
    | some rule => do
      let types ← rule.infer c
      let values? ← rule.fold c
      return (types, values?.getD [])

def passNode (rules : List (String × StrictRule)) (opset : Int) (g : Graph)
    (declared : List (String × TensorType)) (k : Knowledge) (n : Node) : Strict Knowledge :=
  let operands := n.inputs.map (k.operand? g declared)
  match askRule rules { node := n, operands, opset } with
  | .error (.fault f) => .error (.fault f)
  | .error (.reason e) => .ok (k.skip n e.message)
  | .ok (types, values) =>
    .ok ((List.zip n.outputs types).foldl (Knowledge.addType declared n)
      (k.addConstants n.outputs values))

def passNodes (rules : List (String × StrictRule)) (opset : Int) (g : Graph) : Strict Knowledge :=
  g.order.foldlM (fun k i => do passNode rules opset g g.declaredTypes k (← read g.nodes i))
    g.initialKnowledge

def propagate (rules : List (String × StrictRule)) (opset : Int) (g : Graph) :
    Strict (Graph × PropagationReport) :=
  (passNodes rules opset g).map fun k =>
    let records := k.records.reverse
    (records.foldl Graph.record g, ⟨records.length, k.skips.reverse⟩)

/-! ### The same as a propagation -/

lemma askRule_eq_lift (c : Context) :
    askRule builtin c = lift (TensorGraph.askRule .builtin c) := by
  unfold askRule TensorGraph.askRule Registry.rule?
  dsimp only
  split_ifs
  · rfl
  · rcases none_or_some_of_rel (lookup_of_sameEntry builtin_sameEntry c.node.op) with
      ⟨hstrict, hrule⟩ | ⟨s, rule, hstrict, hrule, hmirrors⟩
    · rw [hstrict, hrule]
      rfl
    · rw [hstrict, hrule]
      dsimp only
      rw [lift_map, ← hmirrors.infer]
      obtain hfold | ⟨f, _, hfault⟩ := hmirrors.fold c
      · rw [hfold]
        cases s.infer c <;> rfl
      · rw [hfault]
        rfl

/-- Giving up as a fault. -/
def faultOf (a : Abort) : Halt := .fault (.abort a)

lemma passNode_eq (opset : Int) (g : Graph) (declared : List (String × TensorType))
    (k : Knowledge) (n : Node) :
    passNode builtin opset g declared k n =
      (TensorGraph.passNode .builtin opset g declared k n).mapError faultOf := by
  unfold passNode TensorGraph.passNode
  dsimp only
  rw [askRule_eq_lift]
  rcases TensorGraph.askRule .builtin _ with e | ⟨types, values⟩
  · cases e <;> rfl
  · rfl

lemma foldlM_read_eq (opset : Int) (g : Graph) {order : List Nat}
    (h : ∀ i ∈ order, i < g.nodes.length) (k : Knowledge) :
    order.foldlM (fun k i => do passNode builtin opset g g.declaredTypes k (← read g.nodes i)) k =
      ((order.filterMap fun i => g.nodes[i]?).foldlM
        (TensorGraph.passNode .builtin opset g g.declaredTypes) k).mapError faultOf := by
  induction order generalizing k with
  | nil => rfl
  | cons i order ih =>
    rw [List.forall_mem_cons] at h
    have hn := List.getElem?_eq_getElem h.1
    rw [List.foldlM_cons, List.filterMap_cons_some hn, List.foldlM_cons, read_eq_ok hn]
    change passNode builtin opset g g.declaredTypes k g.nodes[i] >>= _ = _
    rw [passNode_eq]
    cases TensorGraph.passNode .builtin opset g g.declaredTypes k g.nodes[i] with
    | error a => rfl
    | ok k' => exact ih h.2 k'

lemma passNodes_eq {g : Graph} (h : g.InOrder) (opset : Int) :
    passNodes builtin opset g = (TensorGraph.passNodes .builtin opset g).mapError faultOf := by
  unfold passNodes TensorGraph.passNodes
  rw [Graph.orderedNodes_map_snd]
  exact foldlM_read_eq opset g (fun i hi => List.mem_range.mp (h.perm.subset hi)) _

lemma propagate_eq {g : Graph} (h : g.InOrder) (opset : Int) :
    propagate builtin opset g = (g.propagate .builtin opset).mapError faultOf := by
  unfold propagate Graph.propagate
  rw [passNodes_eq h]
  cases TensorGraph.passNodes .builtin opset g <;> rfl

end Strict

namespace Graph

/-- Whatever a node and its operands are like, a strict form of a built-in rule has results or a
reason to give none, unless the rule gives up; it never divides by zero. Where it computes results,
it is at no other fault. On a graph that was built, a strict propagation does the same as a
propagation, at every opset, and there is a report unless a node is reached whose rule gives up. -/
theorem propagate_completes_iff {p : GraphParts} {g : Graph} (h : p.build = .ok g) (opset : Int) :
    (∀ op rule, Registry.builtin.rule? op = some rule →
      ∃ s, Strict.builtin.lookup op = some s ∧ s.Mirrors rule ∧
        ∀ c f, s.infer c = .error (.fault f) ↔ ∃ a, Registry.GivesUp c a op ∧ f = .abort a) ∧
      Strict.propagate Strict.builtin opset g =
        (g.propagate .builtin opset).mapError Strict.faultOf ∧
      ((∃ g' report, g.propagate .builtin opset = .ok (g', report)) ↔
        ¬∃ a, g.GivesUp opset a) := by
  refine ⟨fun op rule hrule => ?_, Strict.propagate_eq (resolved_of_build h).toInOrder opset,
    exists_propagate_eq_ok_iff⟩
  obtain ⟨hstrict, hnone⟩ | ⟨s, rule', hstrict, hrule', hmirrors⟩ :=
    none_or_some_of_rel (Strict.lookup_of_sameEntry Strict.builtin_sameEntry op)
  · cases hrule.symm.trans hnone
  · obtain rfl := Option.some.inj (hrule.symm.trans hrule')
    exact ⟨s, hstrict, hmirrors, fun c f => Strict.infer_eq_fault_iff hrule hmirrors⟩

/-- A slice of a vector of four entries. -/
def sliceParts (starts stops : List Int64) : GraphParts where
  nodes := [{ op := "Slice", inputs := ["x", "starts", "stops"], outputs := ["y"] }]
  inputs := [{ name := "x", type := .of .float (.ofExtents [4]) }]
  outputs := [{ name := "y" }]
  initializers := [.ofIntegers "starts" [starts.length] starts,
    .ofIntegers "stops" [stops.length] stops]

def sliceGraph (starts stops : List Int64) : Graph :=
  { sliceParts starts stops with producers := (sliceParts starts stops).index, order := [0] }

theorem propagate_completes_on_slice :
    (sliceParts [1] [3]).build = .ok (sliceGraph [1] [3]) ∧
      ¬(∃ a, (sliceGraph [1] [3]).GivesUp 13 a) ∧
      (Strict.propagate Strict.builtin 13 (sliceGraph [1] [3])).map
        (fun (g, report) => (g.valueType? "y", report.inferred)) =
          .ok (some (.of .float (.ofExtents [2])), 1) := by
  have hbuild : (sliceParts [1] [3]).build = .ok (sliceGraph [1] [3]) := by decide +kernel
  obtain ⟨_, hstrict, hcompletes⟩ := propagate_completes_iff hbuild 13
  have hrun : ((sliceGraph [1] [3]).propagate .builtin 13).map
      (fun (g, report) => (g.valueType? "y", report.inferred)) =
        .ok (some (.of .float (.ofExtents [2])), 1) := by decide +kernel
  obtain ⟨⟨g', report⟩, hresult, htypes⟩ := map_eq_ok_iff.mp hrun
  refine ⟨hbuild, hcompletes.mp ⟨g', report, hresult⟩, ?_⟩
  rw [hstrict, hresult]
  exact congrArg _ htypes

/-- Two starts for one axis: the graph is built, and propagation gives up. -/
theorem propagate_gives_up_on_slice :
    (sliceParts [0, 0] [1, 1]).build = .ok (sliceGraph [0, 0] [1, 1]) ∧
      (sliceGraph [0, 0] [1, 1]).propagate .builtin 13 = .error (.outOfBounds 1 1) ∧
      Strict.propagate Strict.builtin 13 (sliceGraph [0, 0] [1, 1]) =
        .error (.fault (.abort (.outOfBounds 1 1))) := by
  exact ⟨by decide +kernel, by decide +kernel, by decide +kernel⟩

end Graph

end TensorGraph
