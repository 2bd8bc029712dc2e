import TensorGraph.Proofs.GivingUp
import TensorGraph.Proofs.Propagation.Gains
import TensorGraph.Repair

/-!
# Where a propagation gives up

With the built-in rules, a propagation gives up at the first node of the default collection whose
rule does, seeing what is known about the operands after all nodes before it.
-/

namespace TensorGraph

lemma askRule_eq_abort_iff {c : Context} {a : Abort} :
    askRule .builtin c = .error (.abort a) ↔
      c.node.isDefaultDomain = true ∧ Registry.GivesUp c a c.node.op := by
  unfold askRule
  dsimp only
  cases hdomain : c.node.isDefaultDomain with
  | false => simp
  | true =>
    rw [Bool.not_true, if_neg Bool.false_ne_true, and_iff_right rfl]
    cases hrule : Registry.builtin.rule? c.node.op with
    | none =>
      refine iff_of_false nofun fun hgives => ?_
      exact Registry.exists_rule?_of_givesUp hgives hrule
    | some rule => exact map_eq_error_iff.trans (Registry.infer_eq_abort_iff hrule)

lemma passNode_eq_error_iff {opset : Int} {g : Graph} {declared : List (String × TensorType)}
    {k : Knowledge} {n : Node} {a : Abort} :
    passNode .builtin opset g declared k n = .error a ↔
      n.isDefaultDomain = true ∧ Registry.GivesUp
        { node := n, operands := n.inputs.map (k.operand? g declared), opset } a n.op := by
  refine Iff.trans ?_ (askRule_eq_abort_iff
    (c := { node := n, operands := n.inputs.map (k.operand? g declared), opset }))
  unfold passNode
  dsimp only
  rcases askRule .builtin _ with e | ⟨types, values⟩
  · cases e <;> simp
  · simp

namespace Graph

/-- In the order of the graph there comes a node whose rule gives up, seeing what is known after all
nodes before it. -/
def GivesUp (g : Graph) (opset : Int) (a : Abort) : Prop :=
  ∃ before n behind k, g.orderedNodes.map Prod.snd = before ++ n :: behind ∧
    before.foldlM (passNode .builtin opset g g.declaredTypes) g.initialKnowledge = .ok k ∧
    n.isDefaultDomain = true ∧ Registry.GivesUp
      { node := n, operands := n.inputs.map (k.operand? g g.declaredTypes), opset } a n.op

lemma GivesUp.exists_mem_abortingOps {g : Graph} {opset : Int} {a : Abort}
    (h : g.GivesUp opset a) : ∃ n ∈ g.nodes, n.op ∈ Registry.abortingOps := by
  obtain ⟨before, n, behind, k, hnodes, _, _, hgives⟩ := h
  refine ⟨n, mem_nodes_of_mem_orderedNodes ?_, Registry.mem_abortingOps_of_givesUp hgives⟩
  rw [hnodes]
  exact List.mem_append_right before List.mem_cons_self

lemma propagate_eq_error_iff {g : Graph} {opset : Int} {a : Abort} :
    g.propagate .builtin opset = .error a ↔ g.GivesUp opset a := by
  unfold propagate passNodes GivesUp
  simp only [map_eq_error_iff, foldlM_eq_error_iff, passNode_eq_error_iff]

lemma exists_propagate_eq_ok_iff {g : Graph} {opset : Int} :
    (∃ g' report, g.propagate .builtin opset = .ok (g', report)) ↔ ¬∃ a, g.GivesUp opset a := by
  simp only [← propagate_eq_error_iff]
  cases g.propagate .builtin opset with
  | error a => simp
  | ok result => exact iff_of_true ⟨result.1, result.2, rfl⟩ nofun

end Graph

end TensorGraph
