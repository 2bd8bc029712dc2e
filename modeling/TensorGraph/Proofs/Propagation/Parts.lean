import TensorGraph.Proofs.Propagation.Gains
import TensorGraph.Proofs.Validation

/-!
# The parts of a run

A run over nodes puts one part in front of the other, a part for each node. Each part is about the
results of its node only, and so is what is recorded and which nodes are skipped.
-/

namespace TensorGraph

open Knowledge

section Runs

variable {rules : Registry} {opset : Int} {g : Graph} {declared : List (String × TensorType)}
  {k k' : Knowledge} {n : Node} {ns : List Node} {es : List (Node × Knowledge)}

/-- What each node adds when nodes are passed one after the other. -/
def gains (rules : Registry) (opset : Int) (g : Graph) (declared : List (String × TensorType)) :
    Knowledge → List Node → Except Abort (List (Node × Knowledge))
  | _, [] => .ok []
  | k, n :: ns =>
    (gain rules opset g declared k n).bind fun d =>
      (gains rules opset g declared (d ++ k) ns).map fun es => (n, d) :: es

lemma gains_cons_eq_ok_iff :
    gains rules opset g declared k (n :: ns) = .ok es ↔
      ∃ d es', gain rules opset g declared k n = .ok d ∧
        gains rules opset g declared (d ++ k) ns = .ok es' ∧ es = (n, d) :: es' := by
  rw [gains]
  constructor
  · intro h
    obtain ⟨d, hd, hrest⟩ := bind_eq_ok_iff.mp h
    obtain ⟨es', hes', rfl⟩ := map_eq_ok_iff.mp hrest
    exact ⟨d, es', hd, hes', rfl⟩
  · rintro ⟨d, es', hd, hes', rfl⟩
    exact bind_eq_ok_iff.mpr ⟨d, hd, map_eq_ok_iff.mpr ⟨es', hes', rfl⟩⟩

/-- A run ends with its parts in front of what was known before. -/
lemma foldlM_passNode_eq_ok_iff :
    ns.foldlM (passNode rules opset g declared) k = .ok k' ↔
      ∃ es, gains rules opset g declared k ns = .ok es ∧ k' = k.accumulate (es.map Prod.snd) := by
  induction ns generalizing k with
  | nil =>
    constructor
    · intro h
      exact ⟨[], rfl, (Except.ok.inj h).symm⟩
    · rintro ⟨es, hes, rfl⟩
      obtain rfl := Except.ok.inj hes
      rfl
  | cons n ns ih =>
    rw [List.foldlM_cons, bind_eq_ok_iff]
    simp only [passNode_eq_map_gain, map_eq_ok_iff, gains_cons_eq_ok_iff]
    constructor
    · rintro ⟨_, ⟨d, hd, rfl⟩, hrest⟩
      obtain ⟨es, hes, rfl⟩ := ih.mp hrest
      exact ⟨(n, d) :: es, ⟨d, es, hd, hes, rfl⟩, rfl⟩
    · rintro ⟨_, ⟨d, es, hd, hes, rfl⟩, rfl⟩
      exact ⟨d ++ k, ⟨d, hd, rfl⟩, ih.mpr ⟨es, hes, rfl⟩⟩

lemma map_fst_gains (h : gains rules opset g declared k ns = .ok es) : es.map Prod.fst = ns := by
  induction ns generalizing k es with
  | nil =>
    obtain rfl := Except.ok.inj h
    rfl
  | cons n ns ih =>
    obtain ⟨d, es', _, hes', rfl⟩ := gains_cons_eq_ok_iff.mp h
    rw [List.map_cons, ih hes']

lemma concerns_of_gains (h : gains rules opset g declared k ns = .ok es) :
    ∀ e ∈ es, e.2.Concerns e.1.presentOutputs := by
  induction ns generalizing k es with
  | nil =>
    obtain rfl := Except.ok.inj h
    simp
  | cons n ns ih =>
    obtain ⟨d, es', hd, hes', rfl⟩ := gains_cons_eq_ok_iff.mp h
    exact List.forall_mem_cons.mpr ⟨learn_concerns hd, ih hes'⟩

/-- If a node is skipped, it is so under its own label. -/
lemma skips_of_learn {answer : NodeAnswer} {d : Knowledge} (h : learn declared n answer = .ok d) :
    ∀ s ∈ d.skips, s.node = n.label ∧ s.op = n.op := by
  rcases learn_cases h with ⟨reason, rfl⟩ | ⟨types, values, _, rfl⟩
  · simp [nothing, skip]
  · obtain ⟨constants, hconstants, _⟩ := exists_nothing_addConstants_eq n values
    intro s hs
    rw [hconstants, ← List.mem_reverse, skips_accumulate] at hs
    obtain ⟨⟨name, type⟩, _, hskip⟩ : ∃ result ∈ List.zip n.outputs types,
        s ∈ (addType declared n nothing result).skips := by simpa using hs
    rcases addType_cases declared n name type with ⟨_, h⟩ | ⟨_, ⟨_, _, h⟩ | ⟨_, _, _, _, h⟩⟩
    · rw [h] at hskip
      cases hskip
    · rw [h] at hskip
      cases hskip
    · rw [h] at hskip
      obtain rfl := List.mem_singleton.mp hskip
      exact ⟨rfl, rfl⟩

lemma skips_of_gains (h : gains rules opset g declared k ns = .ok es) :
    ∀ e ∈ es, ∀ s ∈ e.2.skips, s.node = e.1.label ∧ s.op = e.1.op := by
  induction ns generalizing k es with
  | nil =>
    obtain rfl := Except.ok.inj h
    simp
  | cons n ns ih =>
    obtain ⟨d, es', hd, hes', rfl⟩ := gains_cons_eq_ok_iff.mp h
    exact List.forall_mem_cons.mpr ⟨skips_of_learn hd, ih hes'⟩

end Runs

namespace Graph

variable {g : Graph} {rules : Registry} {opset : Int} {k : Knowledge}
  {es : List (Node × Knowledge)}

/-- What each node adds when types are propagated, in the order of the graph. -/
def parts (g : Graph) (rules : Registry) (opset : Int) :
    Except Abort (List (Node × Knowledge)) :=
  gains rules opset g g.declaredTypes g.initialKnowledge (g.orderedNodes.map Prod.snd)

lemma mem_nodes_of_mem_parts (h : g.parts rules opset = .ok es) : ∀ e ∈ es, e.1 ∈ g.nodes :=
  fun _ he => mem_nodes_of_mem_orderedNodes (map_fst_gains h ▸ List.mem_map_of_mem he)

/-- A propagation records what its parts record, and reports the nodes that they skip. -/
lemma propagate_eq_ok_iff {g' : Graph} {report : PropagationReport} :
    g.propagate rules opset = .ok (g', report) ↔
      ∃ es, g.parts rules opset = .ok es ∧
        g' = (es.flatMap fun e => e.2.records.reverse).foldl record g ∧
        report = ⟨(es.flatMap fun e => e.2.records.reverse).length,
          es.flatMap fun e => e.2.skips.reverse⟩ := by
  have hrecords (es : List (Node × Knowledge)) :
      (g.initialKnowledge.accumulate (es.map Prod.snd)).records.reverse =
        es.flatMap fun e => e.2.records.reverse := records_accumulate _ _ _
  have hskips (es : List (Node × Knowledge)) :
      (g.initialKnowledge.accumulate (es.map Prod.snd)).skips.reverse =
        es.flatMap fun e => e.2.skips.reverse := skips_accumulate _ _ _
  unfold propagate passNodes
  simp only [map_eq_ok_iff, foldlM_passNode_eq_ok_iff]
  constructor
  · rintro ⟨_, ⟨es, hes, rfl⟩, heq⟩
    rw [hrecords, hskips] at heq
    obtain ⟨rfl, rfl⟩ := Prod.mk.inj heq
    exact ⟨es, hes, rfl, rfl⟩
  · rintro ⟨es, hes, rfl, rfl⟩
    exact ⟨_, ⟨es, hes, rfl⟩, by rw [hrecords, hskips]⟩

lemma records_of_parts (h : g.parts rules opset = .ok es) :
    ∀ v ∈ es.flatMap fun e => e.2.records.reverse,
      v = { name := v.name, type := v.type } ∧ v.name ∈ g.presentResults := by
  intro v hv
  obtain ⟨e, he, hrecord⟩ := List.mem_flatMap.mp hv
  have hconcerns := concerns_of_gains h e he
  obtain ⟨hplain, _, hknown⟩ := hconcerns.records v (List.mem_reverse.mp hrecord)
  exact ⟨hplain, List.mem_flatMap.mpr
    ⟨e.1, mem_nodes_of_mem_parts h e he, hconcerns.known _ hknown⟩⟩

end Graph

end TensorGraph
