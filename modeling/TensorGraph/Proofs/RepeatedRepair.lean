import TensorGraph.Proofs.NormalizedInputs
import TensorGraph.Proofs.Propagation.Run

/-!
# Repairing twice

What a propagation records is declared when types are propagated a second time. It is merged with
what the rules say again and comes out as it was, so that a second repair has nothing to do.
-/

namespace TensorGraph

open Knowledge

namespace Graph

variable {g g' : Graph} {rules : Registry} {opset : Int} {k : Knowledge}

lemma lookup_initialKnowledge_eq_none (hunique : g.ResultsUnique) {name : String}
    (hname : name ∈ g.presentResults) : g.initialKnowledge.known.lookup name = none := by
  refine lookup_eq_none_of_forall_ne fun e he heq => ?_
  unfold initialKnowledge at he
  rw [List.mem_reverse, List.mem_append, List.mem_append, List.mem_map, List.mem_map,
    List.mem_filterMap] at he
  rcases he with (⟨v, hv, rfl⟩ | ⟨t, ht, rfl⟩) | ⟨s, hs, hsparse⟩
  · exact hunique.notInput name hname (heq ▸ List.mem_map_of_mem hv)
  · exact hunique.notInitializer name hname (heq ▸ List.mem_map_of_mem ht)
  · have hsname : e.1 = s.name := by
      unfold sparseType? at hsparse
      split at hsparse
      · cases hsparse
      · obtain ⟨_, _, rfl⟩ := Option.map_eq_some_iff.mp hsparse
        rfl
    exact hunique.notSparse name hname (heq ▸ hsname ▸ List.mem_map_of_mem hs)

/-- Recorded results leave alone what is known before the first node. -/
lemma initialKnowledge_foldl_record (hunique : g.ResultsUnique) {records : List ValueInfo}
    (hresults : ∀ v ∈ records, v.name ∈ g.presentResults) :
    (records.foldl record g).initialKnowledge = g.initialKnowledge := by
  have htype : ∀ s ∈ g.sparse,
      (records.foldl record g).sparseType? s = g.sparseType? s := by
    intro s hs
    have hother : ∀ v ∈ records, v.name ≠ s.name := fun v hv heq =>
      hunique.notSparse v.name (hresults v hv) (heq ▸ List.mem_map_of_mem hs)
    unfold sparseType?
    rw [valueType?_eq, valueType?_eq, inner?_foldl_record_of_ne hother,
      constantType?_foldl_record, foldl_record_inputs]
  have hsparse := List.filterMap_congr htype
  unfold initialKnowledge
  obtain ⟨_, _, h⟩ := g.exists_foldl_record_eq records
  rw [h] at hsparse ⊢
  rw [hsparse]

/-- Each node adds the same once its results are recorded. -/
lemma gain_foldl_record (hg : g.InOrder) (hunique : g.ResultsUnique)
    (hrun : passNodes rules opset g = .ok k) {n : Node} (hn : n ∈ g.nodes) :
    gain rules opset (k.records.reverse.foldl record g)
        (k.records.reverse.foldl record g).declaredTypes k n =
      gain rules opset g g.declaredTypes k n := by
  have hrecorded : ∀ v ∈ k.records.reverse, g.Recorded k v := fun v hv =>
    recorded_of_passNodes hg hunique hrun v (List.mem_reverse.mp hv)
  have hdeclared := lookup_declaredTypes_foldl_record g fun v hv => (hrecorded v hv).told
  have hinitializer : (k.records.reverse.foldl record g).initializer? = g.initializer? := by
    obtain ⟨_, _, h⟩ := g.exists_foldl_record_eq k.records.reverse
    rw [h]
    rfl
  have hoperand : k.operand? (k.records.reverse.foldl record g)
      (k.records.reverse.foldl record g).declaredTypes = k.operand? g g.declaredTypes := by
    funext name
    unfold operand? typeOf
    rw [hinitializer]
    cases hknown : k.known.lookup name with
    | some t => rfl
    | none =>
      rcases hdeclared name with hsame | ⟨v, hv, rfl, _⟩
      · rw [hsame]
      · rw [(hrecorded v hv).known] at hknown
        cases hknown
  have hgain := (gain_of_passNodes hg hunique hrun).1 n hn
  have hnodup : n.presentOutputs.Nodup := (List.nodup_flatMap.mp hunique.nodup).1 n hn
  rw [hgain]
  unfold gain at hgain ⊢
  rw [hoperand]
  refine learn_congr hgain hnodup fun name hname => ?_
  rcases hdeclared name with hsame | ⟨v, hv, rfl, htype⟩
  · exact .inl hsame
  · have hagree := (agreeAt_of_passNodes hg hunique hrun hn hname).known
    rw [known_append, List.lookup_append, (hrecorded v hv).known,
      lookup_initialKnowledge_eq_none hunique (hrecorded v hv).result, Option.or_none] at hagree
    exact .inr ⟨v.type, hagree, htype⟩

/-- A second propagation changes nothing and reports the same. -/
lemma propagate_again {report : PropagationReport} (hg : g.InOrder) (hunique : g.ResultsUnique)
    (h : g.propagate rules opset = .ok (g', report)) :
    g'.propagate rules opset = .ok (g', report) := by
  obtain ⟨k, hrun, heq⟩ := map_eq_ok_iff.mp h
  obtain ⟨rfl, rfl⟩ := Prod.mk.inj heq
  have hgain := gain_of_passNodes hg hunique hrun
  have hresults : ∀ v ∈ k.records.reverse, v.name ∈ g.presentResults := fun v hv =>
    (recorded_of_passNodes hg hunique hrun v (List.mem_reverse.mp hv)).result
  have hordered : (k.records.reverse.foldl record g).orderedNodes = g.orderedNodes := by
    obtain ⟨_, _, h⟩ := g.exists_foldl_record_eq k.records.reverse
    rw [h]
    rfl
  have hrun' : passNodes rules opset (k.records.reverse.foldl record g) = .ok k := by
    unfold passNodes
    rw [initialKnowledge_foldl_record hunique hresults, hordered]
    have hk := hgain.2
    generalize hf : gained rules opset g g.declaredTypes k = f at hk
    conv_rhs => rw [hk]
    have hsame : ∀ n ∈ g.orderedNodes.map Prod.snd,
        gain rules opset (k.records.reverse.foldl record g)
          (k.records.reverse.foldl record g).declaredTypes k n = .ok (f n) := by
      intro n hn
      have hnodes : n ∈ g.nodes := hg.orderedNodes_perm.mem_iff.mp hn
      rw [gain_foldl_record hg hunique hrun hnodes, hgain.1 n hnodes, hf]
    refine foldlM_passNode_eq_of_gain (hg.sequenced hunique) hsame fun name => ?_
    rw [← hk]
    exact .refl k name
  unfold propagate
  rw [hrun']
  dsimp only [Except.map]
  rw [foldl_record_again (consistent_of_passNodes hg hunique hrun)]

end Graph

namespace Model

variable {m m' : Model} {s : Settings}

lemma prepared_eq_self (hinputs : ∀ v ∈ m.graph.inputs, m.graph.isProperInput v = true)
    (hversion : s.leastVersion ≤ m.irVersion) : m.prepared s = m := by
  have hgraph : m.graph.normalizeInputs = m.graph := Graph.retainInputs_eq_self hinputs
  unfold prepared raiseVersion
  rw [hgraph, if_neg (Int64.not_lt.mpr hversion)]

lemma propagateIf_again {report? : Option PropagationReport} (hm : m.graph.InOrder)
    (hunique : m.graph.ResultsUnique) (h : m.propagateIf s = .ok (m', report?)) :
    m'.propagateIf s = .ok (m', report?) := by
  rcases propagateIf_cases h with ⟨hinfer, g, report, hgraph, rfl, rfl⟩ | ⟨_, rfl, _⟩
  · have hopset : ({ m with graph := g } : Model).propagationOpset = m.propagationOpset := rfl
    unfold propagateIf propagate
    rw [if_pos hinfer, hopset, Graph.propagate_again hm hunique hgraph]
    rfl
  · exact h

lemma propagateIf_inputs {report? : Option PropagationReport}
    (h : m.propagateIf s = .ok (m', report?)) : m'.graph.inputs = m.graph.inputs := by
  rcases propagateIf_cases h with ⟨_, g, _, hgraph, rfl, _⟩ | ⟨_, rfl, _⟩
  · obtain ⟨k, _, heq⟩ := map_eq_ok_iff.mp hgraph
    obtain ⟨rfl, _⟩ := Prod.mk.inj heq
    exact Graph.foldl_record_inputs _ _
  · rfl

/-- The model that comes out is valid, so that the results it was propagated for have names of
their own. -/
lemma resultsUnique_of_propagateIf {report? : Option PropagationReport}
    (h : m.propagateIf s = .ok (m', report?)) (hvalid : m'.validate s.versions = .ok ()) :
    m.graph.ResultsUnique := by
  have hunique := (validate_eq_ok_iff.mp hvalid).1.resultsUnique
  obtain ⟨_, _, hkeeps⟩ := propagateIf_keeps h
  have hresults : m'.graph.presentResults = m.graph.presentResults := by
    unfold GraphParts.presentResults
    rw [hkeeps.nodes]
  refine ⟨hresults ▸ hunique.nodup, ?_, ?_, ?_⟩
  · rw [← hresults, ← propagateIf_inputs h]
    exact hunique.notInput
  · rw [← hresults, ← hkeeps.initializers]
    exact hunique.notInitializer
  · rw [← hresults, ← hkeeps.sparse]
    exact hunique.notSparse

lemma isProperInput_of_propagateIf {report? : Option PropagationReport}
    (h : (m.prepared s).propagateIf s = .ok (m', report?)) :
    ∀ v ∈ m'.graph.inputs, m'.graph.isProperInput v = true := by
  intro v hv
  obtain ⟨_, _, hkeeps⟩ := propagateIf_keeps h
  rw [propagateIf_inputs h, prepared_graph] at hv
  unfold Graph.isProperInput
  rw [hkeeps.initializers, prepared_graph]
  exact Graph.isProperInput_of_mem_normalizeInputs (g := m.graph) v hv

/-- Repairing a repaired model again gives the same model, changes nothing and reports the same
types and skipped nodes. -/
theorem repair_again {r : RepairReport} (hm : m.graph.InOrder) (h : m.repair s = .ok (m', r)) :
    ∃ r', m'.repair s = .ok (m', r') ∧ r'.inputsRemoved = 0 ∧
      r'.version = ⟨m'.irVersion, m'.irVersion⟩ ∧ r'.changed = false ∧
      r'.propagation? = r.propagation? := by
  obtain ⟨hpropagate, hvalid, _, _⟩ := repair_eq_ok_iff.mp h
  obtain ⟨hversion, _, _⟩ := propagateIf_keeps hpropagate
  have hunique := resultsUnique_of_propagateIf hpropagate hvalid
  have horder : (m.prepared s).graph.InOrder := by
    rw [prepared_graph]
    exact hm.normalizeInputs
  have hproper := isProperInput_of_propagateIf hpropagate
  have hleast : s.leastVersion ≤ m'.irVersion := by
    rw [hversion, prepared_irVersion]
    exact le_raiseVersion_iff.mpr (.inr Int64.le_rfl)
  have hprepared := prepared_eq_self hproper hleast
  have hcount : m'.graph.countConstantInputs = 0 := by
    unfold Graph.countConstantInputs Graph.countDropped
    rw [List.filter_eq_nil_iff.mpr fun v hv => by simp [hproper v hv]]
    rfl
  refine ⟨⟨0, ⟨m'.irVersion, m'.irVersion⟩, r.propagation?⟩, repair_eq_ok_iff.mpr ?_, rfl, rfl,
    ?_, rfl⟩
  · rw [hprepared]
    exact ⟨propagateIf_again horder hunique hpropagate, hvalid, hcount.symm, rfl⟩
  · simp [RepairReport.changed, VersionChange.changed]

def ofChain (graph : Graph) : Model where
  irVersion := 8
  opsets := [⟨"", 13⟩]
  graph

theorem repair_again_on_chain :
    (Graph.chain ["x"] false [0, 1]).InOrder ∧
      ∃ m' r r', (ofChain (.chain ["x"] false [0, 1])).repair {} = .ok (m', r) ∧
        m'.repair {} = .ok (m', r') ∧ r'.changed = false ∧ r'.propagation? = some ⟨2, []⟩ := by
  have horder : (Graph.chain ["x"] false [0, 1]).InOrder :=
    (Graph.resolved_of_build Graph.chain_forwards_build).toInOrder
  have hfirst : ((ofChain (.chain ["x"] false [0, 1])).repair {}).map
      (fun (_, r) => r.propagation?) = .ok (some ⟨2, []⟩) := by decide +kernel
  obtain ⟨⟨m', r⟩, hrepair, hreport⟩ := map_eq_ok_iff.mp hfirst
  obtain ⟨r', hagain, _, _, hchanged, hpropagation⟩ := repair_again horder hrepair
  exact ⟨horder, m', r, r', hrepair, hagain, hchanged, hpropagation.trans hreport⟩

/-- Out of order, as a graph may be after an input was dropped, a repair finds the type of `y` only
the second time. -/
theorem repair_differs_after_retainInputs :
    ∃ keep, (Graph.chainParts ["x", "h"] true).build = .ok (.chain ["x", "h"] true [0, 1]) ∧
      ((ofChain ((Graph.chain ["x", "h"] true [0, 1]).retainInputs keep)).repair {}).bind
        (fun (m', r) => (m'.repair {}).map fun (m'', r') =>
          (r.propagation?, m'.graph.valueType? "y", r'.propagation?, m''.graph.valueType? "y")) =
        .ok (some ⟨1, []⟩, some .unknown, some ⟨2, []⟩, some (.of .float (.ofExtents [4]))) :=
  ⟨fun v => v.name != "h", by decide +kernel, by decide +kernel⟩

end Model

end TensorGraph
