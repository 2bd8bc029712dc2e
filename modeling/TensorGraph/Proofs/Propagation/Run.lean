import TensorGraph.Proofs.Propagation.Order
import TensorGraph.Proofs.Propagation.Records

/-!
# Where a propagation ends

In a graph in order, whose results have names of their own, a propagation ends with knowledge by
which each node adds its part. A type that it records is the type that is known in the end.
-/

namespace TensorGraph

open Knowledge

namespace Graph

variable {g : Graph} {rules : Registry} {opset : Int} {k : Knowledge}

lemma gain_of_passNodes (hg : g.InOrder) (hunique : g.ResultsUnique)
    (h : passNodes rules opset g = .ok k) :
    (∀ n ∈ g.nodes,
        gain rules opset g g.declaredTypes k n = .ok (gained rules opset g g.declaredTypes k n)) ∧
      k = g.initialKnowledge.accumulate
        ((g.orderedNodes.map Prod.snd).map (gained rules opset g g.declaredTypes k)) := by
  obtain ⟨hgain, hk⟩ := gain_eq_of_foldlM_passNode (hg.sequenced hunique) h
  exact ⟨fun n hn => hgain n (hg.orderedNodes_perm.mem_iff.mpr hn), hk⟩

/-- What a node adds about its results is what is known about them in the end. -/
lemma agreeAt_of_passNodes (hg : g.InOrder) (hunique : g.ResultsUnique)
    (h : passNodes rules opset g = .ok k) {n : Node} (hn : n ∈ g.nodes) {name : String}
    (hname : name ∈ n.presentOutputs) :
    (gained rules opset g g.declaredTypes k n ++ g.initialKnowledge).AgreeAt k name := by
  obtain ⟨hgain, hk⟩ := gain_of_passNodes hg hunique h
  have hmem : n ∈ g.orderedNodes.map Prod.snd := hg.orderedNodes_perm.mem_iff.mpr hn
  have hconcerns : ∀ m ∈ g.orderedNodes.map Prod.snd,
      (gained rules opset g g.declaredTypes k m).Concerns m.presentOutputs :=
    fun m hm => learn_concerns (hgain m (hg.orderedNodes_perm.mem_iff.mp hm))
  have hagree := agreeAt_accumulate_of_mem (k := g.initialKnowledge) hconcerns
    (hg.sequenced hunique).results hmem hname
  rw [← hk] at hagree
  exact hagree

lemma mem_records_iff_of_passNodes (hg : g.InOrder) (hunique : g.ResultsUnique)
    (h : passNodes rules opset g = .ok k) {v : ValueInfo} :
    v ∈ k.records ↔
      ∃ n ∈ g.nodes, v ∈ (gained rules opset g g.declaredTypes k n).records := by
  obtain ⟨hgain, hk⟩ := gain_of_passNodes hg hunique h
  rw [← List.mem_reverse]
  conv_lhs => rw [hk, records_accumulate]
  have hnone : g.initialKnowledge.records.reverse = [] := rfl
  rw [hnone, List.nil_append, List.mem_flatMap]
  simp only [List.mem_reverse, hg.orderedNodes_perm.mem_iff]

/-- What is recorded of a value: nothing but its type, which is known in the end. -/
structure Recorded (g : Graph) (k : Knowledge) (v : ValueInfo) : Prop where
  plain : v = { name := v.name, type := v.type }
  told : v.type.isUnknown = false
  known : k.known.lookup v.name = some v.type
  result : v.name ∈ g.presentResults

lemma recorded_of_passNodes (hg : g.InOrder) (hunique : g.ResultsUnique)
    (h : passNodes rules opset g = .ok k) : ∀ v ∈ k.records, g.Recorded k v := by
  intro v hv
  obtain ⟨n, hn, hrecord⟩ := (mem_records_iff_of_passNodes hg hunique h).mp hv
  have hgain := (gain_of_passNodes hg hunique h).1 n hn
  have hconcerns := learn_concerns hgain
  obtain ⟨hplain, htold, hmem⟩ := hconcerns.records v hrecord
  have hname : v.name ∈ n.presentOutputs := hconcerns.known _ hmem
  have hnodup : n.presentOutputs.Nodup := (List.nodup_flatMap.mp hunique.nodup).1 n hn
  refine ⟨hplain, htold, ?_, List.mem_flatMap.mpr ⟨n, hn, hname⟩⟩
  rw [← (agreeAt_of_passNodes hg hunique h hn hname).known, known_append, List.lookup_append,
    lookup_known_of_mem_records hgain hnodup hrecord, Option.some_or]

lemma consistent_of_recorded {records : List ValueInfo} (h : ∀ v ∈ records, g.Recorded k v) :
    Consistent records := by
  intro v hv
  refine ⟨(h v hv).plain, fun w hw hname => ?_⟩
  have htype : v.type = w.type := by
    have hknown := (h w hw).known
    rw [← hname, (h v hv).known] at hknown
    exact Option.some.inj hknown
  rw [(h v hv).plain, (h w hw).plain, hname, htype]

lemma consistent_of_passNodes (hg : g.InOrder) (hunique : g.ResultsUnique)
    (h : passNodes rules opset g = .ok k) : Consistent k.records.reverse :=
  consistent_of_recorded fun v hv =>
    recorded_of_passNodes hg hunique h v (List.mem_reverse.mp hv)

end Graph

end TensorGraph
