import TensorGraph.Proofs.Names.Rules
import TensorGraph.Proofs.Propagation.Gains
import TensorGraph.Proofs.Propagation.Records

/-!
# Propagation invents no names

If all names that a graph declares have a property, so have the names in all types that become known
or are recorded when its types are propagated.
-/

namespace TensorGraph

open Knowledge

variable {P : String → Prop}

lemma mem_of_lookup_eq_some {β : Type} {es : List (String × β)} {name : String} {b : β}
    (h : es.lookup name = some b) : (name, b) ∈ es := by
  obtain ⟨before, behind, rfl, _⟩ := List.lookup_eq_some_iff.mp h
  exact List.mem_append_right before List.mem_cons_self

/-- Named types with no names for extents but some that have the property. -/
def EntriesNamedBy (P : String → Prop) (es : List (String × TensorType)) : Prop :=
  ∀ e ∈ es, e.2.NamedBy P

structure Knowledge.NamedBy (P : String → Prop) (k : Knowledge) : Prop where
  known : EntriesNamedBy P k.known
  records : ∀ v ∈ k.records, v.type.NamedBy P

lemma Knowledge.namedBy_of_eq_nil {k : Knowledge} (hknown : k.known = [])
    (hrecords : k.records = []) : k.NamedBy P where
  known := by simp [EntriesNamedBy, hknown]
  records := by simp [hrecords]

lemma Knowledge.NamedBy.append {d k : Knowledge} (hd : d.NamedBy P) (hk : k.NamedBy P) :
    (d ++ k).NamedBy P where
  known := List.forall_mem_append.mpr ⟨hd.known, hk.known⟩
  records := List.forall_mem_append.mpr ⟨hd.records, hk.records⟩

lemma Knowledge.NamedBy.accumulate {k : Knowledge} {ds : List Knowledge} (hk : k.NamedBy P)
    (hds : ∀ d ∈ ds, d.NamedBy P) : (k.accumulate ds).NamedBy P := by
  induction ds generalizing k with
  | nil => exact hk
  | cons d ds ih =>
    rw [List.forall_mem_cons] at hds
    exact ih (hds.1.append hk) hds.2

lemma Knowledge.NamedBy.typeOf {k : Knowledge} {declared : List (String × TensorType)}
    (hk : k.NamedBy P) (hdeclared : EntriesNamedBy P declared) (name : String) :
    (k.typeOf declared name).NamedBy P := by
  unfold Knowledge.typeOf
  cases hknown : k.known.lookup name with
  | some t => exact hk.known _ (mem_of_lookup_eq_some hknown)
  | none =>
    cases hlookup : declared.lookup name with
    | some t => exact hdeclared _ (mem_of_lookup_eq_some hlookup)
    | none => exact TensorType.namedBy_unknown

lemma namedBy_addType {declared : List (String × TensorType)}
    (hdeclared : EntriesNamedBy P declared) (n : Node) {name : String} {type : TensorType}
    (htype : type.NamedBy P) : (addType declared n nothing (name, type)).NamedBy P := by
  rcases addType_cases declared n name type with ⟨_, h⟩ | ⟨_, haccepted | hconflict⟩
  · rw [h]
    exact namedBy_of_eq_nil rfl rfl
  · obtain ⟨accepted, hfrom, h⟩ := haccepted
    have hnamed : accepted.NamedBy P := by
      rcases hfrom with ⟨_, rfl⟩ | ⟨d, hd, hmerge⟩
      · exact htype
      · exact TensorType.namedBy_merge (hdeclared _ (mem_of_lookup_eq_some hd)) htype hmerge
    rw [h]
    exact ⟨List.forall_mem_singleton.mpr hnamed, List.forall_mem_singleton.mpr hnamed⟩
  · obtain ⟨d, _, hd, _, h⟩ := hconflict
    rw [h]
    exact ⟨List.forall_mem_singleton.mpr (hdeclared _ (mem_of_lookup_eq_some hd)), by simp⟩

lemma namedBy_learn {declared : List (String × TensorType)}
    (hdeclared : EntriesNamedBy P declared) {n : Node} {answer : NodeAnswer} {d : Knowledge}
    (hanswer : Ensures (fun p => TypesNamedBy P p.1) answer) (h : learn declared n answer = .ok d) :
    d.NamedBy P := by
  rcases learn_cases h with ⟨reason, rfl⟩ | ⟨types, values, rfl, rfl⟩
  · exact namedBy_of_eq_nil rfl rfl
  · obtain ⟨constants, hconstants, _⟩ := exists_nothing_addConstants_eq n values
    rw [hconstants]
    refine NamedBy.accumulate (namedBy_of_eq_nil rfl rfl) fun d hd => ?_
    obtain ⟨⟨name, type⟩, hmem, rfl⟩ := List.mem_map.mp hd
    exact namedBy_addType hdeclared n (hanswer _ rfl type (List.of_mem_zip hmem).2)

lemma ensures_askRule {c : Context} (hc : c.NamedBy P) :
    Ensures (fun p => TypesNamedBy P p.1) (askRule .builtin c) := by
  unfold askRule
  dsimp only
  split
  · exact .error _
  · cases hrule : Registry.builtin.rule? c.node.op with
    | none => exact .error _
    | some rule =>
      have hkeeps := Registry.builtin_keepsNames _ (Registry.mem_of_rule? hrule) P c hc
      exact hkeeps.map fun _ htypes => htypes

namespace Graph

variable {g : Graph}

/-- A graph that declares no names for extents but some that have the property. -/
def NamedBy (P : String → Prop) (g : Graph) : Prop :=
  ∀ v ∈ g.inputs ++ g.outputs ++ g.valueInfo, v.type.NamedBy P

lemma NamedBy.declaredTypes (hg : g.NamedBy P) : EntriesNamedBy P g.declaredTypes := by
  intro e he
  obtain ⟨v, hv, rfl⟩ := List.mem_map.mp (List.mem_reverse.mp he)
  refine hg v ?_
  rw [List.append_assoc]
  exact List.mem_append_right g.inputs (List.mem_filter.mp hv).1

lemma NamedBy.valueType? (hg : g.NamedBy P) {name : String} {t : TensorType}
    (h : g.valueType? name = some t) : t.NamedBy P := by
  unfold Graph.valueType? at h
  split at h
  · rename_i v hv
    obtain rfl := Option.some.inj h
    exact hg v (List.mem_of_find?_eq_some hv)
  · split at h
    · obtain ⟨c, _, rfl⟩ := Option.map_eq_some_iff.mp h
      exact TensorType.namedBy_some (Shape.namedBy_ofExtents _)
    · obtain ⟨c, _, rfl⟩ := Option.map_eq_some_iff.mp h
      intro s hs
      obtain ⟨_, _, rfl⟩ := Option.map_eq_some_iff.mp hs
      exact Shape.namedBy_ofExtents _
    · cases h

lemma NamedBy.initialKnowledge (hg : g.NamedBy P) : g.initialKnowledge.NamedBy P where
  known e he := by
    rw [Graph.initialKnowledge, List.mem_reverse, List.mem_append, List.mem_append, List.mem_map,
      List.mem_map, List.mem_filterMap] at he
    rcases he with (⟨v, hv, rfl⟩ | ⟨t, _, rfl⟩) | ⟨s, _, hs⟩
    · exact hg v (List.mem_append_left _ (List.mem_append_left _ hv))
    · exact TensorType.namedBy_some (Shape.namedBy_ofExtents _)
    · unfold sparseType? at hs
      split at hs
      · cases hs
      · obtain ⟨t, ht, rfl⟩ := Option.map_eq_some_iff.mp hs
        exact hg.valueType? ht
  records := by simp [Graph.initialKnowledge]

lemma ensures_passNode {declared : List (String × TensorType)} {opset : Int} {k : Knowledge}
    (hdeclared : EntriesNamedBy P declared) (hk : k.NamedBy P) (n : Node) :
    Ensures (Knowledge.NamedBy P) (passNode .builtin opset g declared k n) := by
  have hoperands : Context.NamedBy P
      { node := n, operands := n.inputs.map (k.operand? g declared), opset } := by
    intro o ho
    obtain ⟨name, _, hname⟩ := List.mem_map.mp ho
    unfold operand? at hname
    split_ifs at hname
    obtain rfl := Option.some.inj hname
    exact hk.typeOf hdeclared name
  rw [passNode_eq_map_gain]
  intro k' hk'
  obtain ⟨d, hd, rfl⟩ := map_eq_ok_iff.mp hk'
  exact (namedBy_learn hdeclared (ensures_askRule hoperands) hd).append hk

lemma ensures_passNodes (hg : g.NamedBy P) (opset : Int) :
    Ensures (Knowledge.NamedBy P) (passNodes .builtin opset g) :=
  Ensures.foldlM (fun _ hk n _ => ensures_passNode hg.declaredTypes hk n) hg.initialKnowledge

end Graph

end TensorGraph
