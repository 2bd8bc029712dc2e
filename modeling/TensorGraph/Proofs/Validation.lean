import Mathlib.Tactic.Tauto
import TensorGraph.Proofs.Resolution
import TensorGraph.Validity

/-!
# What a valid model is

The checks of a model, one after the other: which lists they accept, said without the order in
which they go through them.
-/

namespace TensorGraph

lemma firstRepeated?_eq_none_iff {seen names : List String} :
    firstRepeated? seen names = none ↔ names.Nodup ∧ ∀ name ∈ names, name ∉ seen := by
  induction names generalizing seen with
  | nil => simp [firstRepeated?]
  | cons name names ih =>
    unfold firstRepeated?
    by_cases hseen : name ∈ seen
    · simp [hseen]
    · rw [if_neg hseen, ih, List.nodup_cons, List.forall_mem_cons]
      constructor
      · rintro ⟨hnodup, hfresh⟩
        have hnot : name ∉ names := fun hmem => hfresh name hmem List.mem_cons_self
        exact ⟨⟨hnot, hnodup⟩, hseen, fun x hx hmem => hfresh x hx (List.mem_cons_of_mem _ hmem)⟩
      · rintro ⟨⟨hnot, hnodup⟩, _, hfresh⟩
        refine ⟨hnodup, fun x hx hmem => ?_⟩
        rcases List.mem_cons.mp hmem with rfl | hmem
        · exact hnot hx
        · exact hfresh x hx hmem

lemma checkUnique_eq_ok_iff {list : NameList} {names : List String} :
    checkUnique list names = .ok () ↔ names.Nodup := by
  have h : firstRepeated? [] names = none ↔ _ := firstRepeated?_eq_none_iff
  unfold checkUnique
  cases hrep : firstRepeated? [] names with
  | none => simpa [hrep] using h.mp hrep
  | some name =>
    have hnot : ¬names.Nodup := fun hnodup => by simp [h.mpr ⟨hnodup, by simp⟩] at hrep
    simp [hnot]

namespace GraphParts

/-- None of these names is held. -/
def Unheld (held : List (String × Holder)) (names : List String) : Prop :=
  ∀ name ∈ names, name ∉ held.map Prod.fst

lemma lookup_eq_none_iff_unheld {held : List (String × Holder)} {name : String} :
    held.lookup name = none ↔ Unheld held [name] := by
  simp only [Unheld, List.lookup_eq_none_iff, List.forall_mem_singleton, List.mem_map, not_exists,
    not_and, bne_iff_ne, ne_eq]
  exact forall₂_congr fun _ _ => not_congr eq_comm

lemma unheld_append_iff (held : List (String × Holder)) (names names' : List String) :
    Unheld held (names ++ names') ↔ Unheld held names ∧ Unheld held names' :=
  List.forall_mem_append

lemma unheld_node_append_iff (held : List (String × Holder)) (names names' : List String) :
    Unheld ((names.map fun name => (name, Holder.node)).reverse ++ held) names' ↔
      (∀ a ∈ names, ∀ b ∈ names', a ≠ b) ∧ Unheld held names' := by
  simp only [Unheld, List.map_append, List.map_reverse, List.map_map, List.mem_append,
    List.mem_reverse, not_or, Function.comp_def, List.map_id', forall_and]
  refine and_congr_left fun _ => ⟨fun h a ha b hb heq => ?_, fun h a ha hmem => ?_⟩
  · exact h b hb (heq ▸ ha)
  · exact h a hmem a ha rfl

lemma assignOutputs_eq_ok_iff {label : String} {held held' : List (String × Holder)}
    {names : List String} :
    assignOutputs label held names = .ok held' ↔
      (names.Nodup ∧ Unheld held names) ∧
        held' = (names.map fun name => (name, Holder.node)).reverse ++ held := by
  induction names generalizing held with
  | nil => simp [assignOutputs, Unheld, eq_comm]
  | cons name names ih =>
    have hcons : Unheld held (name :: names) ↔ Unheld held [name] ∧ Unheld held names :=
      unheld_append_iff held [name] names
    unfold assignOutputs
    rw [List.nodup_cons, hcons]
    cases hlookup : held.lookup name with
    | some holder =>
      have hheld : ¬Unheld held [name] := fun h => by
        simp [lookup_eq_none_iff_unheld.mpr h] at hlookup
      simp [hheld]
    | none =>
      have hnode := unheld_node_append_iff held [name] names
      simp only [List.map_singleton, List.reverse_singleton, List.singleton_append,
        List.forall_mem_singleton] at hnode
      simp only [ih, hnode, lookup_eq_none_iff_unheld.mp hlookup, List.map_cons,
        List.reverse_cons, List.append_assoc, List.singleton_append, true_and]
      have hnot : (∀ b ∈ names, name ≠ b) ↔ name ∉ names :=
        ⟨fun h hmem => h name hmem rfl, fun h b hb heq => h (heq ▸ hb)⟩
      rw [hnot]
      tauto

/-- The results of all nodes that are used. -/
def presentResults (p : GraphParts) : List String := p.nodes.flatMap Node.presentOutputs

lemma foldlM_assignOutputs_eq_ok_iff {nodes : List Node} {held : List (String × Holder)} :
    (∃ held', nodes.foldlM (fun held n => assignOutputs n.label held n.presentOutputs) held =
        .ok held') ↔
      (nodes.flatMap Node.presentOutputs).Nodup ∧
        Unheld held (nodes.flatMap Node.presentOutputs) := by
  induction nodes generalizing held with
  | nil => simp [pure, Except.pure, Unheld]
  | cons n nodes ih =>
    simp only [List.foldlM_cons, bind_eq_ok_iff, assignOutputs_eq_ok_iff, List.flatMap_cons,
      List.nodup_append, unheld_append_iff]
    constructor
    · rintro ⟨held', _, ⟨⟨hnodup, hfresh⟩, rfl⟩, hrest⟩
      obtain ⟨hnodup', hunheld⟩ := ih.mp ⟨held', hrest⟩
      obtain ⟨hdisjoint, hfresh'⟩ := (unheld_node_append_iff _ _ _).mp hunheld
      exact ⟨⟨hnodup, hnodup', hdisjoint⟩, hfresh, hfresh'⟩
    · rintro ⟨⟨hnodup, hnodup', hdisjoint⟩, hfresh, hfresh'⟩
      have hunheld := (unheld_node_append_iff _ _ _).mpr ⟨hdisjoint, hfresh'⟩
      obtain ⟨held', hheld'⟩ := ih.mpr ⟨hnodup', hunheld⟩
      exact ⟨held', _, ⟨⟨hnodup, hfresh⟩, rfl⟩, hheld'⟩

/-- Each name is used once: within each list, and as the result of at most one node, which no input
or constant has. -/
structure NamesUnique (p : GraphParts) : Prop where
  inputs : (p.inputs.map ValueInfo.name).Nodup
  outputs : (p.outputs.map ValueInfo.name).Nodup
  initializers : (p.initializers.map Tensor.name).Nodup
  results : p.presentResults.Nodup
  fresh : Unheld p.holders p.presentResults

lemma checkNames_eq_ok_iff {p : GraphParts} : p.checkNames = .ok () ↔ p.NamesUnique := by
  unfold checkNames checkAssignments
  simp only [andThen_eq_ok_iff, checkUnique_eq_ok_iff, map_eq_ok_iff, and_true]
  rw [foldlM_assignOutputs_eq_ok_iff]
  exact ⟨fun ⟨hi, ho, hc, hr, hf⟩ => ⟨hi, ho, hc, hr, hf⟩,
    fun ⟨hi, ho, hc, hr, hf⟩ => ⟨hi, ho, hc, hr, hf⟩⟩

lemma mem_holders_iff {p : GraphParts} {name : String} :
    name ∈ p.holders.map Prod.fst ↔
      name ∈ p.sparse.map SparseConstant.name ∨ name ∈ p.initializers.map Tensor.name ∨
        name ∈ p.inputs.map ValueInfo.name := by
  simp [holders]

/-- The results of nodes that are used have names of their own: no two results share one, and none
is that of an input or of a constant. -/
structure ResultsUnique (p : GraphParts) : Prop where
  nodup : p.presentResults.Nodup
  notInput : ∀ name ∈ p.presentResults, name ∉ p.inputs.map ValueInfo.name
  notInitializer : ∀ name ∈ p.presentResults, name ∉ p.initializers.map Tensor.name
  notSparse : ∀ name ∈ p.presentResults, name ∉ p.sparse.map SparseConstant.name

lemma ResultsUnique.unheld {p : GraphParts} (h : p.ResultsUnique) :
    Unheld p.holders p.presentResults := by
  intro name hname hheld
  rcases mem_holders_iff.mp hheld with hsparse | hconstant | hinput
  · exact h.notSparse name hname hsparse
  · exact h.notInitializer name hname hconstant
  · exact h.notInput name hname hinput

lemma NamesUnique.resultsUnique {p : GraphParts} (h : p.NamesUnique) : p.ResultsUnique where
  nodup := h.results
  notInput name hname hinput := h.fresh name hname (mem_holders_iff.mpr (.inr (.inr hinput)))
  notInitializer name hname hconstant :=
    h.fresh name hname (mem_holders_iff.mpr (.inr (.inl hconstant)))
  notSparse name hname hsparse := h.fresh name hname (mem_holders_iff.mpr (.inl hsparse))

end GraphParts

namespace Model

/-- The operators of all nodes are imported, or none need to be. -/
def OpsetsCover (m : Model) : Prop :=
  (m.opsets = [] ∧ m.irVersion < opsetsRequiredVersion) ∨
    ∀ n ∈ m.graph.nodes, ∃ o ∈ m.opsets, canonicalDomain o.domain = canonicalDomain n.domain

lemma checkOpsets_eq_ok_iff {m : Model} :
    m.checkOpsets = .ok () ↔ checkImports [] m.opsets = .ok () ∧ m.OpsetsCover := by
  unfold checkOpsets OpsetsCover
  rw [andThen_eq_ok_iff]
  refine and_congr_right fun _ => ?_
  constructor
  · intro h
    split at h
    · rename_i hold
      left
      simpa using hold
    · right
      intro n hn
      have hn' := forM_eq_ok_iff.mp h n hn
      simp only at hn'
      split at hn'
      · rename_i hany
        simpa using hany
      · simp at hn'
  · intro hcover
    split
    · rfl
    · rename_i hnew
      refine forM_eq_ok_iff.mpr fun n hn => ?_
      rcases hcover with hold | hcover
      · exact absurd (by simpa using hold) hnew
      · have hany : (m.opsets.any fun o =>
            canonicalDomain o.domain == canonicalDomain n.domain) = true := by
          simpa using hcover n hn
        simp [hany]

/-- All constants are inputs, or need not be. -/
def ConstantsDeclared (m : Model) : Prop :=
  undeclaredConstantsVersion ≤ m.irVersion ∨
    ∀ t ∈ m.graph.initializers, ∃ v ∈ m.graph.inputs, v.name = t.name

lemma checkVersion_eq_ok_iff {m : Model} {range : VersionRange} :
    m.checkVersion range = .ok () ↔
      range.least ≤ m.irVersion ∧ m.irVersion ≤ range.greatest ∧ m.ConstantsDeclared := by
  unfold checkVersion ConstantsDeclared
  by_cases hlow : m.irVersion < range.least
  · simp [hlow, Int64.not_le.mpr hlow]
  by_cases hhigh : range.greatest < m.irVersion
  · simp [hhigh, Int64.not_le.mpr hhigh]
  have hleast := Int64.not_lt.mp hlow
  have hgreatest := Int64.not_lt.mp hhigh
  by_cases hold : m.irVersion < undeclaredConstantsVersion
  · cases hfind : m.graph.initializers.find?
        fun t => !(m.graph.inputs.any fun v => v.name == t.name) with
    | none =>
      have hall : ∀ t ∈ m.graph.initializers, ∃ v ∈ m.graph.inputs, v.name = t.name := by
        intro t ht
        simpa using List.find?_eq_none.mp hfind t ht
      simp only [hlow, hhigh, hold, decide_false, Bool.or_self, Bool.false_eq_true,
        if_false, if_true, hleast, hgreatest, true_and, true_iff]
      exact .inr hall
    | some t =>
      have hmem := List.mem_of_find?_eq_some hfind
      have hnone := List.find?_some hfind
      have hnot : ¬∀ t ∈ m.graph.initializers, ∃ v ∈ m.graph.inputs, v.name = t.name := by
        intro hall
        obtain ⟨v, hv, hname⟩ := hall t hmem
        simp only [Bool.not_eq_eq_eq_not, Bool.not_true, List.any_eq_false, beq_iff_eq] at hnone
        exact hnone v hv hname
      simp [hlow, hhigh, hold, hnot, Int64.not_le.mpr hold]
  · simp [hlow, hhigh, hold, hleast, hgreatest, Int64.not_lt.mp hold]

lemma validate_eq_ok_iff {m : Model} {range : VersionRange} :
    m.validate range = .ok () ↔
      m.graph.NamesUnique ∧ (∃ r, m.graph.resolve = .ok r) ∧
        (∀ n ∈ m.graph.nodes, GraphParts.checkNode n = .ok ()) ∧ m.checkOpsets = .ok () ∧
        m.checkVersion range = .ok () := by
  unfold validate
  rw [andThen_eq_ok_iff, GraphParts.checkNames_eq_ok_iff, bind_eq_ok_iff]
  simp only [andThen_eq_ok_iff, mapError_eq_ok_iff, forM_eq_ok_iff, exists_and_right]

end Model

end TensorGraph
