import Mathlib.Data.List.Induction
import TensorGraph.Proofs.Validation

/-!
# When a model is valid

Each of the five checks of a model is said as a property of its lists. A model is valid exactly if
it passes all five, and a violation that is reported belongs to the first one it does not pass.
-/

namespace TensorGraph

/-! ### Signatures -/

lemma usedCount_le_iff {names : List String} {k : Nat} :
    Signature.usedCount names ≤ k ↔ ∀ name ∈ names.drop k, name = "" := by
  unfold Signature.usedCount
  induction names using List.reverseRecOn with
  | nil => simp
  | append_singleton names last ih =>
    rw [List.reverse_append, List.reverse_singleton, List.singleton_append, List.drop_append,
      List.forall_mem_append]
    by_cases hlast : last = ""
    · subst hlast
      have hempty : ∀ name ∈ List.drop (k - names.length) [""], name = "" :=
        fun name hname => List.mem_singleton.mp (List.mem_of_mem_drop hname)
      rw [List.dropWhile_cons_of_pos rfl, ih]
      exact ⟨fun h => ⟨h, hempty⟩, fun h => h.1⟩
    · have hfull : ¬last.isEmpty = true := by simpa using hlast
      rw [List.dropWhile_cons_of_neg hfull, List.length_cons, List.length_reverse]
      constructor
      · intro hle
        rw [List.drop_eq_nil_of_le (by omega), List.drop_eq_nil_of_le (by simp; omega)]
        simp
      · rintro ⟨_, hbehind⟩
        by_contra hlt
        have hzero : k - names.length = 0 := by omega
        rw [hzero] at hbehind
        exact hlast (hbehind last (by simp))

/-- Names that a signature allows on one side of a node: behind the greatest number all are empty,
and as many slots as needed are there and filled, unless they may be left out. -/
structure Count.Admits (c : Count) (optional : List Nat) (names : List String) : Prop where
  atMost : ∀ greatest, c.greatest? = some greatest → ∀ name ∈ names.drop greatest, name = ""
  atLeast : c.least ≤ names.length
  filled : ∀ slot name, slot < c.least → slot ∉ optional → names[slot]? = some name → name ≠ ""

/-- A node that is in line with a signature. -/
structure Signature.Fits (s : Signature) (n : Node) : Prop where
  inputs : s.inputs.Admits s.optionalInputs n.inputs
  outputs : s.outputs.Admits [] n.outputs
  required : ∀ name ∈ s.required, (n.attribute? name).isSome

namespace Signature

lemma find?_slot_eq_none_iff {names : List String} {least : Nat} {optional : List Nat} :
    (((names.take least).zipIdx.find? fun (name, slot) =>
        name.isEmpty && !optional.contains slot) = none) ↔
      ∀ slot name, slot < least → slot ∉ optional → names[slot]? = some name → name ≠ "" := by
  rw [List.find?_eq_none]
  constructor
  · intro h slot name hslot hoptional hname hempty
    have hmem : (name, slot) ∈ (names.take least).zipIdx := by
      rw [List.mem_zipIdx_iff_getElem?, List.getElem?_take_of_lt hslot]
      exact hname
    exact h (name, slot) hmem (by simp [hempty, hoptional])
  · rintro h ⟨name, slot⟩ hmem hbad
    rw [List.mem_zipIdx_iff_getElem?] at hmem
    obtain ⟨hempty, hoptional⟩ : name = "" ∧ slot ∉ optional := by simpa using hbad
    have hlt : slot < least := by
      have hlength := (List.getElem?_eq_some_iff.mp hmem).1
      rw [List.length_take] at hlength
      omega
    rw [List.getElem?_take_of_lt hlt] at hmem
    exact h slot name hlt hoptional hmem hempty

lemma checkNames_eq_ok_iff {side : Side} {names : List String} {c : Count}
    {optional : List Nat} :
    checkNames side names c optional = .ok () ↔ c.Admits optional names := by
  have hatMost : c.greatest?.filter (· < usedCount names) = none ↔
      ∀ greatest, c.greatest? = some greatest → ∀ name ∈ names.drop greatest, name = "" := by
    rw [Option.filter_eq_none_iff]
    refine forall₂_congr fun greatest _ => ?_
    rw [← usedCount_le_iff]
    simp
  unfold checkNames
  dsimp only
  split
  · rename_i greatest hgreatest
    have hnot : ¬c.Admits optional names := fun h => by
      simp [hatMost.mpr h.atMost] at hgreatest
    simp [hnot]
  · rename_i hgreatest
    by_cases hleast : names.length < c.least
    · have hnot : ¬c.Admits optional names := fun h => Nat.not_lt.mpr h.atLeast hleast
      simp [hleast, hnot]
    · rw [if_neg hleast]
      split
      · rename_i slot hslot
        have hnot : ¬c.Admits optional names := by
          intro h
          rw [find?_slot_eq_none_iff.mpr h.filled] at hslot
          cases hslot
        simp [hnot]
      · rename_i hslot
        have hadmits : c.Admits optional names :=
          ⟨hatMost.mp hgreatest, Nat.not_lt.mp hleast, find?_slot_eq_none_iff.mp hslot⟩
        simp [hadmits]

lemma check_eq_ok_iff {s : Signature} {n : Node} : s.check n = .ok () ↔ s.Fits n := by
  have hrequired : (s.required.find? fun name => (n.attribute? name).isNone) = none ↔
      ∀ name ∈ s.required, (n.attribute? name).isSome := by
    rw [List.find?_eq_none]
    refine forall₂_congr fun name _ => ?_
    cases n.attribute? name <;> simp
  unfold check
  rw [andThen_eq_ok_iff, andThen_eq_ok_iff, checkNames_eq_ok_iff, checkNames_eq_ok_iff]
  split
  · rename_i name hname
    have hnot : ¬s.Fits n := fun h => by simp [hrequired.mpr h.required] at hname
    simp [hnot]
  · rename_i hnone
    constructor
    · rintro ⟨hinputs, houtputs, _⟩
      exact ⟨hinputs, houtputs, hrequired.mp hnone⟩
    · intro h
      exact ⟨h.inputs, h.outputs, rfl⟩

end Signature

/-- A node with an operator, in line with the signature of that operator if there is one. -/
structure Node.WellFormed (n : Node) : Prop where
  op : n.op ≠ ""
  signature : n.isDefaultDomain = true → ∀ s, Signature.find? n.op = some s → s.Fits n

namespace GraphParts

lemma checkNode_eq_ok_iff {n : Node} : checkNode n = .ok () ↔ n.WellFormed := by
  unfold checkNode
  by_cases hop : n.op = ""
  · have hnot : ¬n.WellFormed := fun h => h.op hop
    simp [hop, hnot]
  · have hfull : ¬n.op.isEmpty = true := by simpa using hop
    rw [if_neg hfull]
    by_cases hdomain : n.isDefaultDomain = true
    · rw [hdomain, Bool.not_true, if_neg Bool.false_ne_true]
      split
      · rename_i hnone
        have hformed : n.WellFormed := ⟨hop, fun _ s hs => by simp [hnone] at hs⟩
        simp [hformed]
      · rename_i s hs
        rw [mapError_eq_ok_iff, Signature.check_eq_ok_iff]
        constructor
        · intro hfits
          refine ⟨hop, fun _ s' hs' => ?_⟩
          obtain rfl := Option.some.inj (hs.symm.trans hs')
          exact hfits
        · intro h
          exact h.signature hdomain s hs
    · have hformed : n.WellFormed := ⟨hop, fun h => absurd h hdomain⟩
      simp [hdomain, hformed]

/-- Each name is used once: within each list, and for the results of nodes over all of them. -/
structure NamesDistinct (p : GraphParts) : Prop where
  inputs : (p.inputs.map ValueInfo.name).Nodup
  outputs : (p.outputs.map ValueInfo.name).Nodup
  initializers : (p.initializers.map Tensor.name).Nodup
  results : p.ResultsUnique

lemma checkNames_eq_ok_iff_distinct {p : GraphParts} :
    p.checkNames = .ok () ↔ p.NamesDistinct := by
  rw [checkNames_eq_ok_iff]
  constructor
  · intro h
    exact ⟨h.inputs, h.outputs, h.initializers, h.resultsUnique⟩
  · intro h
    exact ⟨h.inputs, h.outputs, h.initializers, h.results.nodup, h.results.unheld⟩

end GraphParts

namespace Model

lemma checkImports_eq_ok_iff {seen : List String} {opsets : List OpsetImport} :
    checkImports seen opsets = .ok () ↔
      (opsets.map fun o => canonicalDomain o.domain).Nodup ∧
        (∀ o ∈ opsets, canonicalDomain o.domain ∉ seen) ∧ ∀ o ∈ opsets, 1 ≤ o.version := by
  induction opsets generalizing seen with
  | nil => simp [checkImports]
  | cons o opsets ih =>
    unfold checkImports
    dsimp only
    rw [List.map_cons, List.nodup_cons, List.forall_mem_cons, List.forall_mem_cons]
    by_cases hseen : canonicalDomain o.domain ∈ seen
    · simp [hseen]
    by_cases hversion : o.version < 1
    · have hnot : ¬1 ≤ o.version := Int64.not_le.mpr hversion
      simp [hseen, hversion, hnot]
    rw [if_neg hseen, if_neg hversion, ih]
    have hpositive : 1 ≤ o.version := Int64.not_lt.mp hversion
    simp only [List.mem_cons, not_or, List.mem_map, not_exists, not_and]
    constructor
    · rintro ⟨hnodup, hfresh, hversions⟩
      exact ⟨⟨fun o' ho' => (hfresh o' ho').1, hnodup⟩,
        ⟨hseen, fun o' ho' => (hfresh o' ho').2⟩, hpositive, hversions⟩
    · rintro ⟨⟨hnew, hnodup⟩, ⟨_, hfresh⟩, _, hversions⟩
      exact ⟨hnodup, fun o' ho' => ⟨hnew o' ho', hfresh o' ho'⟩, hversions⟩

end Model

/-! ### The checks in order -/

/-- The five things that are checked of a model. -/
inductive Check where
  | names | references | nodes | imports | version
deriving DecidableEq, Repr

/-- The checks in the order in which they are made. -/
def Check.inOrder : List Check := [names, references, nodes, imports, version]

/-- The check that a violation belongs to. -/
def Violation.check : Violation → Check
  | duplicateName _ _ => .names
  | duplicateProducer _ _ _ => .names
  | structural _ => .references
  | malformedNode _ _ _ => .nodes
  | opset _ => .imports
  | irVersion _ _ => .version

lemma Check.mem_inOrder (c : Check) : c ∈ Check.inOrder := by
  cases c <;> decide

lemma GraphParts.check_of_checkUnique_error {list : NameList} {names : List String} {v : Violation}
    (h : checkUnique list names = .error v) : v.check = .names := by
  unfold checkUnique at h
  split at h
  · obtain rfl := Except.error.inj h
    rfl
  · cases h

lemma GraphParts.check_of_assignOutputs_error {label : String} {held : List (String × Holder)}
    {names : List String} {v : Violation} (h : assignOutputs label held names = .error v) :
    v.check = .names := by
  induction names generalizing held with
  | nil => cases h
  | cons name names ih =>
    unfold assignOutputs at h
    split at h
    · obtain rfl := Except.error.inj h
      rfl
    · exact ih h

lemma GraphParts.check_of_checkNames_error {p : GraphParts} {v : Violation}
    (h : p.checkNames = .error v) : v.check = .names := by
  unfold checkNames at h
  rcases bind_eq_error_iff.mp h with h | ⟨_, _, h⟩
  · exact check_of_checkUnique_error h
  rcases bind_eq_error_iff.mp h with h | ⟨_, _, h⟩
  · exact check_of_checkUnique_error h
  rcases bind_eq_error_iff.mp h with h | ⟨_, _, h⟩
  · exact check_of_checkUnique_error h
  obtain ⟨held, n, _, hn⟩ := exists_of_foldlM_eq_error (map_eq_error_iff.mp h)
  exact check_of_assignOutputs_error hn

lemma GraphParts.check_of_checkNode_error {n : Node} {v : Violation}
    (h : checkNode n = .error v) : v.check = .nodes := by
  unfold checkNode at h
  split_ifs at h
  · obtain rfl := Except.error.inj h
    rfl
  · split at h
    · cases h
    · obtain ⟨_, _, rfl⟩ := mapError_eq_error_iff.mp h
      rfl

namespace Model

lemma check_of_checkImports_error {seen : List String} {opsets : List OpsetImport} {v : Violation}
    (h : checkImports seen opsets = .error v) : v.check = .imports := by
  induction opsets generalizing seen with
  | nil => cases h
  | cons o opsets ih =>
    unfold checkImports at h
    dsimp only at h
    split_ifs at h
    · obtain rfl := Except.error.inj h
      rfl
    · obtain rfl := Except.error.inj h
      rfl
    · exact ih h

lemma check_of_checkOpsets_error {m : Model} {v : Violation} (h : m.checkOpsets = .error v) :
    v.check = .imports := by
  unfold checkOpsets at h
  rcases bind_eq_error_iff.mp h with h | ⟨_, _, h⟩
  · exact check_of_checkImports_error h
  · split_ifs at h
    · cases h
    · obtain ⟨_, n, _, _, _, hn⟩ := exists_append_of_forM_eq_error h
      dsimp only at hn
      split_ifs at hn
      obtain rfl := Except.error.inj hn
      rfl

lemma check_of_checkVersion_error {m : Model} {range : VersionRange} {v : Violation}
    (h : m.checkVersion range = .error v) : v.check = .version := by
  unfold checkVersion at h
  split_ifs at h
  · obtain rfl := Except.error.inj h
    rfl
  · split at h
    · obtain rfl := Except.error.inj h
      rfl
    · cases h

/-- Makes one check. -/
def run (m : Model) (range : VersionRange) : Check → Except Violation Unit
  | .names => m.graph.checkNames
  | .references => (m.graph.resolve.map fun _ => ()).mapError .structural
  | .nodes => m.graph.nodes.forM GraphParts.checkNode
  | .imports => m.checkOpsets
  | .version => m.checkVersion range

lemma validate_eq_forM_run (m : Model) (range : VersionRange) :
    m.validate range = Check.inOrder.forM (m.run range) := by
  have hpure (x : Except Violation Unit) : (x >>= fun _ => pure ()) = x := by
    cases x <;> rfl
  have hreferences : m.run range .references =
      m.graph.resolve.mapError .structural >>= fun _ => pure () := by
    unfold run
    cases m.graph.resolve <;> rfl
  change _ = (m.run range .names >>= fun _ => m.run range .references >>= fun _ =>
    m.run range .nodes >>= fun _ => m.run range .imports >>= fun _ =>
      m.run range .version >>= fun _ => pure ())
  rw [hpure, hreferences]
  unfold validate
  cases m.graph.resolve <;> rfl

lemma check_of_run_error {m : Model} {range : VersionRange} {c : Check} {v : Violation}
    (h : m.run range c = .error v) : v.check = c := by
  cases c with
  | names => exact GraphParts.check_of_checkNames_error h
  | references =>
    obtain ⟨_, _, rfl⟩ := mapError_eq_error_iff.mp h
    rfl
  | nodes =>
    obtain ⟨_, n, _, _, _, hn⟩ := exists_append_of_forM_eq_error h
    exact GraphParts.check_of_checkNode_error hn
  | imports => exact check_of_checkOpsets_error h
  | version => exact check_of_checkVersion_error h

/-- What each check asks of a model. -/
def Passes (m : Model) (range : VersionRange) : Check → Prop
  | .names => m.graph.NamesDistinct
  | .references => m.graph.NamesResolve ∧ m.graph.Acyclic
  | .nodes => ∀ n ∈ m.graph.nodes, n.WellFormed
  | .imports =>
    (m.opsets.map fun o => canonicalDomain o.domain).Nodup ∧ (∀ o ∈ m.opsets, 1 ≤ o.version) ∧
      m.OpsetsCover
  | .version => range.least ≤ m.irVersion ∧ m.irVersion ≤ range.greatest ∧ m.ConstantsDeclared

lemma run_eq_ok_iff {m : Model} {range : VersionRange} {c : Check} :
    m.run range c = .ok () ↔ m.Passes range c := by
  cases c with
  | names => exact GraphParts.checkNames_eq_ok_iff_distinct
  | references =>
    unfold run Passes
    rw [mapError_eq_ok_iff, map_eq_ok_iff, ← GraphParts.exists_resolve_eq_ok_iff]
    simp
  | nodes => exact forM_eq_ok_iff.trans (forall₂_congr fun _ _ => GraphParts.checkNode_eq_ok_iff)
  | imports =>
    unfold run Passes
    rw [checkOpsets_eq_ok_iff, checkImports_eq_ok_iff]
    simp [and_assoc]
  | version => exact checkVersion_eq_ok_iff

/-- A model is valid exactly if it passes all checks, and otherwise the violation that is reported
is one of the first check that it does not pass. -/
theorem validate_succeeds_iff_and_first_violation (m : Model) (range : VersionRange) :
    (m.validate range = .ok () ↔ ∀ c, m.Passes range c) ∧
      ∀ v, m.validate range = .error v →
        ∃ before behind, Check.inOrder = before ++ v.check :: behind ∧
          (∀ c ∈ before, m.Passes range c) ∧ ¬m.Passes range v.check := by
  rw [validate_eq_forM_run, forM_eq_ok_iff]
  constructor
  · constructor
    · intro h c
      exact run_eq_ok_iff.mp (h c c.mem_inOrder)
    · intro h c _
      exact run_eq_ok_iff.mpr (h c)
  · intro v hv
    obtain ⟨before, c, behind, horder, hbefore, hc⟩ := exists_append_of_forM_eq_error hv
    obtain rfl := check_of_run_error hc
    refine ⟨before, behind, horder, fun b hb => run_eq_ok_iff.mp (hbefore b hb), fun hpasses => ?_⟩
    rw [run_eq_ok_iff.mpr hpasses] at hc
    cases hc

end Model

end TensorGraph
