import Mathlib.Logic.Relation
import TensorGraph.Proofs.Placing

/-!
# Correctness of the dependency order

An arrangement is a list of positions that grows at its end, by positions whose dependencies it
already has. The search keeps its list arranged, and where it gives up some value is taken from a
position that depends on its taker. So a list comes out exactly if nothing depends on itself.
-/

namespace TensorGraph.Order
open Relation

variable {dependencies : Array (List Dependency)}

/-- The position `i` takes the given value from the position `j`. -/
def Takes (dependencies : Array (List Dependency)) (i j : Nat) (value : String) : Prop :=
  ∃ ds, dependencies[i]? = some ds ∧ (j, value) ∈ ds

/-- The position `i` takes some value from the position `j`. -/
def Depends (dependencies : Array (List Dependency)) (i j : Nat) : Prop :=
  ∃ value, Takes dependencies i j value

lemma inRange_of_depends (h : ∀ i j, Depends dependencies i j → j < dependencies.size) :
    InRange dependencies := by
  rintro i ⟨j, value⟩ hd
  cases hds : dependencies[i]? with
  | none => simp [hds] at hd
  | some ds => exact h i j ⟨value, ds, hds, by simpa [hds] using hd⟩

/-- Some value is taken from a position that depends on its taker. -/
def ClosesCycle (dependencies : Array (List Dependency)) (value : String) : Prop :=
  ∃ i j, Takes dependencies i j value ∧ ReflTransGen (Depends dependencies) j i

lemma ClosesCycle.transGen {value : String} (h : ClosesCycle dependencies value) :
    ∃ i, TransGen (Depends dependencies) i i := by
  obtain ⟨i, j, htake, hback⟩ := h
  exact ⟨i, TransGen.head' ⟨value, htake⟩ hback⟩

/-- A list that grows by positions whose dependencies it already has. -/
inductive Arranged (dependencies : Array (List Dependency)) : List Nat → Prop
  | nil : Arranged dependencies []
  | snoc {placed : List Nat} {n : Nat} (harr : Arranged dependencies placed)
      (hlt : n < dependencies.size) (hnew : n ∉ placed)
      (hdeps : ∀ j, Depends dependencies n j → j < dependencies.size → j ∈ placed) :
      Arranged dependencies (placed ++ [n])

namespace Arranged

lemma nodup {placed : List Nat} (h : Arranged dependencies placed) : placed.Nodup := by
  induction h with
  | nil => exact List.nodup_nil
  | snoc _ _ hnew _ ih =>
    refine List.nodup_append.mpr ⟨ih, by simp, ?_⟩
    intro a ha b hb
    obtain rfl := List.mem_singleton.mp hb
    exact fun heq => hnew (heq ▸ ha)

lemma lt_size {placed : List Nat} (h : Arranged dependencies placed) {n : Nat} (hn : n ∈ placed) :
    n < dependencies.size := by
  induction h with
  | nil => simp at hn
  | snoc _ hlt _ _ ih =>
    rcases List.mem_append.mp hn with hn | hn
    · exact ih hn
    · exact List.mem_singleton.mp hn ▸ hlt

/-- In an arrangement every position stands behind those it depends on. -/
lemma idxOf_lt {placed : List Nat} (h : Arranged dependencies placed) {i j : Nat}
    (hi : i ∈ placed) (hdep : Depends dependencies i j) (hj : j < dependencies.size) :
    placed.idxOf j < placed.idxOf i := by
  induction h with
  | nil => simp at hi
  | @snoc placed n _ _ hnew hdeps ih =>
    by_cases hold : i ∈ placed
    · have hlt := ih hold
      have hjold : j ∈ placed := by
        refine List.idxOf_lt_length_iff.mp ?_
        have := List.idxOf_lt_length_iff.mpr hold
        omega
      rwa [List.idxOf_append, List.idxOf_append, if_pos hold, if_pos hjold]
    · have heq : i = n := by simpa [hold] using hi
      subst heq
      have hjold := hdeps j hdep hj
      rw [List.idxOf_append, List.idxOf_append, if_pos hjold, if_neg hold]
      have := List.idxOf_lt_length_iff.mpr hjold
      omega

end Arranged

/-- What placing positions does to an arrangement: it stays one, keeps its beginning, and takes in
none of the positions that wait. -/
structure Extends (dependencies : Array (List Dependency)) (path placed placed' : List Nat) :
    Prop where
  arranged : Arranged dependencies placed'
  subset : placed ⊆ placed'
  waiting : ∀ p ∈ path, p ∉ placed'

lemma place_extends_and_placeAll_extends (dependencies : Array (List Dependency)) :
    (∀ (path placed : List Nat) (n : Nat) (placed' : List Nat),
      Arranged dependencies placed → (∀ p ∈ path, p ∉ placed) →
      place dependencies path placed n = .ok placed' →
      Extends dependencies path placed placed' ∧
        (n < dependencies.size → n ∉ path → n ∈ placed')) ∧
    (∀ (path placed : List Nat) (ds : List Dependency) (placed' : List Nat),
      Arranged dependencies placed → (∀ p ∈ path, p ∉ placed) →
      placeAll dependencies path placed ds = .ok placed' →
      Extends dependencies path placed placed' ∧
        ∀ d ∈ ds, d.1 < dependencies.size → d.1 ∈ placed') := by
  -- the two functions call each other, so both halves go by the induction that they share
  apply place.mutual_induct
  case case1 =>
    intro path placed n hmem placed' harr hwait h
    rw [place, if_pos hmem] at h
    obtain rfl := Except.ok.inj h
    exact ⟨⟨harr, List.Subset.refl _, hwait⟩, fun _ _ => hmem⟩
  case case2 =>
    intro path placed n hnew hn ih placed' harr hwait h
    rw [place, if_neg hnew, dif_pos hn] at h
    cases hall : placeAll dependencies (n :: path) placed dependencies[n] with
    | error value => simp [hall, Except.map] at h
    | ok middle =>
      obtain rfl : middle ++ [n] = placed' := by simpa [hall, Except.map] using h
      have hwait' : ∀ p ∈ n :: path, p ∉ placed := by
        intro p hp
        rcases List.mem_cons.mp hp with rfl | hp
        · exact hnew
        · exact hwait p hp
      obtain ⟨⟨harr', hsub, hwait''⟩, hdone⟩ := ih middle harr hwait' hall
      have hsnoc : Arranged dependencies (middle ++ [n]) := by
        refine harr'.snoc hn.1 (hwait'' n (by simp)) ?_
        rintro j ⟨value, ds, hds, hmem⟩ hj
        rw [Array.getElem?_eq_getElem hn.1] at hds
        exact hdone (j, value) (Option.some.inj hds ▸ hmem) hj
      refine ⟨⟨hsnoc, List.Subset.trans hsub (List.subset_append_left _ _), ?_⟩, fun _ _ => by simp⟩
      intro p hp hmem
      rcases List.mem_append.mp hmem with hmem | hmem
      · exact hwait'' p (List.mem_cons_of_mem _ hp) hmem
      · exact hn.2 (List.mem_singleton.mp hmem ▸ hp)
  case case3 =>
    intro path placed n hnew hn placed' harr hwait h
    rw [place, if_neg hnew, dif_neg hn] at h
    obtain rfl := Except.ok.inj h
    exact ⟨⟨harr, List.Subset.refl _, hwait⟩, fun hlt hpath => absurd ⟨hlt, hpath⟩ hn⟩
  case case4 =>
    intro path placed placed' harr hwait h
    rw [placeAll] at h
    obtain rfl := Except.ok.inj h
    exact ⟨⟨harr, List.Subset.refl _, hwait⟩, by simp⟩
  case case5 =>
    intro path placed n value rest hpath placed' harr hwait h
    simp [placeAll, hpath] at h
  case case6 =>
    intro path placed n value rest hpath middle hplace ihplace ihrest placed' harr hwait h
    rw [placeAll, if_neg hpath, hplace] at h
    obtain ⟨⟨harr', hsub, hwait'⟩, hdone⟩ := ihplace middle harr hwait hplace
    obtain ⟨⟨harr'', hsub', hwait''⟩, hdone'⟩ := ihrest placed' harr' hwait' h
    refine ⟨⟨harr'', List.Subset.trans hsub hsub', hwait''⟩, ?_⟩
    intro d hd hlt
    rcases List.mem_cons.mp hd with rfl | hd
    · exact hsub' (hdone hlt hpath)
    · exact hdone' d hd hlt
  case case7 =>
    intro path placed n value rest hpath value' hplace _ placed' _ _ h
    simp [placeAll, hpath, hplace] at h

lemma place_error_and_placeAll_error (dependencies : Array (List Dependency)) :
    (∀ (path placed : List Nat) (n : Nat) (value : String),
      (∀ p ∈ path, ReflTransGen (Depends dependencies) p n) →
      place dependencies path placed n = .error value → ClosesCycle dependencies value) ∧
    (∀ (path placed : List Nat) (ds : List Dependency) (i : Nat) (value : String),
      (∀ d ∈ ds, Takes dependencies i d.1 d.2) →
      (∀ p ∈ path, ReflTransGen (Depends dependencies) p i) →
      placeAll dependencies path placed ds = .error value → ClosesCycle dependencies value) := by
  apply place.mutual_induct
  case case1 =>
    intro path placed n hmem value _ h
    simp [place, hmem] at h
  case case2 =>
    intro path placed n hnew hn ih value hpath h
    rw [place, if_neg hnew, dif_pos hn] at h
    cases hall : placeAll dependencies (n :: path) placed dependencies[n] with
    | ok middle => simp [hall, Except.map] at h
    | error value' =>
      obtain rfl : value' = value := by simpa [hall, Except.map] using h
      refine ih n value' ?_ ?_ hall
      · exact fun d hd => ⟨_, Array.getElem?_eq_getElem hn.1, hd⟩
      · intro p hp
        rcases List.mem_cons.mp hp with rfl | hp
        · exact ReflTransGen.refl
        · exact hpath p hp
  case case3 =>
    intro path placed n hnew hn value _ h
    simp [place, hnew, hn] at h
  case case4 =>
    intro path placed i value _ _ h
    simp [placeAll] at h
  case case5 =>
    intro path placed n value rest hmem i value' htakes hpath h
    rw [placeAll, if_pos hmem] at h
    obtain rfl := Except.error.inj h
    exact ⟨i, n, htakes (n, value) (by simp), hpath n hmem⟩
  case case6 =>
    intro path placed n value rest hmem middle hplace _ ihrest i value' htakes hpath h
    rw [placeAll, if_neg hmem, hplace] at h
    exact ihrest i value' (fun d hd => htakes d (List.mem_cons_of_mem _ hd)) hpath h
  case case7 =>
    intro path placed n value rest hmem value' hplace ih i value'' htakes hpath h
    rw [placeAll, if_neg hmem, hplace] at h
    obtain rfl := Except.error.inj h
    refine ih value' (fun p hp => (hpath p hp).tail ?_) hplace
    exact ⟨value, htakes (n, value) (by simp)⟩

/-- Placing one more position of the outer loop. -/
lemma foldlM_place_ok {ns placed placed' : List Nat} (harr : Arranged dependencies placed)
    (h : ns.foldlM (place dependencies []) placed = .ok placed') :
    Arranged dependencies placed' ∧ placed ⊆ placed' ∧
      ∀ n ∈ ns, n < dependencies.size → n ∈ placed' := by
  induction ns generalizing placed with
  | nil =>
    obtain rfl := Except.ok.inj h
    exact ⟨harr, List.Subset.refl _, by simp⟩
  | cons n ns ih =>
    rw [List.foldlM_cons] at h
    cases hplace : place dependencies [] placed n with
    | error value => simp [hplace, bind, Except.bind] at h
    | ok middle =>
      obtain ⟨⟨harr', hsub, _⟩, hdone⟩ :=
        (place_extends_and_placeAll_extends dependencies).1 [] placed n middle harr (by simp) hplace
      obtain ⟨harr'', hsub', hdone'⟩ := ih harr' (by simpa [hplace, bind, Except.bind] using h)
      refine ⟨harr'', List.Subset.trans hsub hsub', ?_⟩
      intro m hm hlt
      rcases List.mem_cons.mp hm with rfl | hm
      · exact hsub' (hdone hlt (by simp))
      · exact hdone' m hm hlt

lemma foldlM_place_error {ns placed : List Nat} {value : String}
    (h : ns.foldlM (place dependencies []) placed = .error value) :
    ClosesCycle dependencies value := by
  induction ns generalizing placed with
  | nil => simp [pure, Except.pure] at h
  | cons n ns ih =>
    rw [List.foldlM_cons] at h
    cases hplace : place dependencies [] placed n with
    | error value' =>
      obtain rfl : value' = value := by simpa [hplace, bind, Except.bind] using h
      exact (place_error_and_placeAll_error dependencies).1 [] placed n value' (by simp) hplace
    | ok middle => exact ih (by simpa [hplace, bind, Except.bind] using h)

/-- A value that is reported closes a cycle. -/
lemma closesCycle_of_sort {value : String} (h : sort dependencies = .error value) :
    ClosesCycle dependencies value :=
  foldlM_place_error h

lemma sort_perm {order : List Nat} (h : sort dependencies = .ok order) :
    order.Perm (List.range dependencies.size) := by
  obtain ⟨harr, _, hdone⟩ := foldlM_place_ok Arranged.nil h
  refine (List.perm_ext_iff_of_nodup harr.nodup List.nodup_range).mpr fun n => ?_
  rw [List.mem_range]
  exact ⟨harr.lt_size, fun hlt => hdone n (List.mem_range.mpr hlt) hlt⟩

lemma sort_idxOf_lt {order : List Nat} (h : sort dependencies = .ok order) {i j : Nat}
    (hdep : Depends dependencies i j) (hj : j < dependencies.size) :
    order.idxOf j < order.idxOf i := by
  obtain ⟨harr, _, hdone⟩ := foldlM_place_ok Arranged.nil h
  obtain ⟨value, ds, hds, _⟩ := id hdep
  have hi : i < dependencies.size := (Array.getElem?_eq_some_iff.mp hds).1
  exact harr.idxOf_lt (hdone i (List.mem_range.mpr hi) hi) hdep hj

/-- Positions can be ordered exactly if none depends on itself, be it through others. -/
lemma sort_isOk_iff (hbound : ∀ i j, Depends dependencies i j → j < dependencies.size) :
    (∃ order, sort dependencies = .ok order) ↔
      ∀ i, ¬ TransGen (Depends dependencies) i i := by
  constructor
  · rintro ⟨order, h⟩ i hcycle
    have hlt : ∀ k, TransGen (Depends dependencies) i k → order.idxOf k < order.idxOf i := by
      intro k hk
      induction hk with
      | single hdep => exact sort_idxOf_lt h hdep (hbound _ _ hdep)
      | tail _ hdep ih => exact Nat.lt_trans (sort_idxOf_lt h hdep (hbound _ _ hdep)) ih
    exact Nat.lt_irrefl _ (hlt i hcycle)
  · intro hacyclic
    cases h : sort dependencies with
    | ok order => exact ⟨order, rfl⟩
    | error value =>
      obtain ⟨i, hcycle⟩ := (closesCycle_of_sort h).transGen
      exact absurd hcycle (hacyclic i)

end TensorGraph.Order
