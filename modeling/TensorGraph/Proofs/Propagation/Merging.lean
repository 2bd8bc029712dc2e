import Mathlib.Tactic.SplitIfs
import TensorGraph.Proofs.Results
import TensorGraph.TensorType

/-!
# Merging twice

What two descriptions were combined into does not change when the second one is added again, and it
is not empty if that one is not.
-/

namespace TensorGraph

lemma Dim.merge_again {a b c : Dim} (h : a.merge b = some c) : c.merge b = some c := by
  cases a <;> cases b <;> simp only [Dim.merge] at h
  case known.known =>
    split_ifs at h with heq
    obtain rfl := Option.some.inj h
    simp [Dim.merge, heq]
  all_goals
    obtain rfl := Option.some.inj h
    simp [Dim.merge]

lemma Shape.merge_eq_ok_iff {a b c : Shape} :
    a.merge b = .ok c ↔ a.rank = b.rank ∧
      List.Forall₂ (fun xy z => Dim.merge xy.1 xy.2 = some z) (List.zip a.dims b.dims) c.dims := by
  unfold Shape.merge
  by_cases hrank : a.rank = b.rank
  · rw [if_neg (not_not.mpr hrank), ← mapM_eq_some_iff]
    cases List.mapM (fun xy : Dim × Dim => xy.1.merge xy.2) (List.zip a.dims b.dims) with
    | none => simp
    | some dims =>
      obtain ⟨dims'⟩ := c
      simp [hrank]
  · simp [hrank]

lemma forall₂_merge_again {as bs cs : List Dim}
    (h : List.Forall₂ (fun xy z => Dim.merge xy.1 xy.2 = some z) (List.zip as bs) cs) :
    List.Forall₂ (fun xy z => Dim.merge xy.1 xy.2 = some z) (List.zip cs bs) cs := by
  induction as generalizing bs cs with
  | nil =>
    obtain rfl := List.forall₂_nil_left_iff.mp h
    exact .nil
  | cons a as ih =>
    cases bs with
    | nil =>
      obtain rfl := List.forall₂_nil_left_iff.mp h
      exact .nil
    | cons b bs =>
      obtain ⟨c, cs', hc, hcs, rfl⟩ := List.forall₂_cons_left_iff.mp h
      exact .cons (Dim.merge_again hc) (ih hcs)

lemma Shape.merge_again {a b c : Shape} (h : a.merge b = .ok c) : c.merge b = .ok c := by
  rw [Shape.merge_eq_ok_iff] at h ⊢
  obtain ⟨hrank, hdims⟩ := h
  have hlength : c.rank = b.rank := by
    have := hdims.length_eq
    unfold Shape.rank at hrank ⊢
    rw [List.length_zip] at this
    omega
  exact ⟨hlength, forall₂_merge_again hdims⟩

lemma Shape.merge_self (s : Shape) : s.merge s = .ok s := by
  have hunknown (d : Dim) : Dim.unknown.merge d = some d := by
    cases d <;> rfl
  rw [Shape.merge_eq_ok_iff]
  refine ⟨rfl, ?_⟩
  induction s.dims with
  | nil => exact .nil
  | cons d dims ih => exact .cons (Dim.merge_again (hunknown d)) ih

namespace TensorType

lemma mergeElem_again {a b c : Option ElemType} (h : mergeElem a b = .ok c) :
    mergeElem c b = .ok c := by
  cases a <;> cases b <;> simp only [mergeElem] at h
  case some.some =>
    split_ifs at h with heq
    obtain rfl := Except.ok.inj h
    simp [mergeElem, heq]
  all_goals
    obtain rfl := Except.ok.inj h
    simp [mergeElem]

lemma mergeShape_again {a b c : Option Shape} (h : mergeShape a b = .ok c) :
    mergeShape c b = .ok c := by
  cases a <;> cases b <;> simp only [mergeShape, mapError_eq_ok_iff, map_eq_ok_iff] at h
  case some.some =>
    obtain ⟨s, hs, rfl⟩ := h
    simp [mergeShape, Shape.merge_again hs, Except.map, Except.mapError]
  case none.some =>
    obtain rfl := Except.ok.inj h
    simp [mergeShape, Shape.merge_self, Except.map, Except.mapError]
  all_goals
    obtain rfl := Except.ok.inj h
    simp [mergeShape]

lemma merge_eq_ok_iff {a b c : TensorType} :
    a.merge b = .ok c ↔
      mergeElem a.elem? b.elem? = .ok c.elem? ∧ mergeShape a.shape? b.shape? = .ok c.shape? := by
  unfold merge
  simp only [bind_eq_ok_iff, pure, Except.pure]
  constructor
  · rintro ⟨elem?, helem, shape?, hshape, heq⟩
    obtain rfl := Except.ok.inj heq
    exact ⟨helem, hshape⟩
  · rintro ⟨helem, hshape⟩
    exact ⟨_, helem, _, hshape, rfl⟩

lemma merge_again {a b c : TensorType} (h : a.merge b = .ok c) : c.merge b = .ok c := by
  rw [merge_eq_ok_iff] at h ⊢
  exact ⟨mergeElem_again h.1, mergeShape_again h.2⟩

lemma isUnknown_eq_false_of_merge {a b c : TensorType} (h : a.merge b = .ok c)
    (hb : b.isUnknown = false) : c.isUnknown = false := by
  obtain ⟨helem, hshape⟩ := merge_eq_ok_iff.mp (merge_again h)
  obtain ⟨celem, cshape⟩ := c
  obtain ⟨belem, bshape⟩ := b
  cases celem with
  | some e => rfl
  | none =>
    cases cshape with
    | some s => rfl
    | none =>
      -- merging with nothing gives the other part
      obtain rfl : belem = none := Except.ok.inj helem
      obtain rfl : bshape = none := Except.ok.inj hshape
      exact hb

lemma merge_self (a : TensorType) : a.merge a = .ok a := by
  have h : unknown.merge a = .ok a := rfl
  exact merge_again h

end TensorType

end TensorGraph
