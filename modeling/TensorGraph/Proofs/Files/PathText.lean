import Mathlib.Tactic.Lemma
import TensorGraph.Files.Path

/-!
# The text of paths

The segments of a path are what stands between the slashes of its text, and any segments without
slashes are those of a path.
-/

namespace TensorGraph

namespace Text

lemma pieces_eq_splitOn (mark : Char) (cs : List Char) : pieces mark cs = cs.splitOn mark := by
  unfold List.splitOn
  induction cs with
  | nil => rfl
  | cons c cs ih =>
    rw [pieces, List.splitOnP_cons_eq_if_modifyHead, ih]
    by_cases hc : c = mark
    · simp [hc]
    · cases hrest : List.splitOnP (· == mark) cs with
      | nil => exact absurd hrest (List.splitOnP_ne_nil _ _)
      | cons piece rest => simp [hc]

lemma split_intercalate {ss : List String} (hne : ss ≠ []) (h : ∀ s ∈ ss, '/' ∉ s.toList) :
    split '/' ("/".intercalate ss) = ss := by
  have hpieces : List.splitOn '/' (['/'].intercalate (ss.map String.toList)) =
      ss.map String.toList :=
    List.splitOn_intercalate '/' (by simpa using h) (by simpa using hne)
  rw [split, pieces_eq_splitOn, String.toList_intercalate]
  change (List.splitOn '/' (['/'].intercalate _)).map _ = ss
  rw [hpieces, List.map_map]
  simp [Function.comp_def]

lemma intercalate_inj {ss ss' : List String} (hne : ss ≠ []) (hne' : ss' ≠ [])
    (h : ∀ s ∈ ss, '/' ∉ s.toList) (h' : ∀ s ∈ ss', '/' ∉ s.toList)
    (heq : "/".intercalate ss = "/".intercalate ss') : ss = ss' := by
  rw [← split_intercalate hne h, heq, split_intercalate hne' h']

lemma pieces_ne_nil (mark : Char) (cs : List Char) : pieces mark cs ≠ [] := by
  rw [pieces_eq_splitOn]
  exact List.splitOnP_ne_nil _ _

lemma not_mem_of_mem_pieces {mark : Char} {cs piece : List Char} (h : piece ∈ pieces mark cs) :
    mark ∉ piece := by
  induction cs generalizing piece with
  | nil => simp_all [pieces]
  | cons c cs ih =>
    rw [pieces] at h
    by_cases hc : c = mark
    · rw [if_pos hc] at h
      rcases List.mem_cons.mp h with rfl | h
      · exact List.not_mem_nil
      · exact ih h
    · rw [if_neg hc] at h
      split at h
      · rename_i hnil
        exact absurd hnil (pieces_ne_nil mark cs)
      · rename_i first rest hrest
        rcases List.mem_cons.mp h with rfl | h
        · simp [Ne.symm hc, ih (hrest ▸ List.mem_cons_self)]
        · exact ih (hrest ▸ List.mem_cons_of_mem _ h)

end Text

namespace Path

/-- A segment that names something in a folder. -/
structure IsName (segment : String) : Prop where
  ne_empty : segment ≠ ""
  ne_here : segment ≠ "."
  ne_up : segment ≠ ".."

/-- Whether a path can be written down: no segment has a slash in it. -/
structure Writable (p : Path) : Prop where
  ne_nil : p.segments ≠ []
  slashless : ∀ s ∈ p.segments, '/' ∉ s.toList

lemma writable_ofText (s : String) : (ofText s).Writable where
  ne_nil := by simp [ofText, Text.split, Text.pieces_ne_nil]
  slashless := by
    intro segment h
    obtain ⟨piece, hpiece, rfl⟩ := List.mem_map.mp h
    simpa using Text.not_mem_of_mem_pieces hpiece

lemma ofText_text {p : Path} (h : p.Writable) : ofText p.text = p := by
  rw [ofText, text, Text.split_intercalate h.ne_nil h.slashless]

lemma ofText_of_slashless {name : String} (h : '/' ∉ name.toList) : ofText name = ⟨[name]⟩ :=
  ofText_text (p := ⟨[name]⟩) ⟨by simp, by simpa using h⟩

lemma text_isEmpty {p : Path} {s : String} (h : s ∈ p.segments) (hs : s ≠ "") :
    p.text.isEmpty = false := by
  rw [Bool.eq_false_iff, ne_eq, String.isEmpty_iff, text]
  cases hsegments : p.segments with
  | nil => simp [hsegments] at h
  | cons first rest =>
    cases rest with
    | nil =>
      rw [hsegments, List.mem_singleton] at h
      simpa [← h] using hs
    | cons second rest => simp [String.intercalate_cons_cons]

end Path

end TensorGraph
