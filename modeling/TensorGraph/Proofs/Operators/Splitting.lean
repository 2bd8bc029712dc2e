import Mathlib.Algebra.BigOperators.Ring.Finset
import Mathlib.Algebra.Order.BigOperators.Group.List
import Mathlib.Algebra.Order.Group.Nat
import Mathlib.Data.Set.List
import TensorGraph.Proofs.GivingUp
import TensorGraph.Proofs.Operators.ElementCount

/-!
# Splitting

A split has one part for each result, and outside of its axis all parts are like the data. Equal
parts make up the axis. Sizes that are given make it up only if they happen to: they are not
compared with the axis.
-/

namespace TensorGraph

/-- The sizes that a split is given, if there are any, cover its axis. -/
def Context.PartsCover (c : Context) (extent : Nat) : Prop :=
  ∀ sizes, c.intsOperand "split" 1 Rule.splitOperandVersion = .ok (some sizes) →
    sizes.sum = extent

/-- A split along an axis of known extent, with at least one result. -/
structure Context.SplitsAxis (c : Context) (s : Shape) (position extent : Nat) : Prop where
  hasShape : c.shapeAt 0 = .ok s
  hasAxis : axisIn s.rank (c.int "axis" 0) = .ok position
  isKnown : s.dims[position]? = some (.known extent)
  hasResults : c.node.outputs ≠ []

namespace Rule

variable {c : Context} {s : Shape} {position extent count : Nat}

/-! ### Equal parts -/

lemma sum_chunks (extent chunk count : Nat) :
    ((List.range count).map fun i => min chunk (extent - i * chunk)).sum =
      min extent (count * chunk) := by
  induction count with
  | zero => simp
  | succ count ih =>
    rw [List.range_succ, List.map_append, List.sum_append, ih, Nat.succ_mul, List.map_singleton,
      List.sum_singleton]
    omega

lemma le_mul_chunkOf (extent : Nat) (hcount : 0 < count) :
    extent ≤ count * chunkOf extent count := by
  have hdivision := Nat.div_add_mod (extent + count - 1) count
  have hrest := Nat.mod_lt (extent + count - 1) hcount
  unfold chunkOf
  omega

lemma sum_evenParts {parts : List Nat} (hcount : 0 < count)
    (h : evenParts extent count = .ok parts) : parts.length = count ∧ parts.sum = extent := by
  obtain ⟨-, rfl⟩ := evenParts_eq_ok_iff.mp h
  refine ⟨by simp, ?_⟩
  rw [sum_chunks]
  exact Nat.min_eq_left (le_mul_chunkOf extent hcount)

/-! ### The rule -/

lemma extentOf_eq_known_iff {name : String} {v : Int} {n : Nat} :
    extentOf name v = .ok (.known n) ↔ v = n := by
  unfold extentOf
  split_ifs with hnegative
  · refine iff_of_false nofun ?_
    omega
  · rw [Except.ok.injEq, Dim.known.injEq]
    omega

/-- Parts whose extents are known are the sizes that are given, or they are equal. -/
lemma known_splitParts {parts : List Nat} (hcount : 0 < count)
    (h : splitParts c (.known extent) count = .ok (parts.map .known)) :
    parts.length = count ∧
      (c.intsOperand "split" 1 splitOperandVersion = .ok (some (parts.map Nat.cast)) ∨
        c.intsOperand "split" 1 splitOperandVersion = .ok none ∧
          evenParts extent count = .ok parts) := by
  unfold splitParts at h
  split at h
  · -- The sizes are not known, so that no part is.
    have hmem : Dim.unknown ∈ parts.map Dim.known := by
      rw [← Except.ok.inj h]
      exact List.mem_replicate.mpr ⟨Nat.pos_iff_ne_zero.mp hcount, rfl⟩
    simp at hmem
  · rename_i sizes hsizes
    split_ifs at h with hlength
    rw [mapM_eq_ok_iff, List.forall₂_map_right_iff] at h
    simp only [extentOf_eq_known_iff] at h
    have heq : sizes = parts.map Nat.cast := by
      rw [← List.forall₂_eq_eq_eq, List.forall₂_map_right_iff]
      exact h
    exact ⟨h.length_eq.symm.trans (not_not.mp hlength), .inl (heq ▸ hsizes)⟩
  · rename_i hnone
    obtain ⟨even, heven, hparts⟩ := map_eq_ok_iff.mp h
    obtain rfl := ofExtents_injective hparts
    exact ⟨(sum_evenParts hcount heven).1, .inr ⟨hnone, heven⟩⟩

/-- The part of a split with so many positions. -/
def partType (c : Context) (s : Shape) (position n : Nat) : TensorType :=
  c.withElem 0 ⟨s.dims.set position (.known n)⟩

lemma exists_parts_of_split (hc : c.SplitsAxis s position extent) {types : List TensorType}
    (h : split c = .ok types)
    (hknown : ∀ t ∈ types, ∃ s', t.shape? = some s' ∧ ∃ n, s'.dims[position]? = some (.known n)) :
    ∃ parts : List Nat, types = parts.map (partType c s position) ∧
      splitParts c (.known extent) c.node.outputs.length = .ok (parts.map .known) := by
  have hresults : c.node.outputs.isEmpty = false := by
    simpa [List.isEmpty_iff] using hc.hasResults
  unfold split at h
  rw [hc.hasShape] at h
  change (axisIn s.rank (c.int "axis" 0) >>= _) = _ at h
  rw [hc.hasAxis] at h
  change (if c.node.outputs.isEmpty then _ else _) = _ at h
  rw [hresults, if_neg Bool.false_ne_true, hc.isKnown, Option.getD_some] at h
  obtain ⟨dims, hdims, h⟩ := bind_eq_ok_iff.mp h
  obtain rfl := Except.ok.inj h
  have hlt : position < s.dims.length := (List.getElem?_eq_some_iff.mp hc.isKnown).1
  have hall : ∀ d ∈ dims, d ∈ Set.range Dim.known := by
    intro d hd
    obtain ⟨s', hs', n, hn⟩ := hknown _ (List.mem_map_of_mem hd)
    obtain rfl := Option.some.inj hs'
    rw [List.getElem?_set_self hlt] at hn
    exact ⟨n, (Option.some.inj hn).symm⟩
  obtain ⟨parts, rfl⟩ : dims ∈ Set.range (List.map Dim.known) := by
    rw [Set.range_list_map]
    exact hall
  exact ⟨parts, List.map_map, hdims⟩

/-- A split of an axis of known extent whose parts have known extents has one part for each result,
which is like the data outside of the axis. The parts make up the axis exactly if sizes that are
given do, and always without sizes. -/
theorem split_partitions (hc : c.SplitsAxis s position extent) {types : List TensorType}
    (h : split c = .ok types)
    (hknown : ∀ t ∈ types, ∃ s', t.shape? = some s' ∧ ∃ n, s'.dims[position]? = some (.known n)) :
    ∃ parts : List Nat, parts.length = c.node.outputs.length ∧
      types = parts.map (partType c s position) ∧
      (parts.sum = extent ↔ c.PartsCover extent) ∧
      (c.intsOperand "split" 1 splitOperandVersion = .ok none → parts.sum = extent) := by
  obtain ⟨parts, htypes, hparts⟩ := exists_parts_of_split hc h hknown
  have hcount : 0 < c.node.outputs.length := List.length_pos_iff.mpr hc.hasResults
  obtain ⟨hlength, hsizes | ⟨hnone, heven⟩⟩ := known_splitParts hcount hparts
  · have hsum : (parts.map Nat.cast).sum = (parts.sum : Int) := (Nat.cast_list_sum parts).symm
    refine ⟨parts, hlength, htypes, ⟨fun h sizes h' => ?_, fun h => ?_⟩, fun hnone => ?_⟩
    · obtain rfl := Option.some.inj (Except.ok.inj (hsizes.symm.trans h'))
      rw [hsum, h]
    · exact Int.ofNat_inj.mp (hsum.symm.trans (h _ hsizes))
    · rw [hsizes] at hnone
      cases hnone
  · obtain ⟨-, hsum⟩ := sum_evenParts hcount heven
    refine ⟨parts, hlength, htypes, iff_of_true hsum fun sizes h' => ?_, fun _ => hsum⟩
    rw [hnone] at h'
    cases h'

/-- Seven positions in three parts, the last one smaller. -/
theorem split_partitions_seven :
    let c : Context :=
      ⟨{ op := "Split", inputs := ["x"], outputs := ["a", "b", "c"],
          attributes := { entries := [("axis", .int (-1))] } },
        [some ⟨.of .float (.ofExtents [2, 7]), none⟩], 13⟩
    let types := [3, 3, 1].map fun n => TensorType.of .float (.ofExtents [2, n])
    c.SplitsAxis (.ofExtents [2, 7]) 1 7 ∧ split c = .ok types ∧ c.PartsCover 7 ∧
      ∃ parts : List Nat, types = parts.map (partType c (.ofExtents [2, 7]) 1) ∧
        parts.sum = 7 := by
  intro c types
  have hc : c.SplitsAxis (.ofExtents [2, 7]) 1 7 := ⟨by decide, by decide, rfl, nofun⟩
  have h : split c = .ok types := by decide
  obtain ⟨parts, -, htypes, hiff, heven⟩ := split_partitions hc h fun t ht => by
    obtain ⟨n, -, rfl⟩ := List.mem_map.mp ht
    exact ⟨_, rfl, n, rfl⟩
  have hsum := heven rfl
  exact ⟨hc, h, hiff.mp hsum, parts, htypes, hsum⟩

/-- Two sizes that leave half of the axis over. -/
theorem split_leaves_half :
    let c : Context :=
      ⟨{ op := "Split", inputs := ["x", "s"], outputs := ["a", "b"] },
        [some ⟨.of .float (.ofExtents [4]), none⟩,
          some ⟨.of .int64 (.ofExtents [2]), some (.ofIntegers "s" [2] [1, 1])⟩], 13⟩
    c.SplitsAxis (.ofExtents [4]) 0 4 ∧ ¬c.PartsCover 4 ∧
      split c = .ok ([1, 1].map (partType c (.ofExtents [4]) 0)) ∧ [1, 1].sum ≠ 4 := by
  intro c
  have hsizes : c.intsOperand "split" 1 splitOperandVersion = .ok (some [1, 1]) := by decide
  refine ⟨⟨by decide, by decide, rfl, nofun⟩, fun h => ?_, by decide, by decide⟩
  exact absurd (h _ hsizes) (by decide)

end Rule

end TensorGraph
