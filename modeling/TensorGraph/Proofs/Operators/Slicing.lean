import Mathlib.Data.Int.Interval
import TensorGraph.Proofs.Operators.Steps
import TensorGraph.Rule.Extent

/-!
# Slices

A slice visits the indices of an axis from a start on, in steps of one length, as long as they are
before an end. The extent of the result is the number of these indices. They all are indices of the
axis, so the number is no greater than the extent of the axis and needs no rounding to be a word.
-/

namespace TensorGraph.Rule

/-- A bound of a slice as an index; a negative bound counts from the end of the axis once. -/
def indexOfBound (extent : Nat) (bound : Int) : Int := if bound < 0 then bound + extent else bound

/-- The number from `low` to `high` that is nearest to a number; `high` if there are none. -/
def nearestIn (low high v : Int) : Int := min high (max low v)

/-- Where a slice begins: on the axis or, if it runs forwards, perhaps right behind it. -/
def firstIndex (extent : Nat) (start step : Int) : Int :=
  if 0 < step then nearestIn 0 extent (indexOfBound extent start)
  else nearestIn 0 (extent - 1) (indexOfBound extent start)

/-- What a slice does not reach: on the axis or, in the direction of the slice, right outside. -/
def lastIndex (extent : Nat) (stop step : Int) : Int :=
  if 0 < step then nearestIn 0 extent (indexOfBound extent stop)
  else nearestIn (-1) (extent - 1) (indexOfBound extent stop)

/-- The indices that a slice visits. -/
def visitedIndices (extent : Nat) (start stop step : Int) : Set Int :=
  {i | (∃ t : Nat, i = firstIndex extent start step + t * step) ∧
    if 0 < step then i < lastIndex extent stop step else lastIndex extent stop step < i}

/-- How many steps a slice makes before its end, the one at the start among them. -/
def sliceSteps (extent : Nat) (start stop step : Int) : Int :=
  if 0 < step then stepsBelow step (lastIndex extent stop step - firstIndex extent start step)
  else stepsBelow (-step) (firstIndex extent start step - lastIndex extent stop step)

variable {extent : Nat} {start stop step : Int}

lemma mem_visitedIndices_iff (hstep : step ≠ 0) (t : Nat) :
    firstIndex extent start step + t * step ∈ visitedIndices extent start stop step ↔
      t < sliceSteps extent start stop step := by
  have hmem : firstIndex extent start step + t * step ∈ visitedIndices extent start stop step ↔
      if 0 < step then firstIndex extent start step + t * step < lastIndex extent stop step
      else lastIndex extent stop step < firstIndex extent start step + t * step :=
    and_iff_right ⟨t, rfl⟩
  rw [hmem, sliceSteps]
  split_ifs with hpositive
  · rw [← mul_lt_iff_lt_stepsBelow hpositive]
    omega
  · rw [← mul_lt_iff_lt_stepsBelow (by omega), Int.mul_neg]
    omega

lemma encard_visitedIndices (hstep : step ≠ 0) :
    (visitedIndices extent start stop step).encard = (sliceSteps extent start stop step).toNat := by
  have hinjective : Function.Injective fun t : Nat => firstIndex extent start step + t * step := by
    intro t u htu
    have hmul : (t : Int) * step = u * step := Int.add_left_cancel htu
    exact Int.ofNat_inj.mp (Int.eq_of_mul_eq_mul_right hstep hmul)
  rw [← encard_setOf_lt, ← hinjective.encard_image]
  refine congrArg Set.encard (Set.ext fun i => ?_)
  constructor
  · intro hi
    obtain ⟨t, rfl⟩ := hi.1
    exact ⟨t, (mem_visitedIndices_iff hstep t).mp hi, rfl⟩
  · rintro ⟨t, ht, rfl⟩
    exact (mem_visitedIndices_iff hstep t).mpr ht

lemma bounds_of_mem_visitedIndices {i : Int} (h : i ∈ visitedIndices extent start stop step) :
    0 ≤ i ∧ i < extent := by
  obtain ⟨⟨t, rfl⟩, hstop⟩ := h
  unfold firstIndex lastIndex nearestIn at *
  split_ifs at hstop ⊢ with hpositive
  · have hforward : 0 ≤ (t : Int) * step := Int.mul_nonneg (Int.natCast_nonneg t) (by omega)
    exact ⟨by omega, by omega⟩
  · have hbackward : (t : Int) * step ≤ 0 :=
      Int.mul_nonpos_of_nonneg_of_nonpos (Int.natCast_nonneg t) (by omega)
    exact ⟨by omega, by omega⟩

lemma sliceSteps_le (hstep : step ≠ 0) : sliceSteps extent start stop step ≤ extent := by
  have hsubset : visitedIndices extent start stop step ⊆ Set.Ico (0 : Int) extent :=
    fun _ hi => bounds_of_mem_visitedIndices hi
  have hcard : (Set.Ico (0 : Int) extent).encard = extent := by
    rw [← Finset.coe_Ico, Set.encard_coe_eq_coe_finsetCard, Int.card_Ico]
    simp
  have hle := Set.encard_le_encard hsubset
  rw [encard_visitedIndices hstep, hcard, Nat.cast_le] at hle
  omega

lemma sliceLength_eq (hextent : extent ≠ 0) :
    sliceLength extent start stop step = sliceSteps extent start stop step := by
  -- The two ways to clamp a number differ only where no number is in the range.
  have hclamp {low high : Int} (h : low ≤ high) (v : Int) :
      max low (min high v) = nearestIn low high v := by
    unfold nearestIn
    omega
  unfold sliceLength sliceSteps firstIndex lastIndex stepsBelow
  dsimp only
  by_cases hpositive : 0 < step
  · simp only [if_pos hpositive]
    rw [hclamp (by omega), hclamp (by omega)]
    rfl
  · simp only [if_neg hpositive]
    rw [hclamp (by omega), hclamp (by omega), Int.sub_eq_add_neg (b := step)]
    rfl

/-- The extent of a slice is the number of indices that the slice visits. All of them are indices of
the axis, so the extent is no greater than that of the axis. The length that is computed on the way
is a machine word already. -/
theorem sliceExtent_counts_visitedIndices (hextent : extent < wordLimit) (hstep : step ≠ 0) :
    (visitedIndices extent start stop step).encard = sliceExtent extent start stop step ∧
      (∀ i ∈ visitedIndices extent start stop step, 0 ≤ i ∧ i < extent) ∧
      sliceExtent extent start stop step ≤ extent ∧
      (extent ≠ 0 → sliceLength extent start stop step < wordLimit) := by
  have hle : sliceSteps extent start stop step ≤ extent := sliceSteps_le hstep
  have hword : (sliceSteps extent start stop step).toNat < wordLimit := by omega
  have hvalue : sliceExtent extent start stop step =
      (sliceSteps extent start stop step).toNat := by
    unfold sliceExtent
    by_cases hzero : extent = 0
    · rw [if_pos hzero]
      omega
    · rw [if_neg hzero, sliceLength_eq hzero]
      unfold nearestWord
      omega
  refine ⟨?_, fun _ => bounds_of_mem_visitedIndices, ?_, fun hzero => ?_⟩
  · rw [hvalue, encard_visitedIndices hstep]
  · omega
  · rw [sliceLength_eq hzero]
    omega

/-- Backwards in steps of three, from the last of ten indices to the first: 9, 6, 3 and 0. -/
theorem sliceExtent_counts_visitedIndices_backwards :
    10 < wordLimit ∧ (-3 : Int) ≠ 0 ∧
      (visitedIndices 10 (-1) (-9223372036854775808) (-3)).encard = 4 ∧
      ∀ i ∈ visitedIndices 10 (-1) (-9223372036854775808) (-3), 0 ≤ i ∧ i < 10 := by
  have hextent : 10 < wordLimit := by decide
  have hstep : (-3 : Int) ≠ 0 := by decide
  exact ⟨hextent, hstep, (sliceExtent_counts_visitedIndices hextent hstep).1,
    (sliceExtent_counts_visitedIndices hextent hstep).2.1⟩

end TensorGraph.Rule
