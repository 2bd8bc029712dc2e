import Mathlib.Data.Set.Card
import Mathlib.Tactic.Lemma

/-!
# Steps of equal length

How many steps of one length stay below a bound, counted from zero on. Slices and windows take their
positions in such steps, and how many there are is found by a division that rounds up.
-/

namespace TensorGraph

/-- How many multiples of a positive number, zero among them, are below a bound; not above zero if
there are none. -/
def stepsBelow (stride bound : Int) : Int := (bound + stride - 1) / stride

variable {stride bound : Int}

lemma mul_lt_iff_lt_stepsBelow (h : 0 < stride) (t : Int) :
    t * stride < bound ↔ t < stepsBelow stride bound := by
  have hle : t + 1 ≤ stepsBelow stride bound ↔ (t + 1) * stride ≤ bound + stride - 1 :=
    Int.le_ediv_iff_mul_le h
  rw [Int.add_mul, Int.one_mul] at hle
  omega

lemma encard_setOf_lt (n : Int) : {t : Nat | (t : Int) < n}.encard = n.toNat := by
  have hset : {t : Nat | (t : Int) < n} = ↑(Finset.range n.toNat) := by
    ext t
    simp
  rw [hset, Set.encard_coe_eq_coe_finsetCard, Finset.card_range]

lemma stepsBelow_add_one (h : 0 < stride) (bound : Int) :
    stepsBelow stride (bound + 1) = bound / stride + 1 := by
  have hdiv : (bound + 1 * stride) / stride = bound / stride + 1 :=
    Int.add_mul_ediv_right bound 1 (by omega)
  rw [← hdiv, stepsBelow]
  congr 1
  omega

lemma stepsBelow_add_stride (h : 0 < stride) (bound : Int) :
    stepsBelow stride (bound + stride) = stepsBelow stride bound + 1 := by
  have hdiv : (bound + stride - 1 + 1 * stride) / stride = (bound + stride - 1) / stride + 1 :=
    Int.add_mul_ediv_right _ 1 (by omega)
  rw [stepsBelow, stepsBelow, ← hdiv]
  congr 1
  omega

lemma encard_steps (h : 0 < stride) (bound : Int) :
    {t : Nat | (t : Int) * stride < bound}.encard = (stepsBelow stride bound).toNat := by
  simp only [mul_lt_iff_lt_stepsBelow h]
  exact encard_setOf_lt _

end TensorGraph
