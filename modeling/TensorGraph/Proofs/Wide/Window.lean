import Mathlib.Tactic.Linarith
import TensorGraph.Proofs.GivingUp
import TensorGraph.Proofs.Wide.Basic

/-!
# Windows in 128 bits

All numbers that convolutions and poolings compute for a window are held by 128 bits: a product of
two machine words is, and so is the little that is added to it. A transposed convolution adds two
such products, one for the steps of the window and one for its reach, and it may leave these bits.
-/

namespace TensorGraph

namespace Wide

/-! ### One axis -/

def reach (w : Rule.AxisWindow) : Wide Int := do
  let gaps ← hold (w.kernel - 1)
  let width ← hold (w.dilation * gaps)
  hold (width + 1)

/-- How often a window of a given reach fits on an axis. -/
def count (w : Rule.AxisWindow) (autoPad : Rule.AutoPad) (ceiling : Bool) (reach : Int)
    (size : Nat) : Wide Int :=
  match autoPad with
  | .same => do
    let overhanging ← hold (size + w.stride)
    let room ← hold (overhanging - 1)
    hold (room / w.stride)
  | .valid => do
    let span ← hold (size - reach)
    let room ← hold (span + w.stride)
    hold (room / w.stride)
  | .notSet => do
    let begun ← hold (size + w.before)
    let padded ← hold (begun + w.behind)
    let span ← hold (padded - reach)
    if span < 0 then return -1
    else if ceiling then
      let overhanging ← hold (span + w.stride)
      let room ← hold (overhanging - 1)
      let steps ← hold (room / w.stride)
      hold (steps + 1)
    else
      let steps ← hold (span / w.stride)
      hold (steps + 1)

def forward (w : Rule.AxisWindow) (autoPad : Rule.AutoPad) (ceiling : Bool) : Dim → Wide Dim
  | .known size => do
    let reach ← reach w
    let count ← count w autoPad ceiling reach size
    if count < 1 then stop (.invalid "kernel_shape" (.doesNotFit reach size))
    else return wordDim count.toNat
  | _ => return .unknown

/-- The extent of an axis over which a window of `size` positions would move. -/
def spread (w : Rule.AxisWindow) (autoPad : Rule.AutoPad) (extra : Int) (size : Nat) : Wide Int :=
  match autoPad with
  | .same => hold (size * w.stride)
  | _ => do
    let pads ← hold (w.before + w.behind)
    let steps ← hold (size - 1)
    let moved ← hold (w.stride * steps)
    let extended ← hold (moved + extra)
    let reach ← reach w
    let covered ← hold (extended + reach)
    hold (covered - pads)

def backward (w : Rule.AxisWindow) (autoPad : Rule.AutoPad) (extra : Int) (axis : Nat) :
    Dim → Wide Dim
  | .known size => do
    let extent ← spread w autoPad extra size
    if extent < 1 then stop (.invalid "pads" (.outputExtent extent axis))
    else return wordDim extent.toNat
  | _ => return .unknown

end Wide

namespace Wide

open Rule

variable {w : AxisWindow} {autoPad : AutoPad} {size : Nat} {extra : Int}

lemma mul_bounds {a b : Int} (ha : 0 ≤ a ∧ a < 2 ^ 63) (hb : 0 ≤ b ∧ b < 2 ^ 64) :
    0 ≤ a * b ∧ a * b ≤ 2 ^ 127 - 2 ^ 64 - 2 ^ 63 + 1 := by
  refine ⟨mul_nonneg ha.1 hb.1, ?_⟩
  calc a * b ≤ (2 ^ 63 - 1) * (2 ^ 64 - 1) :=
        mul_le_mul (by omega) (by omega) hb.1 (by norm_num)
    _ = 2 ^ 127 - 2 ^ 64 - 2 ^ 63 + 1 := by norm_num

lemma div_bounds (lo hi : Int) {v s : Int} (hs : 1 ≤ s) (hlo : lo ≤ v) (hlo' : lo ≤ 0)
    (hhi : v ≤ hi) (hhi' : 0 ≤ hi) : lo ≤ v / s ∧ v / s ≤ hi := by
  constructor
  · refine (Int.le_ediv_iff_mul_le (by omega)).mpr ?_
    nlinarith
  · refine Int.ediv_le_of_le_mul (by omega) ?_
    nlinarith

lemma steps_bounds (hw : w.InWords) (hsize : size < wordLimit) :
    -(2 ^ 63) ≤ (w.stride : Int) * (size - 1) ∧
      (w.stride : Int) * (size - 1) ≤ 2 ^ 127 - 2 ^ 64 - 2 ^ 63 := by
  unfold wordLimit at hsize
  obtain ⟨hpositive, hstride⟩ := hw.stride
  have hproduct := mul_bounds (a := w.stride) (b := size) (by omega) (by omega)
  rw [mul_sub_one]
  omega

lemma reach_bounds (hw : w.InWords) :
    -(2 ^ 63) ≤ w.reach ∧ w.reach ≤ 2 ^ 127 - 2 ^ 64 - 2 ^ 63 + 2 := by
  have hkernel := hw.kernel
  have hdilation := hw.dilation
  unfold wordLimit at hkernel
  have hproduct := mul_bounds (a := w.dilation) (b := w.kernel) (by omega) (by omega)
  rw [AxisWindow.reach, mul_sub_one]
  omega

lemma reach_eq_ok (hw : w.InWords) : reach w = .ok w.reach := by
  have hreach := reach_bounds hw
  have hkernel := hw.kernel
  unfold wordLimit at hkernel
  unfold AxisWindow.reach at hreach ⊢
  unfold reach
  rw [hold_bind ⟨by omega, by omega⟩, hold_bind ⟨by omega, by omega⟩,
    hold_eq_ok ⟨by omega, by omega⟩]

lemma count_eq_ok (hw : w.InWords) (hsize : size < wordLimit) (ceiling : Bool) :
    count w autoPad ceiling w.reach size = .ok (w.count autoPad ceiling size) := by
  obtain ⟨hpositive, hstride⟩ := hw.stride
  have hreach := reach_bounds hw
  have hbefore := hw.before
  have hbehind := hw.behind
  unfold HeldSigned at hbefore hbehind
  unfold wordLimit at hsize
  have hpositive' : 1 ≤ (w.stride : Int) := by omega
  unfold count AxisWindow.count
  cases autoPad with
  | same =>
    have hsteps := div_bounds 0 (2 ^ 65) (v := size + w.stride - 1) hpositive'
      (by omega) (by omega) (by omega) (by omega)
    dsimp only
    rw [hold_bind ⟨by omega, by omega⟩, hold_bind ⟨by omega, by omega⟩,
      hold_eq_ok ⟨by omega, by omega⟩]
  | valid =>
    have hsteps := div_bounds (-(2 ^ 127)) (2 ^ 65) (v := size - w.reach + w.stride)
      hpositive' (by omega) (by omega) (by omega) (by omega)
    dsimp only
    rw [hold_bind ⟨by omega, by omega⟩, hold_bind ⟨by omega, by omega⟩,
      hold_eq_ok ⟨by omega, by omega⟩]
  | notSet =>
    dsimp only
    rw [hold_bind ⟨by omega, by omega⟩, hold_bind ⟨by omega, by omega⟩,
      hold_bind ⟨by omega, by omega⟩]
    set span := size + w.before + w.behind - w.reach with hspan
    by_cases hfits : span < 0
    · rw [if_pos hfits, if_pos hfits]
      rfl
    · rw [if_neg hfits, if_neg hfits]
      cases ceiling with
      | true =>
        have hsteps := div_bounds 0 (2 ^ 66) (v := span + w.stride - 1) hpositive'
          (by omega) (by omega) (by omega) (by omega)
        rw [if_pos rfl, if_pos rfl, hold_bind ⟨by omega, by omega⟩,
          hold_bind ⟨by omega, by omega⟩, hold_bind ⟨by omega, by omega⟩,
          hold_eq_ok ⟨by omega, by omega⟩]
      | false =>
        have hsteps := div_bounds 0 (2 ^ 66) (v := span) hpositive' (by omega)
          (by omega) (by omega) (by omega)
        rw [if_neg Bool.false_ne_true, if_neg Bool.false_ne_true, hold_bind ⟨by omega, by omega⟩,
          hold_eq_ok ⟨by omega, by omega⟩]

lemma forward_eq_lift (hw : w.InWords) (ceiling : Bool) {d : Dim}
    (hd : ∀ n, d = .known n → n < wordLimit) :
    forward w autoPad ceiling d = lift (w.forward autoPad ceiling d) := by
  cases d with
  | known size =>
    unfold forward AxisWindow.forward
    dsimp only
    rw [reach_eq_ok hw]
    change count w autoPad ceiling w.reach size >>= _ = _
    rw [count_eq_ok hw (hd size rfl)]
    change (if _ then _ else _) = lift (if _ then _ else _)
    split_ifs <;> rfl
  | _ => rfl

end Wide

/-! ### Sums that may be too large -/

/-- Over `size` positions, what the steps of a window and its reach come to is held by 128 bits, and
so is what remains without the paddings. -/
structure Rule.AxisWindow.SpreadFits (w : AxisWindow) (extra : Int) (size : Nat) : Prop where
  covered : w.covered extra size < 2 ^ 127
  extent : w.covered extra size - (w.before + w.behind) < 2 ^ 127

namespace Wide

open Rule

variable {w : AxisWindow} {autoPad : AutoPad} {size : Nat} {extra : Int}

/-- Machine words and their products are held; only the last two sums have to be looked at. -/
lemma spread_eq (hw : w.InWords) (hsize : size < wordLimit) (hextra : HeldSigned extra)
    (hautoPad : autoPad ≠ .same) :
    spread w autoPad extra size = (do
      let covered ← hold (w.covered extra size)
      hold (covered - (w.before + w.behind))) := by
  have hsteps := steps_bounds hw hsize
  have hbefore := hw.before
  have hbehind := hw.behind
  unfold HeldSigned at hbefore hbehind hextra
  unfold wordLimit at hsize
  have hcases : spread w autoPad extra size = spread w .notSet extra size := by
    cases autoPad with
    | same => exact absurd rfl hautoPad
    | _ => rfl
  rw [hcases]
  unfold spread
  dsimp only
  rw [hold_bind ⟨by omega, by omega⟩, hold_bind ⟨by omega, by omega⟩,
    hold_bind ⟨by omega, by omega⟩, hold_bind ⟨by omega, by omega⟩, reach_eq_ok hw]
  rfl

lemma le_covered (hw : w.InWords) (hsize : size < wordLimit) (hextra : HeldSigned extra) :
    -(2 ^ 65) ≤ w.covered extra size ∧
      -(2 ^ 66) ≤ w.covered extra size - (w.before + w.behind) := by
  have hsteps := steps_bounds hw hsize
  have hreach := reach_bounds hw
  have hbefore := hw.before
  have hbehind := hw.behind
  unfold HeldSigned at hbefore hbehind hextra
  unfold AxisWindow.covered
  omega

lemma spread_follows (hw : w.InWords) (hsize : size < wordLimit) (hextra : HeldSigned extra) :
    Follows (spread w autoPad extra size) (w.spread autoPad extra size) := by
  by_cases hsame : autoPad = .same
  · subst hsame
    obtain ⟨hpositive, hstride⟩ := hw.stride
    unfold wordLimit at hsize
    have hproduct := mul_bounds (a := w.stride) (b := size) (by omega) (by omega)
    have hheld : HeldWide ((size : Int) * w.stride) := by
      rw [mul_comm]
      exact ⟨by omega, by omega⟩
    exact .same (hold_eq_ok hheld) (.ok _)
  · obtain ⟨hcovered, hextent⟩ := le_covered hw hsize hextra
    rw [spread_eq hw hsize hextra hsame, AxisWindow.spread_of_ne_same hsame]
    refine (Follows.hold .addition (by omega)).bind fun covered h => ?_
    obtain ⟨-, rfl⟩ := held_eq_ok_iff.mp h
    exact .hold .subtraction (by omega)

lemma backward_follows (axis : Nat) (hw : w.InWords) (hextra : HeldSigned extra) {d : Dim}
    (hd : ∀ n, d = .known n → n < wordLimit) :
    Follows (backward w autoPad extra axis d) (w.backward autoPad extra axis d) := by
  cases d with
  | known size =>
    refine (spread_follows hw (hd size rfl) hextra).bind fun extent _ => ?_
    split_ifs
    · exact .same rfl (NeverAborts.error_iff.mpr nofun)
    · exact .lift (.ok _)
  | _ => exact .lift (.ok _)

lemma not_overflows_of_spreadFits (hw : w.InWords) (hsize : size < wordLimit)
    (hextra : HeldSigned extra) (hfits : w.SpreadFits extra size) (operation : Operation) :
    ¬w.Overflows autoPad extra size operation := by
  obtain ⟨hcovered, hextent⟩ := le_covered hw hsize hextra
  rintro (⟨-, h⟩ | ⟨-, -, h⟩)
  · exact h ⟨by omega, hfits.covered⟩
  · exact h ⟨by omega, hfits.extent⟩

lemma spreadFits_of_hasExtent (hautoPad : autoPad ≠ .same)
    (h : w.HasExtent autoPad extra size) : w.SpreadFits extra size := by
  unfold AxisWindow.HasExtent at h
  rw [if_neg hautoPad] at h
  exact ⟨h.1.2, h.2.1.2⟩

end Wide

end TensorGraph
