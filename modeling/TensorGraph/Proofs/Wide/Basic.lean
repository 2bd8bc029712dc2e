import Mathlib.Algebra.Group.Int.Defs
import TensorGraph.Proofs.Aborts
import TensorGraph.Rule.Window

/-!
# Numbers of 128 bits

Rules that do arithmetic may be run with numbers of 128 bits. Such a run computes one number after
another, and it stops at the first one that is too wide. This module has the steps of these runs,
and says when they amount to runs with all integers.
-/

namespace TensorGraph

/-- Why a run with numbers of 128 bits has no result. -/
inductive Wide.Stop where
  /-- This number was to be computed. -/
  | tooWide (v : Int)
  | reason (e : RuleError)
deriving DecidableEq, Repr

abbrev Wide (α : Type) := Except Wide.Stop α

namespace Wide

open Rule (HeldWide held)

variable {α β : Type} {v : Int}

/-- Computes one number. -/
def hold (v : Int) : Wide Int := if HeldWide v then .ok v else .error (.tooWide v)

/-- A run that computes no numbers. -/
def lift (x : Except RuleError α) : Wide α := x.mapError .reason

def stop (e : RuleError) : Wide α := .error (.reason e)

lemma hold_eq_ok (h : HeldWide v) : hold v = .ok v := if_pos h

lemma hold_bind (h : HeldWide v) (f : Int → Wide α) : hold v >>= f = f v := by
  rw [hold_eq_ok h]
  rfl

/-! ### Runs in which all numbers are held -/

lemma bind_eq_lift {x : Except RuleError α} {f : α → Wide β} {g : α → Except RuleError β}
    (h : ∀ a, x = .ok a → f a = lift (g a)) : lift x >>= f = lift (x >>= g) := by
  cases x with
  | error e => rfl
  | ok a => exact h a rfl

lemma mapM_eq_lift {f : α → Wide β} {g : α → Except RuleError β} {as : List α}
    (h : ∀ a ∈ as, f a = lift (g a)) : as.mapM f = lift (as.mapM g) := by
  induction as with
  | nil => rfl
  | cons a as ih =>
    rw [List.forall_mem_cons] at h
    rw [List.mapM_cons, List.mapM_cons, h.1, ih h.2]
    exact bind_eq_lift fun b _ => bind_eq_lift fun bs _ => rfl

/-! ### Runs that stop at numbers that are too large -/

/-- A run comes to the same as that of a rule that does not give up, or it stops at a number that is
too large, where the rule gives up. -/
inductive Follows (x : Wide α) (y : Except RuleError α) : Prop
  | same (hx : x = lift y) (hy : NeverAborts y)
  | stops (v : Int) (operation : Operation) (hv : 2 ^ 127 ≤ v) (hx : x = .error (.tooWide v))
    (hy : y = .error (.abort (.overflow operation)))

namespace Follows

lemma lift {y : Except RuleError α} (hy : NeverAborts y) : Follows (Wide.lift y) y := .same rfl hy

lemma hold {v : Int} (operation : Operation) (hv : -(2 ^ 127) ≤ v) :
    Follows (Wide.hold v) (held operation v) := by
  unfold Wide.hold held
  split_ifs with hheld
  · exact .lift (.ok v)
  · exact .stops v operation (by unfold HeldWide at hheld; omega) rfl rfl

lemma bind {x : Wide α} {y : Except RuleError α} {f : α → Wide β} {g : α → Except RuleError β}
    (hx : Follows x y) (hf : ∀ a, y = .ok a → Follows (f a) (g a)) :
    Follows (x >>= f) (y >>= g) := by
  cases hx with
  | same hx hy =>
    subst hx
    cases y with
    | error e => exact .same rfl (NeverAborts.error_iff.mpr (NeverAborts.error_iff.mp hy))
    | ok a => exact hf a rfl
  | stops v operation hv hx hy =>
    subst hx hy
    exact .stops v operation hv rfl rfl

lemma mapM {f : α → Wide β} {g : α → Except RuleError β} {as : List α}
    (h : ∀ a ∈ as, Follows (f a) (g a)) : Follows (as.mapM f) (as.mapM g) := by
  induction as with
  | nil => exact .lift (.ok [])
  | cons a as ih =>
    rw [List.forall_mem_cons] at h
    rw [List.mapM_cons, List.mapM_cons]
    exact h.1.bind fun b _ => (ih h.2).bind fun bs _ => .lift (.ok (b :: bs))

end Follows

end Wide

end TensorGraph
