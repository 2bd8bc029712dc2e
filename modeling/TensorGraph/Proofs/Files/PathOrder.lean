import Mathlib.Data.List.Lex
import Mathlib.Order.Defs.Unbundled
import Mathlib.Tactic.Lemma
import TensorGraph.Files.Path

/-!
# The order of paths

Paths are ordered by their steps, the first difference deciding. Of two paths one goes before the
other unless they mean the same steps.
-/

namespace TensorGraph

namespace PathStep

lemma name_before_iff {a b : String} : (name a).before (name b) = true ↔ a < b :=
  decide_eq_true_iff

lemma before_irrefl (a : PathStep) : ¬a.before a = true := by
  cases a with
  | name a => exact fun h => String.lt_irrefl a (name_before_iff.mp h)
  | _ => exact Bool.false_ne_true

lemma before_trans {a b c : PathStep} (hab : a.before b = true) (hbc : b.before c = true) :
    a.before c = true := by
  cases a <;> cases b <;> cases c <;> first
    | rfl
    | exact absurd hab Bool.false_ne_true
    | exact absurd hbc Bool.false_ne_true
    | exact name_before_iff.mpr
        (String.lt_trans (name_before_iff.mp hab) (name_before_iff.mp hbc))

lemma eq_of_not_before {a b : PathStep} (hab : ¬a.before b = true) (hba : ¬b.before a = true) :
    a = b := by
  cases a <;> cases b <;> first
    | rfl
    | exact absurd rfl hab
    | exact absurd rfl hba
    | rw [name_before_iff, String.not_lt] at hab hba
      rw [String.le_antisymm hba hab]

instance : IsStrictTotalOrder PathStep fun a b => a.before b = true where
  trichotomous _ _ := eq_of_not_before
  irrefl := before_irrefl
  trans _ _ _ := before_trans

end PathStep

namespace Path

lemma stepsBefore_iff_lex {as bs : List PathStep} :
    stepsBefore as bs = true ↔ List.Lex (fun a b => a.before b = true) as bs := by
  induction as generalizing bs with
  | nil => cases bs <;> simp [stepsBefore]
  | cons a as ih =>
    cases bs with
    | nil => simp [stepsBefore]
    | cons b bs => simp [stepsBefore, List.cons_lex_cons_iff, ih]

lemma before_iff_lex {p q : Path} :
    p.before q = true ↔ List.Lex (fun a b => a.before b = true) p.steps q.steps :=
  stepsBefore_iff_lex

lemma before_asymm {p q : Path} (h : p.before q = true) : q.before p = false := by
  rw [Bool.eq_false_iff, ne_eq, before_iff_lex]
  exact asymm (before_iff_lex.mp h)

lemma before_or_before {p r : Path} (q : Path) (h : p.before r = true) :
    p.before q = true ∨ q.before r = true := by
  simp only [before_iff_lex] at h ⊢
  exact IsOrderConnected.conn _ _ _ h

lemma agrees_of_not_before {p q : Path} (hpq : p.before q = false) (hqp : q.before p = false) :
    p.agrees q = true := by
  rw [Bool.eq_false_iff, ne_eq, before_iff_lex] at hpq hqp
  exact beq_iff_eq.mpr (Std.Trichotomous.trichotomous _ _ hpq hqp)

lemma agrees_comm (p q : Path) : p.agrees q = q.agrees p := Bool.beq_comm

end Path

end TensorGraph
