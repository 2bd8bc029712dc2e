import Mathlib.Data.List.Forall2
import Mathlib.Tactic.Lemma
import TensorGraph.Rule.Basic

/-!
# Agreement of two runs

Two runs of one computation agree if their results are related where both have one, and if the
second fails wherever the first fails for a reason that is final. Agreement passes through every
construct that computations are made of, so that two runs of a rule agree if its steps do.
-/

namespace TensorGraph

variable {ε α α' β β' : Type}

/-- Two runs agree: related results, and no result after a final failure. -/
def Agrees (final : ε → Prop) (R : α → α' → Prop) : Except ε α → Except ε α' → Prop
  | .ok a, .ok a' => R a a'
  | .error e, .ok _ => ¬final e
  | _, .error _ => True

namespace Agrees

variable {final : ε → Prop} {R : α → α' → Prop} {S : β → β' → Prop}

@[simp] lemma ok_iff {a : α} {a' : α'} : Agrees final R (.ok a) (.ok a') ↔ R a a' := Iff.rfl

@[simp] lemma error_right (x : Except ε α) (e : ε) : Agrees final R x (.error e) := by
  cases x <;> trivial

lemma error_left {e : ε} (h : ¬final e) (x' : Except ε α') : Agrees final R (.error e) x' := by
  cases x' with
  | error _ => trivial
  | ok _ => exact h

lemma bind {x : Except ε α} {x' : Except ε α'} {f : α → Except ε β} {f' : α' → Except ε β'}
    (hx : Agrees final R x x') (hf : ∀ a a', R a a' → Agrees final S (f a) (f' a')) :
    Agrees final S (x >>= f) (x' >>= f') := by
  cases x' with
  | error e' => exact error_right _ e'
  | ok a' =>
    cases x with
    | error e => exact error_left hx _
    | ok a => exact hf a a' hx

lemma map {x : Except ε α} {x' : Except ε α'} {f : α → β} {f' : α' → β'}
    (hx : Agrees final R x x') (hf : ∀ a a', R a a' → S (f a) (f' a')) :
    Agrees final S (x.map f) (x'.map f') := by
  cases x' with
  | error e' => exact error_right _ e'
  | ok a' =>
    cases x with
    | error e => exact hx
    | ok a => exact hf a a' hx

lemma and_left {x : Except ε α} {x' : Except ε α'} (hx : Agrees final R x x') :
    Agrees final (fun a a' => x = .ok a ∧ R a a') x x' := by
  cases x' with
  | error e' => exact error_right _ e'
  | ok a' =>
    cases x with
    | error e => exact hx
    | ok a => exact ⟨rfl, hx⟩

lemma mono {R' : α → α' → Prop} {x : Except ε α} {x' : Except ε α'} (hx : Agrees final R x x')
    (h : ∀ a a', R a a' → R' a a') : Agrees final R' x x' := by
  cases x' with
  | error e' => exact error_right _ e'
  | ok a' =>
    cases x with
    | error e => exact hx
    | ok a => exact h a a' hx

lemma self {R : α → α → Prop} {x : Except ε α} (h : ∀ a, x = .ok a → R a a) :
    Agrees final R x x := by
  cases x with
  | error e => trivial
  | ok a => exact h a rfl

lemma bind_same {x : Except ε α} {f : α → Except ε β} {f' : α → Except ε β'}
    (hf : ∀ a, x = .ok a → Agrees final S (f a) (f' a)) :
    Agrees final S (x >>= f) (x >>= f') := by
  cases x with
  | error e => trivial
  | ok a => exact hf a rfl

lemma mapM {P : β → β' → Prop} {f : β → Except ε α} {f' : β' → Except ε α'} {bs : List β}
    {bs' : List β'} (hbs : List.Forall₂ P bs bs')
    (hf : ∀ b b', P b b' → Agrees final R (f b) (f' b')) :
    Agrees final (List.Forall₂ R) (bs.mapM f) (bs'.mapM f') := by
  induction hbs with
  | nil => exact .nil
  | cons hb _ ih =>
    rw [List.mapM_cons, List.mapM_cons]
    exact (hf _ _ hb).bind fun a a' ha => ih.bind fun as as' has => .cons ha has

lemma forM {f : β → Except ε Unit} {f' : β → Except ε Unit}
    (hf : ∀ b, Agrees final Eq (f b) (f' b)) (bs : List β) :
    Agrees final Eq (bs.forM f) (bs.forM f') := by
  induction bs with
  | nil => rfl
  | cons b bs ih => exact (hf b).bind fun _ _ _ => ih

lemma foldlM {P : β → β' → Prop} {f : α → β → Except ε α} {f' : α' → β' → Except ε α'}
    {bs : List β} {bs' : List β'} (hbs : List.Forall₂ P bs bs')
    (hf : ∀ a a' b b', R a a' → P b b' → Agrees final R (f a b) (f' a' b')) {a : α} {a' : α'}
    (ha : R a a') : Agrees final R (bs.foldlM f a) (bs'.foldlM f' a') := by
  induction hbs generalizing a a' with
  | nil => exact ha
  | cons hb _ ih =>
    rw [List.foldlM_cons, List.foldlM_cons]
    exact (hf _ _ _ _ ha hb).bind fun a a' ha => ih ha

end Agrees

/-- A shape error is final: where names and unknown extents already do not fit, no numbers do. -/
def RuleError.IsShape : RuleError → Prop
  | .shape _ => True
  | _ => False

/-- Two runs of a rule agree. -/
abbrev RunsAgree (R : α → α' → Prop) : Except RuleError α → Except RuleError α' → Prop :=
  Agrees RuleError.IsShape R

/-- Two computations with shapes agree: any failure is final. -/
abbrev ShapesAgree (R : α → α' → Prop) : Except ShapeError α → Except ShapeError α' → Prop :=
  Agrees (fun _ => True) R

lemma ShapesAgree.runs {R : α → α' → Prop} {x : Except ShapeError α} {x' : Except ShapeError α'}
    (hx : ShapesAgree R x x') :
    RunsAgree R (x.mapError RuleError.shape) (x'.mapError RuleError.shape) := by
  cases x' with
  | error e' => exact Agrees.error_right _ _
  | ok a' =>
    cases x with
    | error e => exact fun _ => hx trivial
    | ok a => exact hx

/-- Two partial computations agree: where the first has no result, the second has none. -/
def OptionsAgree (R : α → α' → Prop) : Option α → Option α' → Prop
  | some a, some a' => R a a'
  | none, some _ => False
  | _, none => True

namespace OptionsAgree

variable {R : α → α' → Prop}

@[simp] lemma some_iff {a : α} {a' : α'} : OptionsAgree R (some a) (some a') ↔ R a a' := Iff.rfl

@[simp] lemma none_right (x : Option α) : OptionsAgree R x (none : Option α') := by
  cases x <;> trivial

lemma none_or_some {x : Option α} {x' : Option α'} (h : OptionsAgree R x x') :
    x' = none ∨ ∃ a a', x = some a ∧ x' = some a' ∧ R a a' := by
  cases x' with
  | none => exact .inl rfl
  | some a' =>
    cases x with
    | none => exact h.elim
    | some a => exact .inr ⟨a, a', rfl, rfl, h⟩

lemma mapM {P : β → β' → Prop} {f : β → Option α} {f' : β' → Option α'} {bs : List β}
    {bs' : List β'} (hbs : List.Forall₂ P bs bs')
    (hf : ∀ b b', P b b' → OptionsAgree R (f b) (f' b')) :
    OptionsAgree (List.Forall₂ R) (bs.mapM f) (bs'.mapM f') := by
  induction hbs with
  | nil => exact .nil
  | cons hb _ ih =>
    rw [List.mapM_cons, List.mapM_cons]
    obtain hb' | ⟨a, a', ha, ha', hR⟩ := (hf _ _ hb).none_or_some
    · simp [hb']
    · obtain hbs' | ⟨as, as', has, has', hRs⟩ := ih.none_or_some
      · simp [ha', hbs']
      · simp [ha, ha', has, has', hR, hRs]

end OptionsAgree

end TensorGraph
