import Mathlib.Data.List.Forall2
import Mathlib.Tactic.Lemma

/-!
# Related lists

Lists of the same length whose entries are related position by position stay so under the usual
operations on lists.
-/

namespace TensorGraph

variable {α α' β β' : Type} {R : α → α' → Prop} {S : β → β' → Prop}

lemma forall₂_zip_zip {as : List α} {as' : List α'} {bs : List β} {bs' : List β'}
    (has : List.Forall₂ R as as') (hbs : List.Forall₂ S bs bs') :
    List.Forall₂ (fun x x' => R x.1 x'.1 ∧ S x.2 x'.2) (as.zip bs) (as'.zip bs') := by
  induction has generalizing bs bs' with
  | nil => simp
  | cons ha _ ih =>
    cases hbs with
    | nil => simp
    | cons hb hbs => exact .cons ⟨ha, hb⟩ (ih hbs)

lemma forall₂_zipIdx {as : List α} {as' : List α'} (has : List.Forall₂ R as as') (i : Nat) :
    List.Forall₂ (fun x x' => R x.1 x'.1 ∧ x.2 = x'.2) (as.zipIdx i) (as'.zipIdx i) := by
  induction has generalizing i with
  | nil => simp
  | cons ha _ ih => exact .cons ⟨ha, rfl⟩ (ih (i + 1))

/-- What stands at a position of two lists side by side, with its number. -/
lemma getElem?_zipIdx_zip_eq_some_iff {as : List α} {bs : List β} {i : Nat} {p : (α × β) × Nat} :
    (as.zip bs).zipIdx[i]? = some p ↔ p.2 = i ∧ as[i]? = some p.1.1 ∧ bs[i]? = some p.1.2 := by
  obtain ⟨⟨a, b⟩, j⟩ := p
  simp only [List.getElem?_zipIdx, Option.map_eq_some_iff, Prod.mk.injEq, Nat.zero_add]
  constructor
  · rintro ⟨_, hp, rfl, rfl⟩
    exact ⟨rfl, List.getElem?_zip_eq_some.mp hp⟩
  · rintro ⟨rfl, hp⟩
    exact ⟨(a, b), List.getElem?_zip_eq_some.mpr hp, rfl, rfl⟩

lemma mem_zipIdx_zip_iff {as : List α} {bs : List β} {a : α} {b : β} {i : Nat} :
    ((a, b), i) ∈ (as.zip bs).zipIdx ↔ as[i]? = some a ∧ bs[i]? = some b :=
  List.mem_zipIdx_iff_getElem?.trans List.getElem?_zip_eq_some

lemma forall₂_set {as : List α} {as' : List α'} (has : List.Forall₂ R as as') {a : α} {a' : α'}
    (ha : R a a') (i : Nat) : List.Forall₂ R (as.set i a) (as'.set i a') := by
  induction has generalizing i with
  | nil => simp
  | cons hb hbs ih =>
    cases i with
    | zero => exact .cons ha hbs
    | succ i => exact .cons hb (ih i)

lemma forall₂_set_right {as : List α} {as' : List α'} (has : List.Forall₂ R as as') {i : Nat}
    {a : α} {a' : α'} (hi : as[i]? = some a) (ha : R a a') :
    List.Forall₂ R as (as'.set i a') := by
  induction has generalizing i with
  | nil => simp
  | cons hb hbs ih =>
    cases i with
    | zero =>
      obtain rfl := Option.some.inj hi
      exact .cons ha hbs
    | succ i => exact .cons hb (ih hi)

lemma forall₂_eraseIdx {as : List α} {as' : List α'} (has : List.Forall₂ R as as') (i : Nat) :
    List.Forall₂ R (as.eraseIdx i) (as'.eraseIdx i) := by
  induction has generalizing i with
  | nil => simp
  | cons hb hbs ih =>
    cases i with
    | zero => exact hbs
    | succ i => exact .cons hb (ih i)

lemma forall₂_getElem? {as : List α} {as' : List α'} (has : List.Forall₂ R as as') (i : Nat) :
    Option.Rel R as[i]? as'[i]? := by
  induction has generalizing i with
  | nil => simp
  | cons hb _ ih =>
    cases i with
    | zero => simpa using hb
    | succ i => simpa using ih i

lemma none_or_some_of_rel {a? : Option α} {a?' : Option α'} (h : Option.Rel R a? a?') :
    (a? = none ∧ a?' = none) ∨ ∃ a a', a? = some a ∧ a?' = some a' ∧ R a a' := by
  cases h with
  | none => exact .inl ⟨rfl, rfl⟩
  | some ha => exact .inr ⟨_, _, rfl, rfl, ha⟩

lemma forall₂_replicate {a : α} {a' : α'} (ha : R a a') (n : Nat) :
    List.Forall₂ R (List.replicate n a) (List.replicate n a') := by
  induction n with
  | zero => exact .nil
  | succ n ih => exact .cons ha ih

lemma forall₂_replicate_left {a : α} (ha : ∀ a', R a a') (as' : List α') :
    List.Forall₂ R (List.replicate as'.length a) as' := by
  induction as' with
  | nil => exact .nil
  | cons a' as' ih => exact .cons (ha a') ih

lemma forall₂_trans {γ : Type} {T : β → γ → Prop} {U : α → γ → Prop} {Q : α → β → Prop}
    (h : ∀ a b c, Q a b → T b c → U a c) {as : List α} {bs : List β} {cs : List γ}
    (hab : List.Forall₂ Q as bs) (hbc : List.Forall₂ T bs cs) : List.Forall₂ U as cs := by
  induction hab generalizing cs with
  | nil =>
    obtain rfl := List.forall₂_nil_left_iff.mp hbc
    exact .nil
  | cons hq _ ih =>
    obtain ⟨c, cs', ht, hcs, rfl⟩ := List.forall₂_cons_left_iff.mp hbc
    exact .cons (h _ _ _ hq ht) (ih hcs)

lemma forall₂_imp_of_mem {Q : α → α' → Prop} {as : List α} {as' : List α'}
    (has : List.Forall₂ R as as') (h : ∀ a ∈ as, ∀ a', R a a' → Q a a') :
    List.Forall₂ Q as as' := by
  induction has with
  | nil => exact .nil
  | cons ha _ ih =>
    rw [List.forall_mem_cons] at h
    exact .cons (h.1 _ ha) (ih h.2)

lemma forall₂_of_getElem? {as : List α} {as' : List α'} (hlength : as.length = as'.length)
    (h : ∀ (i : Nat) a a', as[i]? = some a → as'[i]? = some a' → R a a') :
    List.Forall₂ R as as' := by
  induction as generalizing as' with
  | nil =>
    obtain rfl := List.length_eq_zero_iff.mp hlength.symm
    exact .nil
  | cons a as ih =>
    cases as' with
    | nil => simp at hlength
    | cons a' as' =>
      refine .cons (h 0 a a' rfl rfl) (ih (Nat.succ.inj hlength) fun i b b' hb hb' => ?_)
      exact h (i + 1) b b' (by simpa using hb) (by simpa using hb')

lemma exists_of_forall₂_right {as : List α} {as' : List α'} (has : List.Forall₂ R as as')
    {a' : α'} (ha' : a' ∈ as') : ∃ a ∈ as, R a a' := by
  induction has with
  | nil => cases ha'
  | cons ha _ ih =>
    rcases List.mem_cons.mp ha' with rfl | hmem
    · exact ⟨_, List.mem_cons_self, ha⟩
    · obtain ⟨a, hmem', hrel⟩ := ih hmem
      exact ⟨a, List.mem_cons_of_mem _ hmem', hrel⟩

lemma exists_append_of_forall₂ {as bs : List α} {cs : List α'}
    (h : List.Forall₂ R (as ++ bs) cs) :
    ∃ as' bs', cs = as' ++ bs' ∧ List.Forall₂ R as as' ∧ List.Forall₂ R bs bs' := by
  induction as generalizing cs with
  | nil => exact ⟨[], cs, rfl, .nil, h⟩
  | cons a as ih =>
    obtain ⟨c, cs', hc, hcs, rfl⟩ := List.forall₂_cons_left_iff.mp h
    obtain ⟨as', bs', rfl, has, hbs⟩ := ih hcs
    exact ⟨c :: as', bs', rfl, .cons hc has, hbs⟩

lemma findSome?_eq_of_forall₂ {γ : Type} {f : α → Option γ} {f' : α' → Option γ} {as : List α}
    {as' : List α'} (has : List.Forall₂ R as as') (hf : ∀ a a', R a a' → f' a' = f a) :
    as'.findSome? f' = as.findSome? f := by
  induction has with
  | nil => rfl
  | cons ha _ ih => rw [List.findSome?_cons, List.findSome?_cons, hf _ _ ha, ih]

end TensorGraph
