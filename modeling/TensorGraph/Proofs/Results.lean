import Mathlib.Data.List.Forall2
import Mathlib.Tactic.Lemma

/-!
# Lists of results

When a computation that goes through a list comes to an end, and with which result.
-/

namespace TensorGraph

variable {α β ε : Type}

lemma bind_eq_ok_iff {x : Except ε α} {f : α → Except ε β} {b : β} :
    x >>= f = .ok b ↔ ∃ a, x = .ok a ∧ f a = .ok b := by
  cases x <;> simp [bind, Except.bind]

lemma bind_eq_error_iff {x : Except ε α} {f : α → Except ε β} {e : ε} :
    x >>= f = .error e ↔ x = .error e ∨ ∃ a, x = .ok a ∧ f a = .error e := by
  cases x <;> simp [bind, Except.bind]

lemma bind_pure_eq_error_iff {x : Except ε α} {f : α → β} {e : ε} :
    (x >>= fun a => pure (f a)) = .error e ↔ x = .error e := by
  cases x <;> simp [bind, Except.bind, pure, Except.pure]

lemma andThen_eq_ok_iff {x : Except ε Unit} {f : Unit → Except ε β} {b : β} :
    x >>= f = .ok b ↔ x = .ok () ∧ f () = .ok b := by
  rw [bind_eq_ok_iff]
  exact ⟨fun ⟨(), hx, hf⟩ => ⟨hx, hf⟩, fun ⟨hx, hf⟩ => ⟨(), hx, hf⟩⟩

lemma map_eq_ok_iff {x : Except ε α} {f : α → β} {b : β} :
    x.map f = .ok b ↔ ∃ a, x = .ok a ∧ f a = b := by
  cases x <;> simp [Except.map]

lemma map_eq_error_iff {x : Except ε α} {f : α → β} {e : ε} :
    x.map f = .error e ↔ x = .error e := by
  cases x <;> simp [Except.map]

lemma mapError_eq_ok_iff {ε' : Type} {x : Except ε α} {f : ε → ε'} {a : α} :
    x.mapError f = .ok a ↔ x = .ok a := by
  cases x <;> simp [Except.mapError]

lemma mapError_eq_error_iff {ε' : Type} {x : Except ε α} {f : ε → ε'} {e' : ε'} :
    x.mapError f = .error e' ↔ ∃ e, x = .error e ∧ f e = e' := by
  cases x <;> simp [Except.mapError]

lemma toOption_eq_some_iff {x : Except ε α} {a : α} : x.toOption = some a ↔ x = .ok a := by
  cases x <;> simp [Except.toOption]

lemma toOption_bind (x : Except ε α) (f : α → Except ε β) :
    (x >>= f).toOption = x.toOption.bind fun a => (f a).toOption := by
  cases x <;> rfl

lemma toOption_mapM (f : α → Except ε β) (as : List α) :
    (as.mapM f).toOption = as.mapM fun a => (f a).toOption := by
  induction as with
  | nil => rfl
  | cons a as ih =>
    simp only [List.mapM_cons, toOption_bind, ih]
    rfl

lemma mapM_eq_ok_iff {f : α → Except ε β} {as : List α} {bs : List β} :
    as.mapM f = .ok bs ↔ List.Forall₂ (fun a b => f a = .ok b) as bs := by
  induction as generalizing bs with
  | nil => simp [pure, Except.pure, eq_comm]
  | cons a as ih =>
    simp only [List.mapM_cons, bind_eq_ok_iff, ih, List.forall₂_cons_left_iff]
    constructor
    · rintro ⟨b, hb, bs', hbs, heq⟩
      exact ⟨b, bs', hb, hbs, (Except.ok.inj heq).symm⟩
    · rintro ⟨b, bs', hb, hbs, rfl⟩
      exact ⟨b, hb, bs', hbs, rfl⟩

lemma exists_forall₂_iff {R : α → β → Prop} {as : List α} :
    (∃ bs, List.Forall₂ R as bs) ↔ ∀ a ∈ as, ∃ b, R a b := by
  induction as with
  | nil => simp
  | cons a as ih =>
    rw [List.forall_mem_cons, ← ih]
    constructor
    · rintro ⟨bs, h⟩
      obtain ⟨b, bs', hb, hbs, _⟩ := List.forall₂_cons_left_iff.mp h
      exact ⟨⟨b, hb⟩, bs', hbs⟩
    · rintro ⟨⟨b, hb⟩, bs, hbs⟩
      exact ⟨b :: bs, .cons hb hbs⟩

lemma forall₂_and_eq_iff {P : α → Prop} {f : α → β} {as : List α} {bs : List β} :
    List.Forall₂ (fun a b => P a ∧ b = f a) as bs ↔ (∀ a ∈ as, P a) ∧ bs = as.map f := by
  induction as generalizing bs with
  | nil => simp
  | cons a as ih =>
    simp only [List.forall₂_cons_left_iff, ih, List.forall_mem_cons, List.map_cons]
    constructor
    · rintro ⟨_, _, ⟨ha, rfl⟩, ⟨has, rfl⟩, rfl⟩
      exact ⟨⟨ha, has⟩, rfl⟩
    · rintro ⟨⟨ha, has⟩, rfl⟩
      exact ⟨_, _, ⟨ha, rfl⟩, ⟨has, rfl⟩, rfl⟩

lemma forall_mem_of_forall₂ {R : α → β → Prop} {P : β → Prop} {as : List α} {bs : List β}
    (h : List.Forall₂ R as bs) (hR : ∀ a ∈ as, ∀ b, R a b → P b) : ∀ b ∈ bs, P b := by
  induction h with
  | nil => simp
  | cons ha _ ih =>
    rw [List.forall_mem_cons] at hR
    exact List.forall_mem_cons.mpr ⟨hR.1 _ ha, ih hR.2⟩

lemma forM_eq_ok_iff {f : α → Except ε Unit} {as : List α} :
    as.forM f = .ok () ↔ ∀ a ∈ as, f a = .ok () := by
  induction as with
  | nil => simp [pure, Except.pure]
  | cons a as ih =>
    change (f a >>= fun _ => as.forM f) = .ok () ↔ _
    rw [andThen_eq_ok_iff, List.forall_mem_cons, ← ih]

lemma exists_append_of_forM_eq_error {f : α → Except ε Unit} {as : List α} {e : ε}
    (h : as.forM f = .error e) :
    ∃ before a behind, as = before ++ a :: behind ∧ (∀ b ∈ before, f b = .ok ()) ∧
      f a = .error e := by
  induction as with
  | nil => exact absurd h nofun
  | cons a as ih =>
    rcases bind_eq_error_iff.mp h with ha | ⟨_, ha, hrest⟩
    · exact ⟨[], a, as, rfl, by simp, ha⟩
    · obtain ⟨before, a', behind, rfl, hbefore, he⟩ := ih hrest
      exact ⟨a :: before, a', behind, rfl, List.forall_mem_cons.mpr ⟨ha, hbefore⟩, he⟩

/-- A list of results fails at the first entry that does. -/
lemma mapM_eq_error_iff {f : α → Except ε β} {as : List α} {e : ε} :
    as.mapM f = .error e ↔ ∃ (i : Nat) (a : α), as[i]? = some a ∧ f a = .error e ∧
      ∀ j < i, ∀ a', as[j]? = some a' → ∃ b, f a' = .ok b := by
  induction as with
  | nil => simp [pure, Except.pure]
  | cons a as ih =>
    rw [List.mapM_cons, bind_eq_error_iff]
    constructor
    · rintro (ha | ⟨b, hb, h⟩)
      · exact ⟨0, a, rfl, ha, nofun⟩
      · obtain ⟨i, a', hi, ha', hbefore⟩ :=
          ih.mp ((bind_eq_error_iff.mp h).resolve_right fun ⟨bs, _, hbs⟩ => by cases hbs)
        refine ⟨i + 1, a', hi, ha', fun j hj a'' ha'' => ?_⟩
        cases j with
        | zero => exact ⟨b, Option.some.inj ha'' ▸ hb⟩
        | succ j => exact hbefore j (Nat.lt_of_succ_lt_succ hj) a'' ha''
    · rintro ⟨i, a', hi, ha', hbefore⟩
      cases i with
      | zero => exact .inl (Option.some.inj hi ▸ ha')
      | succ i =>
        obtain ⟨b, hb⟩ := hbefore 0 (Nat.succ_pos i) a rfl
        refine .inr ⟨b, hb, bind_eq_error_iff.mpr (.inl (ih.mpr ⟨i, a', hi, ha', ?_⟩))⟩
        exact fun j hj => hbefore (j + 1) (Nat.succ_lt_succ hj)

/-- A loop fails at the first step that does, after all steps before it. -/
lemma foldlM_eq_error_iff {f : β → α → Except ε β} {as : List α} {b : β} {e : ε} :
    as.foldlM f b = .error e ↔
      ∃ before a behind b', as = before ++ a :: behind ∧ before.foldlM f b = .ok b' ∧
        f b' a = .error e := by
  constructor
  · intro h
    induction as generalizing b with
    | nil => exact absurd h nofun
    | cons a as ih =>
      rw [List.foldlM_cons] at h
      rcases bind_eq_error_iff.mp h with ha | ⟨b', ha, hrest⟩
      · exact ⟨[], a, as, b, rfl, rfl, ha⟩
      · obtain ⟨before, a', behind, b'', rfl, hbefore, he⟩ := ih hrest
        refine ⟨a :: before, a', behind, b'', rfl, ?_, he⟩
        rw [List.foldlM_cons, ha]
        exact hbefore
  · rintro ⟨before, a, behind, b', rfl, hbefore, he⟩
    rw [List.foldlM_append, hbefore]
    change (a :: behind).foldlM f b' = .error e
    rw [List.foldlM_cons, he]
    rfl

lemma exists_of_foldlM_eq_error {f : β → α → Except ε β} {as : List α} {b : β} {e : ε}
    (h : as.foldlM f b = .error e) : ∃ b', ∃ a ∈ as, f b' a = .error e := by
  obtain ⟨before, a, behind, b', rfl, _, he⟩ := foldlM_eq_error_iff.mp h
  exact ⟨b', a, List.mem_append_right before List.mem_cons_self, he⟩

lemma mapM_eq_some_iff {f : α → Option β} {as : List α} {bs : List β} :
    as.mapM f = some bs ↔ List.Forall₂ (fun a b => f a = some b) as bs := by
  induction as generalizing bs with
  | nil => simp [eq_comm]
  | cons a as ih =>
    simp only [List.mapM_cons, Option.bind_eq_bind, Option.bind_eq_some_iff, ih,
      List.forall₂_cons_left_iff]
    constructor
    · rintro ⟨b, hb, bs', hbs, heq⟩
      exact ⟨b, bs', hb, hbs, (Option.some.inj heq).symm⟩
    · rintro ⟨b, bs', hb, hbs, rfl⟩
      exact ⟨b, hb, bs', hbs, rfl⟩

lemma mapM_eq_some_of_forall {f : α → Option β} {g : α → β} {as : List α}
    (h : ∀ a ∈ as, f a = some (g a)) : as.mapM f = some (as.map g) := by
  rw [mapM_eq_some_iff, List.forall₂_map_right_iff]
  exact List.forall₂_same.mpr h

lemma mapM_map_eq_some {γ : Type} {f : β → Option γ} {g : α → β} {h : α → γ} {as : List α}
    (hf : ∀ a ∈ as, f (g a) = some (h a)) : (as.map g).mapM f = some (as.map h) := by
  rw [List.mapM_map]
  exact mapM_eq_some_of_forall hf

lemma exists_of_mapM_eq_some {f : α → Option β} {as : List α} {bs : List β}
    (h : as.mapM f = some bs) : ∀ a ∈ as, ∃ b, f a = some b :=
  exists_forall₂_iff.mp ⟨bs, mapM_eq_some_iff.mp h⟩

lemma flatten_eq_of_mapM_eq_some {f : α → Option (List β)} {g : α → List β} {as : List α}
    {bs : List (List β)} (h : as.mapM f = some bs) (hg : ∀ a ∈ as, ∀ b, f a = some b → b = g a) :
    bs.flatten = as.flatMap g := by
  rw [mapM_eq_some_iff] at h
  induction h with
  | nil => rfl
  | cons ha _ ih =>
    rw [List.forall_mem_cons] at hg
    rw [List.flatten_cons, List.flatMap_cons, ih hg.2, hg.1 _ ha]

lemma forall_mem_of_mapM_eq_some {f : α → Option β} {P : β → Prop} {as : List α} {bs : List β}
    (h : as.mapM f = some bs) (hf : ∀ a ∈ as, ∀ b, f a = some b → P b) : ∀ b ∈ bs, P b :=
  forall_mem_of_forall₂ (mapM_eq_some_iff.mp h) hf

lemma forall_mem_of_mapM_eq_ok {f : α → Except ε β} {P : β → Prop} {as : List α} {bs : List β}
    (h : as.mapM f = .ok bs) (hf : ∀ a ∈ as, ∀ b, f a = .ok b → P b) : ∀ b ∈ bs, P b :=
  forall_mem_of_forall₂ (mapM_eq_ok_iff.mp h) hf

lemma mapM_cons_eq (f : α → Option β) (a : α) (as : List α) :
    (a :: as).mapM f = (f a).bind fun b => (as.mapM f).map (b :: ·) := by
  rw [List.mapM_cons]
  simp only [Option.map_eq_bind]
  rfl

lemma mapM_congr {f g : α → Option β} {as : List α} (h : ∀ a ∈ as, f a = g a) :
    as.mapM f = as.mapM g := by
  induction as with
  | nil => rfl
  | cons a as ih =>
    rw [List.forall_mem_cons] at h
    rw [List.mapM_cons, List.mapM_cons, h.1, ih h.2]

lemma mapM_option_map {γ : Type} (f : α → Option β) (g : β → γ) (as : List α) :
    (as.mapM fun a => (f a).map g) = (as.mapM f).map (List.map g) := by
  induction as with
  | nil => rfl
  | cons a as ih =>
    rw [mapM_cons_eq, mapM_cons_eq, ih]
    cases f a with
    | none => rfl
    | some b => cases as.mapM f <;> rfl

lemma mapM_flatMap {γ : Type} (f : β → Option γ) (g : α → List β) (as : List α) :
    (as.flatMap g).mapM f = (as.mapM fun a => (g a).mapM f).map List.flatten := by
  induction as with
  | nil => rfl
  | cons a as ih =>
    rw [List.flatMap_cons, List.mapM_append, List.mapM_cons, ih]
    cases (g a).mapM f with
    | none => rfl
    | some bs => cases as.mapM fun a => (g a).mapM f <;> rfl

lemma mapM_map_eq_ok {f : β → Except ε α} {g : α → β} {as : List α}
    (hf : ∀ a ∈ as, f (g a) = .ok a) : (as.map g).mapM f = .ok as := by
  rw [mapM_eq_ok_iff, List.forall₂_map_left_iff]
  exact List.forall₂_same.mpr hf

end TensorGraph
