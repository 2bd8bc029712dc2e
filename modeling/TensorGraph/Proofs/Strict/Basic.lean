import Mathlib.Tactic.SplitIfs
import TensorGraph.Proofs.RelatedLists
import TensorGraph.Proofs.Results
import TensorGraph.Rule.Registry

/-!
# Strict runs

A strict run reads and writes lists by position and divides numbers, and it is at fault where a list
has no such position or a divisor is zero, and where a rule gives up. The rules are written a second
time as strict runs, in the order in which they look at their data. This module has the steps that
strict runs are made of, and says when they amount to the same as runs that cannot be at fault.
-/

namespace TensorGraph

/-- What a strict run must not do. -/
inductive Strict.Fault where
  | abort (a : Abort)
  | zeroDivisor
deriving DecidableEq, Repr

/-- Why a strict run has no result: it is at fault, or a rule has a reason to give none. -/
inductive Halt where
  | fault (f : Strict.Fault)
  | reason (e : RuleError)
deriving DecidableEq, Repr

abbrev Strict (α : Type) := Except Halt α

namespace Strict

variable {α β γ δ : Type}

/-- A run of a rule as a strict run; to give up is a fault. -/
def lift : Except RuleError α → Strict α
  | .ok a => .ok a
  | .error (.abort a) => .error (.fault (.abort a))
  | .error e => .error (.reason e)

def halt (e : RuleError) : Strict α := .error (.reason e)

/-- A list of that length has no such position. -/
def beyond (position length : Nat) : Strict α :=
  .error (.fault (.abort (.outOfBounds position length)))

def read (as : List α) (i : Nat) : Strict α :=
  match as[i]? with
  | some a => .ok a
  | none => beyond i as.length

def write (as : List α) (i : Nat) (a : α) : Strict (List α) :=
  if i < as.length then .ok (as.set i a) else beyond i as.length

/-- The entries from one position up to, but not including, another one. -/
def readRange (as : List α) (start stop : Nat) : Strict (List α) :=
  if start ≤ stop ∧ stop ≤ as.length then .ok ((as.take stop).drop start)
  else beyond stop as.length

def divide (a b : Nat) : Strict Nat :=
  if b = 0 then .error (.fault .zeroDivisor) else .ok (a / b)

def remainder (a b : Nat) : Strict Nat :=
  if b = 0 then .error (.fault .zeroDivisor) else .ok (a % b)

def divideInt (a b : Int) : Strict Int :=
  if b = 0 then .error (.fault .zeroDivisor) else .ok (a / b)

/-! ### Steps without fault -/

lemma read_eq_ok {as : List α} {i : Nat} {a : α} (h : as[i]? = some a) : read as i = .ok a := by
  unfold read
  rw [h]

lemma read_eq_fault {as : List α} {i : Nat} (h : as[i]? = none) :
    read as i = beyond i as.length := by
  unfold read
  rw [h]

lemma write_eq_ok {as : List α} {i : Nat} (h : i < as.length) (a : α) :
    write as i a = .ok (as.set i a) := if_pos h

lemma readRange_eq_ok {as : List α} {start stop : Nat} (hstart : start ≤ stop)
    (hstop : stop ≤ as.length) : readRange as start stop = .ok ((as.take stop).drop start) :=
  if_pos ⟨hstart, hstop⟩

lemma readRange_zero {as : List α} {n : Nat} (h : n ≤ as.length) :
    readRange as 0 n = .ok (as.take n) := readRange_eq_ok (Nat.zero_le n) h

lemma readRange_length {as : List α} {n : Nat} (h : n ≤ as.length) :
    readRange as n as.length = .ok (as.drop n) := by
  rw [readRange_eq_ok h (Nat.le_refl _), List.take_length]

lemma divide_eq_ok {a b : Nat} (h : b ≠ 0) : divide a b = .ok (a / b) := if_neg h

lemma remainder_eq_ok {a b : Nat} (h : b ≠ 0) : remainder a b = .ok (a % b) := if_neg h

lemma divideInt_eq_ok {a b : Int} (h : b ≠ 0) : divideInt a b = .ok (a / b) := if_neg h

/-! ### Runs that cannot be at fault -/

@[simp] lemma lift_pure (a : α) : lift (pure a) = pure a := rfl

lemma lift_bind (x : Except RuleError α) (f : α → Except RuleError β) :
    lift (x >>= f) = lift x >>= fun a => lift (f a) := by
  rcases x with e | a
  · cases e <;> rfl
  · rfl

lemma lift_map (x : Except RuleError α) (f : α → β) : lift (x.map f) = (lift x).map f := by
  rcases x with e | a
  · cases e <;> rfl
  · rfl

lemma bind_eq_lift {x : Except RuleError α} {f : α → Strict β} {g : α → Except RuleError β}
    (h : ∀ a, x = .ok a → f a = lift (g a)) : lift x >>= f = lift (x >>= g) := by
  rw [lift_bind]
  rcases x with e | a
  · cases e <;> rfl
  · exact h a rfl

lemma mapM_eq_lift {f : α → Strict γ} {g : β → Except RuleError γ} {as : List α} {bs : List β}
    (h : List.Forall₂ (fun a b => f a = lift (g b)) as bs) : as.mapM f = lift (bs.mapM g) := by
  induction h with
  | nil => rfl
  | cons hab _ ih =>
    rw [List.mapM_cons, List.mapM_cons, hab, ih]
    exact bind_eq_lift fun c _ => bind_eq_lift fun cs _ => rfl

lemma mapM_eq_elim {f : α → Strict γ} {g : β → Option γ} {e : RuleError} {as : List α}
    {bs : List β} (h : List.Forall₂ (fun a b => f a = (g b).elim (halt e) .ok) as bs) :
    as.mapM f = (bs.mapM g).elim (halt e) .ok := by
  induction h with
  | nil => rfl
  | @cons a b as bs hab _ ih =>
    rw [List.mapM_cons, List.mapM_cons, hab, ih]
    cases g b with
    | none => rfl
    | some c => cases bs.mapM g <;> rfl

lemma forM_eq_lift {f : α → Strict Unit} {g : α → Except RuleError Unit} {as : List α}
    (h : ∀ a ∈ as, f a = lift (g a)) : as.forM f = lift (as.forM g) := by
  induction as with
  | nil => rfl
  | cons a as ih =>
    rw [List.forall_mem_cons] at h
    change (f a >>= fun _ => as.forM f) = lift (g a >>= fun _ => as.forM g)
    rw [h.1, ih h.2]
    exact bind_eq_lift fun _ _ => rfl

lemma foldlM_eq_lift {P : γ → Prop} {f : γ → α → Strict γ} {g : γ → β → Except RuleError γ}
    {as : List α} {bs : List β}
    (h : List.Forall₂ (fun a b => ∀ c, P c → f c a = lift (g c b) ∧ ∀ c', g c b = .ok c' → P c')
      as bs) {c : γ} (hc : P c) : as.foldlM f c = lift (bs.foldlM g c) := by
  induction h generalizing c with
  | nil => rfl
  | cons hab _ ih =>
    rw [List.foldlM_cons, List.foldlM_cons, (hab c hc).1]
    exact bind_eq_lift fun c' hc' => ih ((hab c hc).2 c' hc')

lemma mapM_read_eq_ok {as : List α} {positions : List Nat}
    (h : ∀ i ∈ positions, i < as.length) :
    positions.mapM (read as) = .ok (positions.filterMap fun i => as[i]?) := by
  induction positions with
  | nil => rfl
  | cons i positions ih =>
    rw [List.forall_mem_cons] at h
    have hi := List.getElem?_eq_getElem h.1
    rw [List.mapM_cons, read_eq_ok hi, ih h.2, List.filterMap_cons_some hi]
    rfl

end Strict

lemma forall₂_zipIdx_zip {α β : Type} {as : List α} {bs : List β} (h : as.length = bs.length) :
    List.Forall₂ (fun p q => q.1 = p.1 ∧ bs[p.2]? = some q.2) as.zipIdx (List.zip as bs) := by
  refine forall₂_of_getElem? (by simp [h]) fun i p q hp hq => ?_
  obtain ⟨a, b⟩ := q
  obtain ⟨ha, hb⟩ := List.getElem?_zip_eq_some.mp hq
  rw [List.getElem?_zipIdx, ha] at hp
  obtain rfl := Option.some.inj hp
  exact ⟨rfl, by simpa using hb⟩

/-! ### Strict rules -/

/-- What a strict rule says of the results, and the results it can compute. -/
structure StrictRule where
  infer : Context → Strict (List TensorType)
  fold : Context → Strict (Option (List (Option Tensor))) := fun _ => .ok none

namespace StrictRule

/-- A strict rule comes to the same as a rule, and where it computes results it is not at fault
unless it says nothing of them for the same fault. -/
structure Mirrors (s : StrictRule) (r : Rule) : Prop where
  infer : ∀ c, s.infer c = Strict.lift (r.infer c)
  fold : ∀ c, s.fold c = .ok (r.fold c) ∨
    ∃ f, s.fold c = .error (.fault f) ∧ s.infer c = .error (.fault f)

/-- A rule that reads no list by position and does not divide. -/
def ofRule (r : Rule) : StrictRule where
  infer c := Strict.lift (r.infer c)
  fold c := .ok (r.fold c)

lemma ofRule_mirrors (r : Rule) : (ofRule r).Mirrors r := ⟨fun _ => rfl, fun _ => .inl rfl⟩

end StrictRule

end TensorGraph
