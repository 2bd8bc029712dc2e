import TensorGraph.Proofs.Complaints

/-!
# Rules that do not give up

Of the built-in rules, only those of `Registry.abortingOps` give up, and only for operands that are
out of the ordinary.
-/

namespace TensorGraph

variable {α β : Type}

/-- There is a result, or a reason to give none. -/
def NeverAborts (x : Except RuleError α) : Prop := ∀ a, x ≠ .error (.abort a)

lemma neverAborts_iff {x : Except RuleError α} :
    NeverAborts x ↔ FailsOnly (fun e => ∀ a, e ≠ .abort a) x := by
  constructor
  · rintro h e rfl a rfl
    exact h a rfl
  · intro h a hx
    exact h _ hx a rfl

lemma Justified.neverAborts {c : Context} {needed : Nat} {x : Except RuleError α}
    (h : Justified c needed x) : NeverAborts x :=
  neverAborts_iff.mpr (h.mono fun _ he => he.2)

namespace NeverAborts

@[simp] lemma ok (a : α) : NeverAborts (.ok a) := nofun

@[simp] lemma error_iff {e : RuleError} :
    NeverAborts (.error e : Except RuleError α) ↔ ∀ a, e ≠ .abort a := by
  simp [NeverAborts]

lemma bind {x : Except RuleError α} {f : α → Except RuleError β} (hx : NeverAborts x)
    (hf : ∀ a, x = .ok a → NeverAborts (f a)) : NeverAborts (x >>= f) :=
  neverAborts_iff.mpr ((neverAborts_iff.mp hx).bind fun a ha => neverAborts_iff.mp (hf a ha))

lemma bind_eq_abort_iff {x : Except RuleError α} {f : α → Except RuleError β} {a : Abort}
    (hx : NeverAborts x) :
    x >>= f = .error (.abort a) ↔ ∃ y, x = .ok y ∧ f y = .error (.abort a) :=
  bind_eq_error_iff.trans (or_iff_right (hx a))

lemma mapM {f : α → Except RuleError β} {as : List α} (hf : ∀ a ∈ as, NeverAborts (f a)) :
    NeverAborts (as.mapM f) :=
  neverAborts_iff.mpr (FailsOnly.mapM fun a ha => neverAborts_iff.mp (hf a ha))

end NeverAborts

lemma Context.typeAt_neverAborts (c : Context) (i : Nat) : NeverAborts (c.typeAt i) :=
  (typeAt_justified (Nat.lt_succ_self i)).neverAborts

lemma Context.has_of_typeAt_eq_ok {c : Context} {i : Nat} {type : TensorType}
    (h : c.typeAt i = .ok type) : c.has i = true := by
  unfold Context.typeAt at h
  unfold Context.has
  split at h
  · rename_i o ho
    rw [ho]
    rfl
  · cases h

lemma Context.shapeAt_neverAborts (c : Context) (i : Nat) : NeverAborts (c.shapeAt i) :=
  (shapeAt_justified (Nat.lt_succ_self i)).neverAborts

lemma axisIn_neverAborts (rank : Nat) (axis : Int) : NeverAborts (axisIn rank axis) :=
  have h : Justified default 0 (axisIn rank axis) := axisIn_justified rank axis
  h.neverAborts

namespace Registry

lemma builtin_neverAborts :
    ∀ p ∈ builtin.rules, p.1 ∉ abortingOps → ∀ c, NeverAborts (p.2.infer c) :=
  fun p hp hop c => (builtin_justified p hp hop c).neverAborts

end Registry

end TensorGraph
