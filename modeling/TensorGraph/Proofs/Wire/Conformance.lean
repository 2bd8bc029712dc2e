import Mathlib.Algebra.Group.Nat.Defs
import Mathlib.Data.List.Nodup
import Mathlib.Tactic.Lemma
import TensorGraph.Proofs.Results
import TensorGraph.Wire.Decode

/-!
# Conforming messages

A message conforms to its kind if it has only values of the fields of the kind, by ascending field
number, each of the type of its field and as often as the field allows. Every message that was read
from bytes conforms.
-/

namespace TensorGraph.Wire

/-! ### Field tables -/

namespace Kind

lemma number_bounds (kind : Kind) : ∀ f ∈ kind.fields, 1 ≤ f.number ∧ f.number < 2 ^ 29 := by
  cases kind <;> decide

lemma numbers_nodup (kind : Kind) : (kind.fields.map Field.number).Nodup := by
  cases kind <;> decide

lemma occurs_form (kind : Kind) : ∀ f ∈ kind.fields,
    (∀ s, f.type = .scalar s → f.occurs = .packed → s.isPackable = true) ∧
      ∀ k, f.type = .message k → f.occurs = .single ∨ f.occurs = .repeated := by
  cases kind <;>
    simp [Kind.fields, Field.one, Field.many, Field.array, Field.alternative, Field.inner,
      Field.inners, Scalar.isPackable]

lemma mem_of_field? {kind : Kind} {n : Nat} {f : Field} (h : kind.field? n = some f) :
    f ∈ kind.fields ∧ f.number = n :=
  ⟨List.mem_of_find?_eq_some h, by simpa using List.find?_some h⟩

lemma eq_of_number_eq {kind : Kind} {f g : Field} (hf : f ∈ kind.fields) (hg : g ∈ kind.fields)
    (h : f.number = g.number) : f = g :=
  List.inj_on_of_nodup_map kind.numbers_nodup hf hg h

lemma field?_of_mem {kind : Kind} {f : Field} (hf : f ∈ kind.fields) :
    kind.field? f.number = some f := by
  cases h : kind.field? f.number with
  | none => exact absurd (List.find?_eq_none.mp h f hf) (by simp)
  | some g =>
    obtain ⟨hg, hnumber⟩ := mem_of_field? h
    rw [eq_of_number_eq hg hf hnumber]

end Kind

/-! ### Entries under a number -/

section Under

variable {α : Type}

/-- What stands under one number, in order. -/
def under (number : Nat) (entries : List (Nat × α)) : List α :=
  entries.filterMap fun (n, a) => if n = number then some a else none

lemma under_cons (number n : Nat) (a : α) (entries : List (Nat × α)) :
    under number ((n, a) :: entries) =
      if n = number then a :: under number entries else under number entries := by
  unfold under
  split_ifs with h <;> simp [h]

lemma under_append (number : Nat) (entries more : List (Nat × α)) :
    under number (entries ++ more) = under number entries ++ under number more :=
  List.filterMap_append

lemma under_map (number n : Nat) (as : List α) :
    under number (as.map fun a => (n, a)) = if n = number then as else [] := by
  induction as with
  | nil => simp [under]
  | cons a as ih =>
    rw [List.map_cons, under_cons, ih]
    split_ifs <;> rfl

lemma under_filterMap {β : Type} (g : Nat → α → Option β) (number : Nat)
    (entries : List (Nat × α)) :
    under number (entries.filterMap fun (n, a) => (g n a).map fun b => (n, b)) =
      (under number entries).filterMap (g number) := by
  induction entries with
  | nil => rfl
  | cons entry entries ih =>
    obtain ⟨n, a⟩ := entry
    by_cases hn : n = number
    · subst hn
      cases hg : g n a <;> simp [under_cons, hg, ih]
    · cases hg : g n a <;> simp [under_cons, hg, hn, ih]

lemma under_flatMap_of_notMem {fields : List Field} {number : Nat}
    (hnumber : number ∉ fields.map Field.number) (as : Field → List α) :
    under number (fields.flatMap fun g => (as g).map fun a => (g.number, a)) = [] := by
  induction fields with
  | nil => rfl
  | cons g fields ih =>
    rw [List.map_cons, List.mem_cons, not_or] at hnumber
    rw [List.flatMap_cons, under_append, under_map, if_neg (Ne.symm hnumber.1), ih hnumber.2]
    rfl

lemma under_flatMap {fields : List Field} (hnodup : (fields.map Field.number).Nodup)
    (as : Field → List α) {f : Field} (hf : f ∈ fields) :
    under f.number (fields.flatMap fun g => (as g).map fun a => (g.number, a)) = as f := by
  induction fields with
  | nil => simp at hf
  | cons g fields ih =>
    rw [List.map_cons, List.nodup_cons] at hnodup
    rw [List.flatMap_cons, under_append, under_map]
    rcases List.mem_cons.mp hf with rfl | hf
    · rw [if_pos rfl, under_flatMap_of_notMem hnodup.1, List.append_nil]
    · have hne : g.number ≠ f.number := fun h => hnodup.1 (h ▸ List.mem_map_of_mem hf)
      rw [if_neg hne, ih hnodup.2 hf, List.nil_append]

end Under

namespace Message

lemma values_eq_under (m : Message) (number : Nat) : m.values number = under number m := rfl

@[simp] lemma values_ofValues (number n : Nat) (vs : List Value) :
    values (ofValues number vs) n = if number = n then vs else [] := under_map n number vs

lemma ofValue_eq (number : Nat) (v : Value) :
    ofValue number v = ofValues number (if v.isDefault then [] else [v]) := by
  unfold ofValue
  split_ifs <;> rfl

lemma ofValues_getLast? (number : Nat) (vs : List Value) :
    vs.getLast?.elim [] (ofValue number) =
      ofValues number (vs.getLast?.toList.filter fun v => !v.isDefault) := by
  cases vs.getLast? with
  | none => rfl
  | some v => cases h : v.isDefault <;> simp [ofValue, ofValues, h]

end Message

/-! ### Conformance -/

/-- A value of a field; `inner` says which inner messages there are. -/
def FieldType.Admits (inner : Kind → Message → Prop) : FieldType → Value → Prop
  | .scalar .int32, .varint w => w = signExtend32 w.toNat
  | .scalar .int64, .varint _ => True
  | .scalar .uint64, .varint _ => True
  | .scalar .float, .fixed32 _ => True
  | .scalar .double, .fixed64 _ => True
  | .scalar .text, .text _ => True
  | .scalar .bytes, .bytes _ => True
  | .message kind, .message fields => inner kind fields
  | _, _ => False

/-- The values that a field may have at once; `absent` tells values that stand for absent ones. -/
structure Field.Accepts (absent : Value → Bool) (inner : Kind → Message → Prop) (f : Field)
    (vs : List Value) : Prop where
  admits : ∀ v ∈ vs, f.type.Admits inner v
  single : f.occurs = .single → vs.length ≤ 1 ∧ ∀ v ∈ vs, absent v = false

lemma Field.accepts_nil (absent : Value → Bool) (inner : Kind → Message → Prop) (f : Field) :
    f.Accepts absent inner [] :=
  ⟨nofun, fun _ => ⟨Nat.zero_le 1, nofun⟩⟩

/-- A message has values of its kind; `inner` says which inner messages there are. -/
structure Kind.ConformsWith (absent : Value → Bool) (inner : Kind → Message → Prop) (kind : Kind)
    (m : Message) : Prop where
  ordered : m = kind.fields.flatMap fun f => Message.ofValues f.number (m.values f.number)
  accepts : ∀ f ∈ kind.fields, f.Accepts absent inner (m.values f.number)
  choice : ∀ f ∈ kind.fields, f.occurs = .choice → m.values f.number ≠ [] →
    (m.values f.number).length ≤ 1 ∧
      ∀ g ∈ kind.fields, g.occurs = .choice → m.values g.number ≠ [] → g = f

/-- A message conforms to its kind, with messages nested `limit` deep at most. -/
def Kind.Conforms (absent : Value → Bool) : (limit : Nat) → Kind → Message → Prop
  | 0 => Kind.ConformsWith absent fun _ _ => False
  | limit + 1 => Kind.ConformsWith absent (Kind.Conforms absent limit)

lemma Kind.conforms_of_forall {absent : Value → Bool} {limit : Nat} {kind : Kind} {m : Message}
    (h : ∀ inner, kind.ConformsWith absent inner m) : kind.Conforms absent limit m := by
  cases limit <;> exact h _

end TensorGraph.Wire
