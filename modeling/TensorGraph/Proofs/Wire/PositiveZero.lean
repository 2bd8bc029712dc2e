import TensorGraph.Proofs.Wire.RoundTrip

/-!
# Negative zeros

A floating-point field that occurs at most once leaves out both zeros, so a negative zero comes back
as the positive one. Nothing else changes: a message with all such negative zeros made positive has
the same bytes, and conforms even where both zeros stand for an absent value.
-/

namespace TensorGraph.Wire

/-- Whether a value is a floating-point zero with a sign. -/
def Value.isNegativeZero : Value → Bool
  | .fixed32 w => w == 0x80000000
  | .fixed64 w => w == 0x8000000000000000
  | _ => false

/-- Whether a field loses the sign of a zero. -/
def Field.forgets (f : Field) (v : Value) : Bool := f.occurs == .single && v.isNegativeZero

mutual

/-- A value with every zero inside of it positive whose sign is not written. -/
def Value.positive (type : FieldType) : Value → Value
  | .message fields =>
    match type with
    | .message kind => .message (positiveFields kind fields)
    | .scalar _ => .message fields
  | v => v

/-- The field values of a message with every zero positive whose sign is not written; an absent
field is a positive zero. -/
def positiveFields (kind : Kind) : List (Nat × Value) → List (Nat × Value)
  | [] => []
  | (n, v) :: rest =>
    match kind.field? n with
    | none => (n, v) :: positiveFields kind rest
    | some f =>
      if f.forgets v then positiveFields kind rest
      else (n, v.positive f.type) :: positiveFields kind rest

end

/-- A message of a given kind with every zero positive whose sign is not written. -/
def Message.positive (kind : Kind) (m : Message) : Message := positiveFields kind m

/-! ### The bytes stay the same -/

lemma Value.isNothing_eq (v : Value) : v.isNothing = (v.isDefault || v.isNegativeZero) := by
  cases v <;> simp [Value.isNothing, Value.isDefault, Value.isNegativeZero, Binary.isZero32]

lemma Field.omits_of_forgets {f : Field} {v : Value} (h : f.forgets v = true) :
    f.omits v = true := by
  simp_all [Field.forgets, Field.omits, Value.isNothing_eq]

lemma Value.isNothing_positive (type : FieldType) (v : Value) :
    (v.positive type).isNothing = v.isNothing := by
  cases v with
  | message fields => cases type <;> rfl
  | _ => rfl

mutual

lemma Value.body_positive (type : FieldType) :
    ∀ v : Value, (v.positive type).body type = v.body type
  | .message fields => by
    cases type with
    | message kind => simp only [Value.positive, Value.body, fieldBodies_positiveFields kind fields]
    | scalar s => rfl
  | .varint _ => rfl
  | .fixed32 _ => rfl
  | .fixed64 _ => rfl
  | .text _ => rfl
  | .bytes _ => rfl

lemma fieldBodies_positiveFields (kind : Kind) :
    ∀ fields : List (Nat × Value),
      fieldBodies kind (positiveFields kind fields) = fieldBodies kind fields
  | [] => rfl
  | (n, v) :: rest => by
    have ih := fieldBodies_positiveFields kind rest
    rw [positiveFields, fieldBodies]
    cases hfield : kind.field? n with
    | none => simp only [fieldBodies, hfield, ih]
    | some f =>
      dsimp only
      by_cases hforgets : f.forgets v = true
      · rw [if_pos hforgets, if_pos (Field.omits_of_forgets hforgets), ih]
      · have homits : f.omits (v.positive f.type) = f.omits v :=
          congrArg (f.occurs == .single && ·) (Value.isNothing_positive f.type v)
        rw [if_neg hforgets]
        simp only [fieldBodies, hfield, homits, Value.body_positive f.type v, ih]

end

lemma fieldBodies_append (kind : Kind) (a b : Message) :
    fieldBodies kind (a ++ b) = fieldBodies kind a ++ fieldBodies kind b := by
  induction a with
  | nil => simp [fieldBodies]
  | cons entry a ih =>
    obtain ⟨n, v⟩ := entry
    rw [List.cons_append, fieldBodies, fieldBodies, ih]
    cases kind.field? n with
    | none => rfl
    | some f => cases homits : f.omits v <;> simp [homits]

/-- Inner messages may be exchanged for others with the same bytes. -/
lemma fieldBodies_ofMessages_congr {α : Type} {kind k : Kind} {number : Nat} {occurs : Occurrence}
    (hf : ⟨number, .message k, occurs⟩ ∈ kind.fields) {g h : α → Message} {as : List α}
    (hsame : ∀ a ∈ as, fieldBodies k (g a) = fieldBodies k (h a)) :
    fieldBodies kind (Message.ofMessages number (as.map g)) =
      fieldBodies kind (Message.ofMessages number (as.map h)) := by
  induction as with
  | nil => rfl
  | cons a as ih =>
    rw [List.forall_mem_cons] at hsame
    have hfield : kind.field? number = some ⟨number, .message k, occurs⟩ := Kind.field?_of_mem hf
    have homits (m : Message) : Field.omits ⟨number, .message k, occurs⟩ (.message m) = false :=
      Bool.and_false _
    have ih := ih hsame.2
    simp only [Message.ofMessages, Message.ofValues, List.map_cons, fieldBodies, hfield, homits,
      Value.body, hsame.1] at ih ⊢
    rw [ih]

lemma fieldBodies_ofMessages_positive {kind k : Kind} {number : Nat} {occurs : Occurrence}
    (hf : ⟨number, .message k, occurs⟩ ∈ kind.fields) (ms : List Message) :
    fieldBodies kind (Message.ofMessages number (ms.map (Message.positive k))) =
      fieldBodies kind (Message.ofMessages number ms) := by
  have hsame := fieldBodies_ofMessages_congr hf (h := id) fun m (_ : m ∈ ms) =>
    fieldBodies_positiveFields k m
  rwa [List.map_id] at hsame

/-! ### What was read conforms more strictly -/

/-- What a field keeps of a value. -/
def Kind.keep (kind : Kind) (n : Nat) (v : Value) : Option Value :=
  match kind.field? n with
  | none => some v
  | some f => if f.forgets v then none else some (v.positive f.type)

lemma positiveFields_eq_filterMap (kind : Kind) (m : Message) :
    positiveFields kind m =
      m.filterMap fun (n, v) => (kind.keep n v).map fun v => (n, v) := by
  induction m with
  | nil => rfl
  | cons entry m ih =>
    obtain ⟨n, v⟩ := entry
    rw [positiveFields, List.filterMap_cons, ih]
    cases hfield : kind.field? n with
    | none =>
      have hkeep : kind.keep n v = some v := by rw [Kind.keep, hfield]
      simp only [hkeep, Option.map_some]
    | some f =>
      have hkeep : kind.keep n v = if f.forgets v then none else some (v.positive f.type) := by
        rw [Kind.keep, hfield]
      cases hforgets : f.forgets v <;> simp [hkeep, hforgets]

lemma Kind.keep_of_mem {kind : Kind} {f : Field} (hf : f ∈ kind.fields) (v : Value) :
    kind.keep f.number v = if f.forgets v then none else some (v.positive f.type) := by
  rw [Kind.keep, Kind.field?_of_mem hf]

section

variable {absent absent' : Value → Bool} {inner inner' : Kind → Message → Prop} {kind : Kind}
  {m : Message}

/-- A message conforms if its fields accept what is kept of the values of a conforming one. -/
lemma Kind.ConformsWith.filterMap (hm : kind.ConformsWith absent inner m)
    {keep : Nat → Value → Option Value}
    (hkeep : ∀ f ∈ kind.fields, ∀ vs, f.Accepts absent inner vs →
      f.Accepts absent' inner' (vs.filterMap (keep f.number))) :
    kind.ConformsWith absent' inner'
      (m.filterMap fun (n, v) => (keep n v).map fun v => (n, v)) := by
  have hvalues (number : Nat) :
      Message.values (m.filterMap fun (n, v) => (keep n v).map fun v => (n, v)) number =
        (m.values number).filterMap (keep number) := under_filterMap keep number m
  have hofValues (number : Nat) (vs : List Value) :
      (Message.ofValues number vs).filterMap (fun (n, v) => (keep n v).map fun v => (n, v)) =
        Message.ofValues number (vs.filterMap (keep number)) := by
    rw [Message.ofValues, List.filterMap_map, Message.ofValues, List.map_filterMap]
    rfl
  have hne {number : Nat} (h : (m.values number).filterMap (keep number) ≠ []) :
      m.values number ≠ [] := fun hnil => h (by rw [hnil, List.filterMap_nil])
  constructor
  · conv_lhs => rw [hm.ordered, List.filterMap_flatMap]
    exact List.flatMap_congr fun f _ => by rw [hvalues, hofValues]
  · intro f hf
    rw [hvalues]
    exact hkeep f hf _ (hm.accepts f hf)
  · intro f hf hchoice hsome
    rw [hvalues] at hsome ⊢
    obtain ⟨hshort, honly⟩ := hm.choice f hf hchoice (hne hsome)
    refine ⟨Nat.le_trans (List.length_filterMap_le _ _) hshort, fun g hg hchoice' hsome' => ?_⟩
    rw [hvalues] at hsome'
    exact honly g hg hchoice' (hne hsome')

lemma FieldType.Admits.positive {type : FieldType} {v : Value}
    (hinner : ∀ k m, inner k m → inner' k (m.positive k)) (hv : type.Admits inner v) :
    type.Admits inner' (v.positive type) := by
  cases type with
  | scalar s =>
    cases v with
    | message fields => exact absurd hv (by simp [FieldType.Admits])
    | _ => cases s <;> exact hv
  | message k =>
    cases v with
    | message fields => exact hinner k fields hv
    | _ => exact absurd hv id

lemma Field.Accepts.positive {f : Field} {vs : List Value} (hf : f ∈ kind.fields)
    (hinner : ∀ k m, inner k m → inner' k (m.positive k))
    (hvs : f.Accepts Value.isDefault inner vs) :
    f.Accepts Value.isNothing inner' (vs.filterMap (kind.keep f.number)) := by
  have hkept : ∀ w ∈ vs.filterMap (kind.keep f.number),
      ∃ v ∈ vs, f.forgets v = false ∧ w = v.positive f.type := by
    intro w hw
    obtain ⟨v, hv, hkeep⟩ := List.mem_filterMap.mp hw
    rw [Kind.keep_of_mem hf] at hkeep
    split_ifs at hkeep with hforgets
    exact ⟨v, hv, by simpa using hforgets, (Option.some.inj hkeep).symm⟩
  constructor
  · intro w hw
    obtain ⟨v, hv, _, rfl⟩ := hkept w hw
    exact (hvs.admits v hv).positive hinner
  · intro hsingle
    obtain ⟨hshort, hdefault⟩ := hvs.single hsingle
    refine ⟨Nat.le_trans (List.length_filterMap_le _ _) hshort, fun w hw => ?_⟩
    obtain ⟨v, hv, hforgets, rfl⟩ := hkept w hw
    have hnegative : v.isNegativeZero = false := by simpa [Field.forgets, hsingle] using hforgets
    rw [Value.isNothing_positive, Value.isNothing_eq, hdefault v hv, hnegative, Bool.or_false]

lemma Kind.ConformsWith.positive (hinner : ∀ k m, inner k m → inner' k (m.positive k))
    (hm : kind.ConformsWith Value.isDefault inner m) :
    kind.ConformsWith Value.isNothing inner' (m.positive kind) := by
  rw [Message.positive, positiveFields_eq_filterMap]
  exact hm.filterMap fun f hf vs hvs => hvs.positive hf hinner

end

/-- What was read conforms, with every zero positive whose sign is not written, even where both
zeros stand for an absent value. -/
theorem Kind.Conforms.positive {limit : Nat} {kind : Kind} {m : Message}
    (hm : kind.Conforms Value.isDefault limit m) :
    kind.Conforms Value.isNothing limit (m.positive kind) := by
  induction limit generalizing kind m with
  | zero => exact Kind.ConformsWith.positive (fun _ _ hfalse => hfalse) hm
  | succ limit ih => exact Kind.ConformsWith.positive (fun _ _ => ih) hm

/-! ### Messages without floating-point fields -/

/-- Whether no message of a kind, nor any inside of it, has a floating-point number in a field that
occurs at most once. -/
def Kind.isFloatFree : Kind → Bool
  | model | trainingInfo | function | graph | node | attr => false
  | _ => true

lemma Kind.isFloatFree_fields {kind : Kind} (hkind : kind.isFloatFree = true) :
    ∀ f ∈ kind.fields, (∀ k, f.type = .message k → k.isFloatFree = true) ∧
      (f.occurs = .single → f.type ≠ .scalar .float ∧ f.type ≠ .scalar .double) := by
  cases kind <;> simp [Kind.isFloatFree] at hkind <;>
    simp [Kind.fields, Field.one, Field.many, Field.array, Field.alternative, Field.inner,
      Field.inners, Kind.isFloatFree]

section

variable {inner inner' : Kind → Message → Prop} {kind : Kind} {m : Message}

lemma FieldType.Admits.imp {type : FieldType} {v : Value}
    (hinner : ∀ k m, type = .message k → inner k m → inner' k m) (hv : type.Admits inner v) :
    type.Admits inner' v := by
  cases type with
  | scalar s => cases s <;> cases v <;> exact hv
  | message k =>
    cases v with
    | message fields => exact hinner k fields rfl hv
    | _ => exact absurd hv id

lemma FieldType.Admits.isNegativeZero_eq_false {type : FieldType} {v : Value}
    (hv : type.Admits inner v) (htype : type ≠ .scalar .float ∧ type ≠ .scalar .double) :
    v.isNegativeZero = false := by
  cases v with
  | fixed32 w =>
    cases type with
    | scalar s => cases s <;> simp_all [FieldType.Admits]
    | message k => exact absurd hv id
  | fixed64 w =>
    cases type with
    | scalar s => cases s <;> simp_all [FieldType.Admits]
    | message k => exact absurd hv id
  | _ => rfl

lemma Kind.ConformsWith.isNothing (hkind : kind.isFloatFree = true)
    (hinner : ∀ k m, k.isFloatFree = true → inner k m → inner' k m)
    (hm : kind.ConformsWith Value.isDefault inner m) :
    kind.ConformsWith Value.isNothing inner' m := by
  refine ⟨hm.ordered, fun f hf => ⟨fun v hv => ?_, fun hsingle => ?_⟩, hm.choice⟩
  · refine ((hm.accepts f hf).admits v hv).imp fun k m hk => ?_
    exact hinner k m ((Kind.isFloatFree_fields hkind f hf).1 k hk)
  · obtain ⟨hshort, hdefault⟩ := (hm.accepts f hf).single hsingle
    refine ⟨hshort, fun v hv => ?_⟩
    have hnegative := ((hm.accepts f hf).admits v hv).isNegativeZero_eq_false
      ((Kind.isFloatFree_fields hkind f hf).2 hsingle)
    rw [Value.isNothing_eq, hdefault v hv, hnegative, Bool.or_false]

end

/-- Of messages without floating-point fields nothing is lost. -/
theorem Kind.Conforms.isNothing {limit : Nat} {kind : Kind} {m : Message}
    (hkind : kind.isFloatFree = true) (hm : kind.Conforms Value.isDefault limit m) :
    kind.Conforms Value.isNothing limit m := by
  induction limit generalizing kind m with
  | zero => exact Kind.ConformsWith.isNothing hkind (fun _ _ _ hfalse => hfalse) hm
  | succ limit ih => exact Kind.ConformsWith.isNothing hkind (fun _ _ hk hinner => ih hk hinner) hm

end TensorGraph.Wire
