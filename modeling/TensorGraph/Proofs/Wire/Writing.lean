import TensorGraph.Proofs.Wire.Conformance
import TensorGraph.Proofs.Wire.Numbers

/-!
# What is written

The bytes of a message are those of its fields, and the readers get back from them, field by field,
one record for each value that was written on its own and one for all values of a packed field.
-/

namespace TensorGraph.Wire

/-! ### Fields of a written message -/

lemma under_fieldBodies {kind : Kind} {f : Field} (hf : f ∈ kind.fields) (m : Message) :
    under f.number (fieldBodies kind m) =
      ((m.values f.number).filter fun v => !f.omits v).map (Value.body f.type) := by
  induction m with
  | nil => rw [fieldBodies]; rfl
  | cons entry m ih =>
    obtain ⟨n, v⟩ := entry
    rw [fieldBodies, Message.values_eq_under, under_cons, ← Message.values_eq_under]
    cases hfield : kind.field? n with
    | none =>
      have hne : n ≠ f.number := by
        rintro rfl
        rw [Kind.field?_of_mem hf] at hfield
        exact absurd hfield nofun
      rw [if_neg hne]
      exact ih
    | some g =>
      obtain ⟨hg, rfl⟩ := Kind.mem_of_field? hfield
      dsimp only
      by_cases hnumber : g.number = f.number
      · obtain rfl := Kind.eq_of_number_eq hg hf hnumber
        cases homits : g.omits v <;> simp [homits, under_cons, ih]
      · cases homits : g.omits v <;> simp [hnumber, under_cons, ih]

lemma Message.encode_eq (kind : Kind) (m : Message) :
    m.encode kind = kind.fields.flatMap fun f =>
      f.write (((m.values f.number).filter fun v => !f.omits v).map (Value.body f.type)) :=
  List.flatMap_congr fun f hf => congrArg f.write (under_fieldBodies hf m)

/-! ### Values -/

/-- What a reader gets for one value that was written on its own. -/
def Value.raw (type : FieldType) : Value → RawValue
  | .varint w => .varint w.toNat
  | .fixed32 w => .fixed32 w.toNat
  | .fixed64 w => .fixed64 w.toNat
  | .text s => .chunk (Text.toBytes s)
  | .bytes b => .chunk b
  | .message fields =>
    match type with
    | .message kind => .chunk (Message.encode kind fields)
    | .scalar _ => .chunk []

lemma length_writeVarint_pos (n : Nat) : 0 < (writeVarint n).length := by
  unfold writeVarint
  split <;> simp

lemma length_le_length_writeChunk (b : Bytes) : b.length ≤ (writeChunk b).length := by
  simp [writeChunk]

lemma readRaw_writeChunk {b : Bytes} (hlength : (writeChunk b).length < 2 ^ 64) (rest : Bytes) :
    readRaw .chunk (writeChunk b ++ rest) = some (.chunk b, rest) := by
  have hshort : b.length < 2 ^ 64 := Nat.lt_of_le_of_lt (length_le_length_writeChunk b) hlength
  simp only [readRaw, writeChunk, List.append_assoc, readVarint_writeVarint hshort,
    Option.bind_some, readChunk_append, Option.map_some]

lemma readRaw_writeVarint (w : UInt64) (rest : Bytes) :
    readRaw .varint (writeVarint w.toNat ++ rest) = some (.varint w.toNat, rest) := by
  simp only [readRaw, readVarint_writeVarint w.toNat_lt, Option.map_some]

lemma readChunk_writeWord (width n : Nat) (rest : Bytes) :
    readChunk width (writeWord width n ++ rest) = some (writeWord width n, rest) := by
  have hread := readChunk_append (writeWord width n) rest
  rwa [length_writeWord] at hread

lemma readRaw_fixed32 (w : UInt32) (rest : Bytes) :
    readRaw .fixed32 (writeWord 4 w.toNat ++ rest) = some (.fixed32 w.toNat, rest) := by
  have hword : wordOf (writeWord 4 w.toNat) = w.toNat := wordOf_writeWord w.toNat_lt
  simp only [readRaw, readChunk_writeWord, Option.map_some, hword]

lemma readRaw_fixed64 (w : UInt64) (rest : Bytes) :
    readRaw .fixed64 (writeWord 8 w.toNat ++ rest) = some (.fixed64 w.toNat, rest) := by
  have hword : wordOf (writeWord 8 w.toNat) = w.toNat := wordOf_writeWord w.toNat_lt
  simp only [readRaw, readChunk_writeWord, Option.map_some, hword]

variable {inner : Kind → Message → Prop}

lemma readRaw_body {type : FieldType} {v : Value} (hv : type.Admits inner v)
    (hlength : (v.body type).length < 2 ^ 64) (rest : Bytes) :
    readRaw type.wireType (v.body type ++ rest) = some (v.raw type, rest) := by
  fun_cases FieldType.Admits inner type v with
  | case1 w | case2 w | case3 w =>
    simp only [Value.body]
    exact readRaw_writeVarint w rest
  | case4 w =>
    simp only [Value.body]
    exact readRaw_fixed32 w rest
  | case5 w =>
    simp only [Value.body]
    exact readRaw_fixed64 w rest
  | case6 s =>
    simp only [Value.body] at hlength ⊢
    exact readRaw_writeChunk hlength rest
  | case7 b =>
    simp only [Value.body] at hlength ⊢
    exact readRaw_writeChunk hlength rest
  | case8 kind fields =>
    simp only [Value.body] at hlength ⊢
    exact readRaw_writeChunk hlength rest
  | case9 => simp_all [FieldType.Admits]

lemma Scalar.ofRaw?_raw {s : Scalar} {v : Value} (hv : (FieldType.scalar s).Admits inner v) :
    s.ofRaw? (v.raw (.scalar s)) = some v := by
  cases s <;> cases v <;> simp only [FieldType.Admits] at hv
  case int32.varint w => exact congrArg (some ∘ Value.varint) hv.symm
  case int64.varint w => exact congrArg (some ∘ Value.varint) UInt64.ofNat_toNat
  case uint64.varint w => exact congrArg (some ∘ Value.varint) UInt64.ofNat_toNat
  case float.fixed32 w => exact congrArg (some ∘ Value.fixed32) UInt32.ofNat_toNat
  case double.fixed64 w => exact congrArg (some ∘ Value.fixed64) UInt64.ofNat_toNat
  case text.text s => exact congrArg (Option.map Value.text) (Text.fromUTF8?_toByteArray_toBytes s)
  case bytes.bytes b => rfl

lemma Scalar.length_body_pos {s : Scalar} {v : Value} (hs : s.isPackable = true)
    (hv : (FieldType.scalar s).Admits inner v) : 0 < (v.body (.scalar s)).length := by
  cases s <;> cases v <;> simp [FieldType.Admits, Scalar.isPackable] at hs hv <;>
    simp [Value.body, length_writeVarint_pos]

lemma Scalar.valuesOfRaw?_raw {s : Scalar} {v : Value}
    (hv : (FieldType.scalar s).Admits inner v) :
    s.valuesOfRaw? (v.raw (.scalar s)) = some [v] := by
  have hone : (s.ofRaw? (v.raw (.scalar s))).map (fun v => [v]) = some [v] := by
    rw [Scalar.ofRaw?_raw hv, Option.map_some]
  cases s <;> cases v <;> simp only [FieldType.Admits] at hv <;> exact hone

lemma Scalar.unpack?_of_readRaw {s : Scalar} {chunk rest : Bytes} {raw : RawValue}
    (h : readRaw s.wireType chunk = some (raw, rest)) (hshorter : rest.length < chunk.length) :
    s.unpack? chunk = (s.ofRaw? raw).bind fun v => (s.unpack? rest).map fun vs => v :: vs := by
  cases chunk with
  | nil => exact absurd hshorter (Nat.not_lt_zero _)
  | cons b tail =>
    rw [Scalar.unpack?, h]
    exact if_pos hshorter

/-- The values of a packed field come back from their chunk. -/
lemma Scalar.unpack?_flatten {s : Scalar} (hs : s.isPackable = true) {vs : List Value}
    (hvs : ∀ v ∈ vs, (FieldType.scalar s).Admits inner v)
    (hlength : (vs.map (Value.body (.scalar s))).flatten.length < 2 ^ 64) :
    s.unpack? (vs.map (Value.body (.scalar s))).flatten = some vs := by
  induction vs with
  | nil => rw [List.map_nil, List.flatten_nil, Scalar.unpack?]
  | cons v vs ih =>
    rw [List.forall_mem_cons] at hvs
    rw [List.map_cons, List.flatten_cons, List.length_append] at hlength
    have hpos := Scalar.length_body_pos hs hvs.1
    have hread := readRaw_body hvs.1 (by omega) (vs.map (Value.body (.scalar s))).flatten
    have hshorter : (vs.map (Value.body (.scalar s))).flatten.length <
        (v.body (.scalar s) ++ (vs.map (Value.body (.scalar s))).flatten).length := by
      rw [List.length_append]
      omega
    rw [List.map_cons, List.flatten_cons, Scalar.unpack?_of_readRaw hread hshorter,
      Scalar.ofRaw?_raw hvs.1, Option.bind_some, ih hvs.2 (by omega), Option.map_some]

lemma Scalar.valuesOfRaw?_chunk {s : Scalar} (hs : s.isPackable = true) {vs : List Value}
    (hvs : ∀ v ∈ vs, (FieldType.scalar s).Admits inner v)
    (hlength : (vs.map (Value.body (.scalar s))).flatten.length < 2 ^ 64) :
    s.valuesOfRaw? (.chunk (vs.map (Value.body (.scalar s))).flatten) = some vs := by
  unfold Scalar.valuesOfRaw?
  dsimp only
  rw [if_pos hs, Scalar.unpack?_flatten hs hvs hlength]

/-! ### Records -/

lemma readRecords_of_readRecord {known : Nat → Bool} {limit : Nat} {bytes rest : Bytes}
    {record : Option (Nat × RawValue)} (h : readRecord known limit bytes = some (record, rest)) :
    readRecords known limit bytes =
      (readRecords known limit rest).map fun records => record.toList ++ records := by
  cases bytes with
  | nil => exact absurd (readRecord_shorter h) (Nat.not_lt_zero _)
  | cons b tail =>
    rw [readRecords]
    split
    · rename_i hnone
      rw [hnone] at h
      cases h
    · rename_i hsome
      rw [hsome] at h
      obtain ⟨rfl, rfl⟩ := Prod.mk.inj (Option.some.inj h)
      rfl

lemma readRecords_writeKey {known : Nat → Bool} {limit number : Nat} (hknown : known number = true)
    (hnumber : 1 ≤ number ∧ number < 2 ^ 29) {w : WireType} {body rest : Bytes} {raw : RawValue}
    (hraw : readRaw w (body ++ rest) = some (raw, rest)) :
    readRecords known limit (writeKey number w ++ body ++ rest) =
      (readRecords known limit rest).map fun records => (number, raw) :: records := by
  have hrecord : readRecord known limit (writeKey number w ++ body ++ rest) =
      some (some (number, raw), rest) := by
    rw [readRecord, List.append_assoc, readKey_writeKey w hnumber.1 hnumber.2]
    simp only [hknown, if_true, hraw, Option.map_some]
  exact readRecords_of_readRecord hrecord

/-- What a reader gets for the values of one field. -/
def Field.raws (f : Field) (vs : List Value) : List RawValue :=
  match f.occurs with
  | .packed => if vs.isEmpty then [] else [.chunk (vs.map (Value.body f.type)).flatten]
  | _ => vs.map (Value.raw f.type)

lemma Field.write_of_ne_packed {f : Field} (hf : f.occurs ≠ .packed) (bodies : List Bytes) :
    f.write bodies = bodies.flatMap fun body => writeKey f.number f.type.wireType ++ body := by
  unfold Field.write
  split
  · contradiction
  · rfl

lemma Field.raws_of_ne_packed {f : Field} (hf : f.occurs ≠ .packed) (vs : List Value) :
    f.raws vs = vs.map (Value.raw f.type) := by
  unfold Field.raws
  split
  · contradiction
  · rfl

lemma Field.length_body_le {f : Field} (hf : f.occurs ≠ .packed) {vs : List Value} {v : Value}
    (hv : v ∈ vs) : (v.body f.type).length ≤ (f.write (vs.map (Value.body f.type))).length := by
  rw [Field.write_of_ne_packed hf]
  obtain ⟨before, after, rfl⟩ := List.append_of_mem hv
  simp only [List.map_append, List.map_cons, List.flatMap_append, List.flatMap_cons,
    List.length_append]
  omega

lemma Field.length_flatten_le {f : Field} (hf : f.occurs = .packed) (vs : List Value) :
    (vs.map (Value.body f.type)).flatten.length ≤
      (f.write (vs.map (Value.body f.type))).length := by
  cases vs with
  | nil => exact Nat.zero_le _
  | cons v vs =>
    simp only [Field.write, hf, List.map_cons, List.isEmpty_cons, Bool.false_eq_true, if_false,
      List.length_append]
    exact Nat.le_trans (length_le_length_writeChunk _) (Nat.le_add_left _ _)

lemma readRecords_bodies {known : Nat → Bool} {limit : Nat} {f : Field}
    (hknown : known f.number = true) (hnumber : 1 ≤ f.number ∧ f.number < 2 ^ 29)
    {vs : List Value} (hvs : ∀ v ∈ vs, f.type.Admits inner v)
    (hlength : ∀ v ∈ vs, (v.body f.type).length < 2 ^ 64) (rest : Bytes) :
    readRecords known limit
        (((vs.map (Value.body f.type)).flatMap fun body =>
          writeKey f.number f.type.wireType ++ body) ++ rest) =
      (readRecords known limit rest).map fun records =>
        ((vs.map (Value.raw f.type)).map fun raw => (f.number, raw)) ++ records := by
  induction vs with
  | nil => simp
  | cons v vs ih =>
    rw [List.forall_mem_cons] at hvs hlength
    have hraw := readRaw_body hvs.1 hlength.1
    rw [List.map_cons, List.flatMap_cons, List.append_assoc,
      readRecords_writeKey hknown hnumber (hraw _), ih hvs.2 hlength.2, Option.map_map]
    rfl

/-- The records of a written field come back, ahead of those that follow. -/
lemma readRecords_write {known : Nat → Bool} {limit : Nat} {f : Field}
    (hknown : known f.number = true) (hnumber : 1 ≤ f.number ∧ f.number < 2 ^ 29)
    {vs : List Value} (hvs : ∀ v ∈ vs, f.type.Admits inner v)
    (hlength : (f.write (vs.map (Value.body f.type))).length < 2 ^ 64) (rest : Bytes) :
    readRecords known limit (f.write (vs.map (Value.body f.type)) ++ rest) =
      (readRecords known limit rest).map fun records =>
        ((f.raws vs).map fun raw => (f.number, raw)) ++ records := by
  by_cases hpacked : f.occurs = .packed
  · cases vs with
    | nil => simp [Field.write, Field.raws, hpacked]
    | cons v vs =>
      simp only [Field.write, Field.raws, hpacked, List.map_cons, List.isEmpty_cons,
        Bool.false_eq_true, if_false, List.length_append] at hlength ⊢
      exact readRecords_writeKey hknown hnumber (readRaw_writeChunk (by omega) rest)
  · rw [Field.write_of_ne_packed hpacked, Field.raws_of_ne_packed hpacked]
    refine readRecords_bodies hknown hnumber hvs (fun v hv => ?_) rest
    exact Nat.lt_of_le_of_lt (Field.length_body_le hpacked hv) hlength

lemma readRecords_flatMap {known : Nat → Bool} {limit : Nat} {fields : List Field}
    (hfields : ∀ f ∈ fields, known f.number = true ∧ 1 ≤ f.number ∧ f.number < 2 ^ 29)
    {vs : Field → List Value} (hvs : ∀ f ∈ fields, ∀ v ∈ vs f, f.type.Admits inner v)
    (hlength : (fields.flatMap fun f => f.write ((vs f).map (Value.body f.type))).length < 2 ^ 64) :
    readRecords known limit (fields.flatMap fun f => f.write ((vs f).map (Value.body f.type))) =
      some (fields.flatMap fun f => (f.raws (vs f)).map fun raw => (f.number, raw)) := by
  induction fields with
  | nil => rw [List.flatMap_nil, readRecords]; rfl
  | cons f fields ih =>
    rw [List.forall_mem_cons] at hfields hvs
    rw [List.flatMap_cons, List.length_append] at hlength
    rw [List.flatMap_cons, List.flatMap_cons,
      readRecords_write hfields.1.1 hfields.1.2 hvs.1 (by omega), ih hfields.2 hvs.2 (by omega),
      Option.map_some]

end TensorGraph.Wire
