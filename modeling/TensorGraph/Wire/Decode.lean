import TensorGraph.Wire.Message
import TensorGraph.Wire.WireType

/-!
# Reading messages

`Message.decode?` reads the bytes of a message. Fields may come in any order and more than once: of
a field that occurs at most once the last value counts, and the occurrences of an inner message are
one message whose fields come one after the other. Messages may nest `nestingLimit` deep.
-/

namespace TensorGraph.Wire

/-- How deep messages may nest inside the outermost one. -/
def nestingLimit : Nat := 100

/-- Reads one field value: `none` in the first place if its field is not known and it was passed
over. Where no deeper nesting is allowed (`limit = 0`), an unknown field is not passed over. -/
def readRecord (known : Nat → Bool) (limit : Nat) (bytes : Bytes) :
    Option (Option (Nat × RawValue) × Bytes) :=
  match readKey bytes with
  | none => none
  | some ((number, w), rest) =>
    if known number then
      (readRaw w rest).map fun (v, rest) => (some (number, v), rest)
    else if limit = 0 then none
    else if w = .groupStart then (skipGroups limit [number] rest).map fun rest => (none, rest)
    else (readRaw w rest).map fun (_, rest) => (none, rest)

theorem readRecord_shorter {known : Nat → Bool} {limit : Nat} {bytes rest : Bytes}
    {record : Option (Nat × RawValue)}
    (h : readRecord known limit bytes = some (record, rest)) : rest.length < bytes.length := by
  unfold readRecord at h
  split at h
  · simp at h
  · rename_i number w tail hkey
    have hlt := readKey_shorter hkey
    split at h
    · obtain ⟨⟨v, tail'⟩, hraw, heq⟩ := Option.map_eq_some_iff.1 h
      simp only [Prod.mk.injEq] at heq
      rw [← heq.2]
      exact Nat.lt_of_le_of_lt (readRaw_shorter hraw) hlt
    · split at h
      · simp at h
      · split at h
        · obtain ⟨tail', hskip, heq⟩ := Option.map_eq_some_iff.1 h
          simp only [Prod.mk.injEq] at heq
          rw [← heq.2]
          exact Nat.lt_of_le_of_lt (skipGroups_shorter hskip) hlt
        · obtain ⟨⟨v, tail'⟩, hraw, heq⟩ := Option.map_eq_some_iff.1 h
          simp only [Prod.mk.injEq] at heq
          rw [← heq.2]
          exact Nat.lt_of_le_of_lt (readRaw_shorter hraw) hlt

/-- Reads all records of a message; what is known is kept. -/
def readRecords (known : Nat → Bool) (limit : Nat) (bytes : Bytes) :
    Option (List (Nat × RawValue)) :=
  match bytes with
  | [] => some []
  | b :: tail =>
    match h : readRecord known limit (b :: tail) with
    | none => none
    | some (record, rest) =>
      have := readRecord_shorter h
      (readRecords known limit rest).map fun records => record.toList ++ records
termination_by bytes.length
decreasing_by exact this

/-- A number of 32 bits, sign-extended to 64 bits. -/
def signExtend32 (n : Nat) : UInt64 := (UInt32.ofNat n).toInt32.toInt64.toUInt64

namespace Scalar

def ofRaw? : Scalar → RawValue → Option Value
  | .int32, .varint n => some (.varint (signExtend32 n))
  | .int64, .varint n => some (.varint (UInt64.ofNat n))
  | .uint64, .varint n => some (.varint (UInt64.ofNat n))
  | .float, .fixed32 n => some (.fixed32 (UInt32.ofNat n))
  | .double, .fixed64 n => some (.fixed64 (UInt64.ofNat n))
  | .text, .chunk b => (String.fromUTF8? b.toByteArray).map .text
  | .bytes, .chunk b => some (.bytes b)
  | _, _ => none

/-- Whether several values may be written together in one chunk. -/
def isPackable : Scalar → Bool
  | .text | .bytes => false
  | _ => true

/-- The values that were written together in one chunk. -/
def unpack? (s : Scalar) (chunk : Bytes) : Option (List Value) :=
  match chunk with
  | [] => some []
  | b :: tail =>
    match readRaw s.wireType (b :: tail) with
    | none => none
    | some (raw, rest) =>
      if rest.length < (b :: tail).length then
        (s.ofRaw? raw).bind fun v => (s.unpack? rest).map fun vs => v :: vs
      else none
termination_by chunk.length
decreasing_by assumption

/-- The values of one occurrence of a repeated scalar field, written alone or together. -/
def valuesOfRaw? (s : Scalar) : RawValue → Option (List Value)
  | .chunk b => if s.isPackable then s.unpack? b else (s.ofRaw? (.chunk b)).map fun v => [v]
  | raw => (s.ofRaw? raw).map fun v => [v]

end Scalar

def RawValue.chunk? : RawValue → Option Bytes
  | .chunk b => some b
  | _ => none

namespace Kind

def isChoice (kind : Kind) (number : Nat) : Bool :=
  (kind.field? number).any fun f => f.occurs == .choice

/-- The values of one field among all that was read; `inner` reads inner messages. -/
def decodeField? (kind : Kind) (inner : Kind → List Bytes → Option Message)
    (records : List (Nat × RawValue)) (f : Field) : Option Message :=
  let own := records.filterMap fun (n, raw) => if n = f.number then some raw else none
  match f.type, f.occurs with
  | .scalar s, .single => (own.mapM s.ofRaw?).map fun vs =>
      vs.getLast?.elim [] (Message.ofValue f.number)
  | .scalar s, .choice => (own.mapM s.ofRaw?).map fun vs =>
      match (records.filter fun (n, _) => kind.isChoice n).getLast? with
      | some (n, _) => if n = f.number then Message.ofValues f.number vs.getLast?.toList else []
      | none => []
  | .scalar s, _ => (own.mapM s.valuesOfRaw?).map fun vs => Message.ofValues f.number vs.flatten
  | .message k, .repeated => (own.mapM RawValue.chunk?).bind fun chunks =>
      (chunks.mapM fun b => inner k [b]).map fun ms => Message.ofMessages f.number ms
  | .message k, _ => (own.mapM RawValue.chunk?).bind fun chunks =>
      if chunks.isEmpty then some []
      else (inner k chunks).map fun m => Message.ofMessages f.number [m]

/-- Reads the occurrences of one message; `inner` reads the messages inside, and `limit` is how
deep they may nest. -/
def decodeWith? (inner : Kind → List Bytes → Option Message) (limit : Nat) (kind : Kind)
    (occurrences : List Bytes) : Option Message :=
  (occurrences.mapM (readRecords (fun n => (kind.field? n).isSome) limit)).bind fun records =>
    (kind.fields.mapM (kind.decodeField? inner records.flatten)).map List.flatten

/-- Reads the occurrences of one message in which messages may nest `limit` deep. -/
def decodeNested? : (limit : Nat) → Kind → List Bytes → Option Message
  | 0 => decodeWith? (fun _ _ => none) 0
  | limit + 1 => decodeWith? (decodeNested? limit) (limit + 1)

end Kind

/-- Reads a message of some kind. -/
def Message.decode? (kind : Kind) (bytes : Bytes) : Option Message :=
  kind.decodeNested? nestingLimit [bytes]

end TensorGraph.Wire
