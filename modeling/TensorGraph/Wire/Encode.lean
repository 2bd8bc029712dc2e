import TensorGraph.Wire.Message
import TensorGraph.Wire.WireType

/-!
# Writing messages

`Message.encode` writes the fields of a message by ascending number. Scalars with their default
value are left out, the two zeros of a floating-point number alike; inner messages are kept even if
they are empty.
-/

namespace TensorGraph.Wire

/-- Writes the values of a field, each behind its key or all in one chunk. -/
def Field.write (f : Field) (bodies : List Bytes) : Bytes :=
  match f.occurs with
  | .packed =>
    if bodies.isEmpty then [] else writeKey f.number .chunk ++ writeChunk bodies.flatten
  | _ => bodies.flatMap fun body => writeKey f.number f.type.wireType ++ body

/-- Writes all fields of a kind, given the bytes of each value with the number of its field. -/
def Kind.write (kind : Kind) (bodies : List (Nat × Bytes)) : Bytes :=
  kind.fields.flatMap fun f =>
    f.write (bodies.filterMap fun (n, body) => if n = f.number then some body else none)

mutual

/-- The bytes of a value without its key. -/
def Value.body (type : FieldType) : Value → Bytes
  | .varint w => writeVarint w.toNat
  | .fixed32 w => writeWord 4 w.toNat
  | .fixed64 w => writeWord 8 w.toNat
  | .text s => writeChunk s.toUTF8.toList
  | .bytes b => writeChunk b
  | .message fields =>
    match type with
    | .message kind => writeChunk (kind.write (fieldBodies kind fields))
    | .scalar _ => writeChunk []

/-- The bytes of each value of a message, with the number of its field. -/
def fieldBodies (kind : Kind) : List (Nat × Value) → List (Nat × Bytes)
  | [] => []
  | (n, v) :: rest =>
    match kind.field? n with
    | none => fieldBodies kind rest
    | some f =>
      if f.omits v then fieldBodies kind rest
      else (n, v.body f.type) :: fieldBodies kind rest

end

/-- Writes a message of some kind. -/
def Message.encode (kind : Kind) (m : Message) : Bytes := kind.write (fieldBodies kind m)

end TensorGraph.Wire
