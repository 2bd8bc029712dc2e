import TensorGraph.Binary
import TensorGraph.Wire.Schema
import TensorGraph.Wire.Varint

/-!
# Messages

A message in memory is the list of its field values by ascending field number; the values of a
repeated field keep their order. A scalar field that is absent has its default value, so a message
never holds a default value of a field that occurs at most once.
-/

namespace TensorGraph.Wire

/-- The value of a field. -/
inductive Value where
  /-- A whole number, in two's complement where the field is signed. -/
  | varint (word : UInt64)
  | fixed32 (word : UInt32)
  | fixed64 (word : UInt64)
  | text (s : String)
  | bytes (b : Bytes)
  /-- An inner message: its field values, each with the number of its field. -/
  | message (fields : List (Nat × Value))
deriving Inhabited, Repr

/-- The field values of a message, by ascending field number. -/
abbrev Message := List (Nat × Value)

mutual

def Value.decEq : (a b : Value) → Decidable (a = b)
  | .varint v, b => match b with
    | .varint w => decidable_of_iff (v = w) (by simp)
    | .fixed32 _ | .fixed64 _ | .text _ | .bytes _ | .message _ => isFalse (by simp)
  | .fixed32 v, b => match b with
    | .fixed32 w => decidable_of_iff (v = w) (by simp)
    | .varint _ | .fixed64 _ | .text _ | .bytes _ | .message _ => isFalse (by simp)
  | .fixed64 v, b => match b with
    | .fixed64 w => decidable_of_iff (v = w) (by simp)
    | .varint _ | .fixed32 _ | .text _ | .bytes _ | .message _ => isFalse (by simp)
  | .text v, b => match b with
    | .text w => decidable_of_iff (v = w) (by simp)
    | .varint _ | .fixed32 _ | .fixed64 _ | .bytes _ | .message _ => isFalse (by simp)
  | .bytes v, b => match b with
    | .bytes w => decidable_of_iff (v = w) (by simp)
    | .varint _ | .fixed32 _ | .fixed64 _ | .text _ | .message _ => isFalse (by simp)
  | .message v, b => match b with
    | .message w => have := fieldsDecEq v w; decidable_of_iff (v = w) (by simp)
    | .varint _ | .fixed32 _ | .fixed64 _ | .text _ | .bytes _ => isFalse (by simp)

def fieldsDecEq : (a b : List (Nat × Value)) → Decidable (a = b)
  | [], [] => isTrue rfl
  | [], _ :: _ => isFalse (by simp)
  | _ :: _, [] => isFalse (by simp)
  | (m, v) :: a, (n, w) :: b =>
    have := Value.decEq v w
    have := fieldsDecEq a b
    decidable_of_iff (m = n ∧ v = w ∧ a = b) (by simp [and_assoc])

end

instance : DecidableEq Value := Value.decEq

mutual

/-- Whether two values are equal, where floating-point words compare as numbers. -/
def Value.agrees : Value → Value → Bool
  | .fixed32 v, .fixed32 w => Binary.agree32 v w
  | .fixed64 v, .fixed64 w => Binary.agree64 v w
  | .message v, .message w => fieldsAgree v w
  | v, w => v == w

/-- Whether two lists of field values are equal, where floating-point words compare as numbers. -/
def fieldsAgree : List (Nat × Value) → List (Nat × Value) → Bool
  | [], [] => true
  | (m, v) :: a, (n, w) :: b => m == n && v.agrees w && fieldsAgree a b
  | _, _ => false

end

namespace Value

/-- Whether a value is the one that an absent scalar field has. -/
def isDefault : Value → Bool
  | varint w => w == 0
  | fixed32 w => w == 0
  | fixed64 w => w == 0
  | text s => s.isEmpty
  | bytes b => b.isEmpty
  | message _ => false

def word? : Value → Option UInt64
  | varint w => some w
  | _ => none

def fixed32? : Value → Option UInt32
  | fixed32 w => some w
  | _ => none

def fixed64? : Value → Option UInt64
  | fixed64 w => some w
  | _ => none

def text? : Value → Option String
  | text s => some s
  | _ => none

def bytes? : Value → Option Bytes
  | bytes b => some b
  | _ => none

def message? : Value → Option Message
  | message m => some m
  | _ => none

end Value

/-! ## Values that are left out -/

/-- Whether a value counts as an absent one: the default value or a negative zero. -/
def Value.isNothing : Value → Bool
  | .fixed32 w => Binary.isZero32 w
  | .fixed64 w => w == 0 || w == 0x8000000000000000
  | v => v.isDefault

/-- Whether a value is left out when it is written. -/
def Field.omits (f : Field) (v : Value) : Bool := f.occurs == .single && v.isNothing

mutual

/-- A value without what the fields inside of it leave out. -/
def Value.settled (type : FieldType) : Value → Value
  | .message fields =>
    match type with
    | .message kind => .message (settledFields kind fields)
    | .scalar _ => .message fields
  | v => v

/-- The field values of a message without those that their fields leave out. -/
def settledFields (kind : Kind) : List (Nat × Value) → List (Nat × Value)
  | [] => []
  | (n, v) :: rest =>
    match kind.field? n with
    | none => settledFields kind rest
    | some f =>
      if f.omits v then settledFields kind rest
      else (n, v.settled f.type) :: settledFields kind rest

end

namespace Message

/-- A message of a given kind without the values that are left out when it is written. -/
def settled (kind : Kind) (m : Message) : Message := settledFields kind m

/-- Whether two messages of a kind are equal, where floating-point words compare as numbers and an
absent one is zero. -/
def agrees (kind : Kind) (a b : Message) : Bool := fieldsAgree (a.settled kind) (b.settled kind)

/-- The values of a field, in order. -/
def values (m : Message) (number : Nat) : List Value :=
  m.filterMap fun (n, v) => if n = number then some v else none

/-! ## Reading fields -/

def words (m : Message) (number : Nat) : List UInt64 := (m.values number).filterMap Value.word?
def fixed32s (m : Message) (number : Nat) : List UInt32 :=
  (m.values number).filterMap Value.fixed32?
def fixed64s (m : Message) (number : Nat) : List UInt64 :=
  (m.values number).filterMap Value.fixed64?
def texts (m : Message) (number : Nat) : List String := (m.values number).filterMap Value.text?
def chunks (m : Message) (number : Nat) : List Bytes := (m.values number).filterMap Value.bytes?
def messages (m : Message) (number : Nat) : List Message :=
  (m.values number).filterMap Value.message?

/-- The whole number in a field, zero if it is absent. -/
def word (m : Message) (number : Nat) : UInt64 := (m.words number).head?.getD 0

def int64 (m : Message) (number : Nat) : Int64 := (m.word number).toInt64

def int32 (m : Message) (number : Nat) : Int32 := (m.word number).toUInt32.toInt32

def int64s (m : Message) (number : Nat) : List Int64 := (m.words number).map UInt64.toInt64

def int32s (m : Message) (number : Nat) : List Int32 :=
  (m.words number).map fun w => w.toUInt32.toInt32

def fixed32 (m : Message) (number : Nat) : UInt32 := (m.fixed32s number).head?.getD 0

def text (m : Message) (number : Nat) : String := (m.texts number).head?.getD ""

def chunk (m : Message) (number : Nat) : Bytes := (m.chunks number).head?.getD []

def message? (m : Message) (number : Nat) : Option Message := (m.messages number).head?

/-! ## Making fields

Each function gives the field values for one field; the values of a message are those of its
fields, concatenated by ascending number. -/

/-- A field that occurs at most once: nothing for its default value. -/
def ofValue (number : Nat) (v : Value) : Message := if v.isDefault then [] else [(number, v)]

def ofInt64 (number : Nat) (n : Int64) : Message := ofValue number (.varint n.toUInt64)
def ofInt32 (number : Nat) (n : Int32) : Message := ofValue number (.varint n.toInt64.toUInt64)
def ofFixed32 (number : Nat) (w : UInt32) : Message := ofValue number (.fixed32 w)
def ofText (number : Nat) (s : String) : Message := ofValue number (.text s)
def ofChunk (number : Nat) (b : Bytes) : Message := ofValue number (.bytes b)

def ofValues (number : Nat) (vs : List Value) : Message := vs.map fun v => (number, v)

def ofInt64s (number : Nat) (ns : List Int64) : Message :=
  ofValues number (ns.map fun n => .varint n.toUInt64)
def ofInt32s (number : Nat) (ns : List Int32) : Message :=
  ofValues number (ns.map fun n => .varint n.toInt64.toUInt64)
def ofUInt64s (number : Nat) (ns : List UInt64) : Message := ofValues number (ns.map .varint)
def ofFixed32s (number : Nat) (ws : List UInt32) : Message := ofValues number (ws.map .fixed32)
def ofFixed64s (number : Nat) (ws : List UInt64) : Message := ofValues number (ws.map .fixed64)
def ofTexts (number : Nat) (ss : List String) : Message := ofValues number (ss.map .text)
def ofChunks (number : Nat) (bs : List Bytes) : Message := ofValues number (bs.map .bytes)
def ofMessages (number : Nat) (ms : List Message) : Message := ofValues number (ms.map .message)
def ofMessage? (number : Nat) (m : Option Message) : Message := ofMessages number m.toList

end Message

end TensorGraph.Wire
