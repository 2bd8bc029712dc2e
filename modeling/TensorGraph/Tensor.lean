import TensorGraph.Binary
import TensorGraph.TensorType
import TensorGraph.Wire.Varint

/-!
# Constant tensors

A named constant that is stored inside of a model. The elements stay in the form in which they were
stored; `Tensor.ints?` and `Tensor.singles?` read them as numbers where that form allows it.
-/

namespace TensorGraph

/-- The elements of a constant tensor as they are stored. -/
inductive Payload where
  | raw (bytes : Bytes)
  | floats (words : List UInt32)
  | int32s (values : List Int32)
  | int64s (values : List Int64)
  | doubles (words : List UInt64)
  | uint64s (values : List UInt64)
  | strings (values : List Bytes)
  /-- The elements are in another file, which these keys and values describe. -/
  | external (entries : List (String × String))
  | empty
deriving DecidableEq, Repr, Inhabited

/-- A constant, with the code of its element type if that is none of those known. -/
structure Tensor where
  name : String
  elem? : Option ElemType
  extents : List Nat
  payload : Payload
  doc : String := ""
  otherCode? : Option Int32 := none
deriving DecidableEq, Repr, Inhabited

/-- Whether two lists agree element by element. -/
def listsAgree {α : Type} (agree : α → α → Bool) : List α → List α → Bool
  | [], [] => true
  | a :: as, b :: bs => agree a b && listsAgree agree as bs
  | _, _ => false

def Payload.agrees : Payload → Payload → Bool
  | .floats v, .floats w => listsAgree Binary.agree32 v w
  | .doubles v, .doubles w => listsAgree Binary.agree64 v w
  | p, q => p == q

namespace Tensor

/-- A constant of 64-bit integers. -/
def ofIntegers (name : String) (extents : List Nat) (values : List Int64) : Tensor :=
  { name, elem? := some .int64, extents, payload := .int64s values }

/-- A constant of floating-point numbers in single precision. -/
def ofSingles (name : String) (extents : List Nat) (words : List UInt32) : Tensor :=
  { name, elem? := some .float, extents, payload := .floats words }

def shape (t : Tensor) : Shape := Shape.ofExtents t.extents

def type (t : Tensor) : TensorType := ⟨t.elem?, some t.shape⟩

def numElements? (t : Tensor) : Option Nat := checkedProduct t.extents

/-- A signed number of 64 bits that is not negative, if the unsigned word is one. -/
def signed? (w : UInt64) : Option Int64 :=
  if w.toNat < 0x8000000000000000 then some w.toInt64 else none

/-- The elements as signed integers. Floating-point and external payloads have none, nor have bytes
of any type but the signed ones of 32 and 64 bits. -/
def ints? (t : Tensor) : Option (List Int64) :=
  match t.payload, t.elem? with
  | _, none => none
  | .int64s vs, _ => some vs
  | .int32s vs, some .int32 => some (vs.map Int32.toInt64)
  | .int32s vs, some .int16 => some (vs.map Int32.toInt64)
  | .int32s vs, some .int8 => some (vs.map Int32.toInt64)
  | .uint64s ws, some .uint64 => ws.mapM signed?
  | .uint64s ws, some .uint32 => ws.mapM signed?
  | .raw b, some .int64 =>
    some ((Wire.chunksExact 8 b).map fun c => (UInt64.ofNat (Wire.wordOf c)).toInt64)
  | .raw b, some .int32 =>
    some ((Wire.chunksExact 4 b).map fun c => (UInt32.ofNat (Wire.wordOf c)).toInt32.toInt64)
  | _, _ => none

/-- The elements in single precision, if they are floating-point numbers. -/
def singles? (t : Tensor) : Option (List UInt32) :=
  match t.payload, t.elem? with
  | _, none => none
  | .floats ws, _ => some ws
  | .doubles ws, _ => some (ws.map Binary.narrow)
  | .raw b, some .float =>
    some ((Wire.chunksExact 4 b).map fun c => UInt32.ofNat (Wire.wordOf c))
  | .raw b, some .double =>
    some ((Wire.chunksExact 8 b).map fun c => Binary.narrow (UInt64.ofNat (Wire.wordOf c)))
  | _, _ => none

/-- How many bytes the elements take, if they are stored here. -/
def payloadBytes? (t : Tensor) : Option Nat :=
  match t.payload with
  | .raw b => some b.length
  | .floats ws => some (ws.length * 4)
  | .int32s vs => some (vs.length * 4)
  | .int64s vs => some (vs.length * 8)
  | .doubles ws => some (ws.length * 8)
  | .uint64s ws => some (ws.length * 8)
  | .strings vs => some vs.flatten.length
  | .external _ => none
  | .empty => some 0

/-- Whether two constants are equal, where floating-point words compare as numbers. -/
def agrees (a b : Tensor) : Bool :=
  a.payload.agrees b.payload && { a with payload := b.payload } == b

end Tensor

end TensorGraph
