import TensorGraph.Rule.Basic
import TensorGraph.Text.Lossy

/-!
# Constants and shapes as data

Operators whose results are constants or depend on the shape of an operand rather than its
elements: constants, the shape of an operand as a list of integers, picking entries from such a
list, and shapes that are given as data.
-/

namespace TensorGraph.Rule

/-- Both ends of a range of axes, clamped to the rank; a negative end counts from the last axis. -/
def shapeRange (c : Context) (rank : Nat) : Nat × Nat :=
  let clamp (v : Int) : Nat := min (if v < 0 then v + rank else v).toNat rank
  let start := clamp (c.int "start" 0)
  (start, max (clamp (c.int "end" rank)) start)

/-- The list has an entry for each axis in the range. -/
def shapeInfer (c : Context) : Typing := do
  let shape ← c.shapeAt 0
  let (start, stop) := shapeRange c shape.rank
  return [.of .int64 (.ofExtents [stop - start])]

/-- An extent as an entry of a list, which is signed. -/
def signedExtent? (d : Dim) : Option Int64 :=
  d.extent?.bind fun n => if n < 0x8000000000000000 then some (Int64.ofNat n) else none

/-- The list is constant if all extents in the range are known. -/
def shapeFold (c : Context) : Option (List (Option Tensor)) := do
  let shape ← (c.shapeAt 0).toOption
  let (start, stop) := shapeRange c shape.rank
  let values ← ((shape.dims.take stop).drop start).mapM signedExtent?
  foldedIntegers [values.length] values

/-- The shape of the operand as a list of integers. -/
def shapeOf : Rule := ⟨shapeInfer, shapeFold⟩

/-- The axis of the data is replaced by all axes of the indices. -/
def gatherInfer (c : Context) : Typing := do
  let data ← c.shapeAt 0
  let indices ← c.shapeAt 1
  let axis ← axisIn data.rank (c.int "axis" 0)
  return [c.withElem 0 ⟨data.dims.take axis ++ indices.dims ++ data.dims.drop (axis + 1)⟩]

/-- The entry at an index; a negative one counts from the end. -/
def pick? (values : List Int64) (index : Int) : Option Int64 :=
  let position := if index < 0 then index + values.length else index
  if position < 0 then none else values[position.toNat]?

/-- Entries of a constant list at constant indices. -/
def gatherFold (c : Context) : Option (List (Option Tensor)) := do
  let data ← c.constantAt? 0
  if data.extents.length ≠ 1 then none
  let values ← c.int64sAt? 0
  let indices ← c.constantAt? 1
  let positions ← indices.ints?
  let picked ← positions.mapM fun i => pick? values i.toInt
  foldedIntegers indices.extents picked

/-- Picking entries of the data along an axis. -/
def gather : Rule := ⟨gatherInfer, gatherFold⟩

def stringConstant (extents : List Nat) (values : List String) : Tensor :=
  { name := "", elem? := some .string, extents, payload := .strings (values.map Text.toBytes) }

/-- The ways to give the value of a constant, the first of them first. -/
def constantForms (n : Node) : List (Option Tensor) :=
  [n.tensor? "value",
   (n.float? "value_float").map fun w => .ofSingles "" [] [w],
   (n.floats? "value_floats").map fun ws => .ofSingles "" [ws.length] ws,
   (n.attribute? "value_int").bind fun a =>
     match a with | .int v => some (.ofIntegers "" [] [v]) | _ => none,
   (n.attribute? "value_ints").bind fun a =>
     match a with | .ints vs => some (.ofIntegers "" [vs.length] vs) | _ => none,
   (n.string? "value_string").map fun s => stringConstant [] [s],
   (n.attribute? "value_strings").bind fun a =>
     match a with | .strings ss => some (stringConstant [ss.length] ss) | _ => none]

/-- The value of a constant, by the first form in which it is given. -/
def constantValue? (n : Node) : Option Tensor := (constantForms n).findSome? id

/-- A constant that the node has as a setting. -/
def constant : Rule where
  infer c := match constantValue? c.node with
    | some t => .ok [t.type]
    | none => .error (.missingAttribute "value")
  fold c := (constantValue? c.node).map fun t => [some t]

/-- Data of one value in a shape that the operand gives. If the operand is not constant, at least
the number of its entries has to be known. -/
def constantOfShape (c : Context) : Typing := do
  let elem := ((c.node.tensor? "value").bind Tensor.elem?).getD .float
  match c.intsAt? 0 with
  | some extents =>
    let dims ← extents.mapM (extentOf "input")
    return [.of elem ⟨dims⟩]
  | none =>
    let shape ← c.shapeAt 0
    match shape.dims.head? with
    | some (.known rank) => return [.of elem (← declaredShape rank)]
    | _ => .error (.invalid "input" .lengthUnknown)

/-- Broadcasts the operand with a shape that is given as data. -/
def expand (c : Context) : Typing := do
  let shape ← c.shapeAt 0
  match c.intsAt? 1 with
  | none => .error (.invalid "shape" .targetNotConstant)
  | some extents =>
    let dims ← extents.mapM (extentOf "shape")
    let result ← (shape.broadcast ⟨dims⟩).mapError .shape
    return [c.withElem 0 result]

end TensorGraph.Rule
