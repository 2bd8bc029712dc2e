import TensorGraph.Rule.Basic

/-!
# Joining and splitting

Tensors are put one behind the other along an axis, or one is cut into parts along it.
-/

namespace TensorGraph.Rule

/-- The sum of two extents; unknown if one of them is, or if it is not below `wordLimit`. -/
def sumDim : Dim → Dim → Dim
  | .known a, .known b => wordDim (a + b)
  | _, _ => .unknown

/-- Joins extents along an axis; all others must describe the same extent. -/
def joinDims (axis : Nat) (a b : List Dim) : Option (List Dim) :=
  (List.zip a b).zipIdx.mapM fun ((x, y), i) => if i = axis then some (sumDim x y) else x.merge y

/-- Joins the shape `next` to what the shapes from `first` on were joined to. -/
def joinNext (axis : Nat) (first : Shape) (dims : List Dim) (next : Shape) :
    Except RuleError (List Dim) :=
  if next.rank ≠ first.rank then .error (.shape (.incompatible "concat" first next))
  else
    match joinDims axis dims next.dims with
    | some dims => .ok dims
    | none => .error (.shape (.incompatible "concat" first next))

/-- All operands that are there are joined along an axis. -/
def concatInfer (c : Context) : Typing := do
  match c.node.int? "axis" with
  | none => .error (.missingAttribute "axis")
  | some axis =>
    match ← c.present.mapM fun (i, _) => c.shapeAt i with
    | [] => .error (.missingInput 0)
    | first :: rest =>
      let position ← axisIn first.rank axis
      let dims ← rest.foldlM (joinNext position first) first.dims
      return [⟨c.present.findSome? fun (_, o) => o.type.elem?, some ⟨dims⟩⟩]

/-- The values of an operand that is a constant list of 64-bit integers. -/
def integerList? (c : Context) (i : Nat) : Option (List Int64) :=
  match c.constantAt? i with
  | some t => if t.extents.length = 1 then c.int64sAt? i else none
  | none => none

/-- Lists of integers are joined to one list. -/
def concatFold (c : Context) : Option (List (Option Tensor)) := do
  let parts ← c.present.mapM fun (i, _) => integerList? c i
  foldedIntegers [parts.flatten.length] parts.flatten

/-- Joining of operands along an axis. -/
def concat : Rule := ⟨concatInfer, concatFold⟩

/-- The first version in which the sizes of the parts are an operand. -/
def splitOperandVersion : Int := 13

/-- A product of two machine words, which has to be one. -/
def wordProduct (a b : Nat) : Except RuleError Nat :=
  if a * b < wordLimit then .ok (a * b) else .error (.abort (.overflow .multiplication))

/-- Cuts an extent into equal parts, as large as needed; the last ones may be smaller. -/
def evenParts (extent count : Nat) : Except RuleError (List Nat) :=
  let chunk := (extent + count - 1) / count
  (List.range count).mapM fun i => do
    let start ← wordProduct i chunk
    return min chunk (extent - start)

/-- The extents of the parts: the given sizes, or else equal parts of an extent that is known. -/
def splitParts (c : Context) (dim : Dim) (count : Nat) : Except RuleError (List Dim) :=
  match c.intsOperand "split" 1 splitOperandVersion with
  | .error _ => .ok (List.replicate count .unknown)
  | .ok (some sizes) =>
    if sizes.length ≠ count then .error (.invalid "split" (.sizesForOutputs sizes.length count))
    else sizes.mapM (extentOf "split")
  | .ok none =>
    match dim with
    | .known extent => (evenParts extent count).map (List.map Dim.known)
    | _ => .ok (List.replicate count .unknown)

/-- Cuts the operand along an axis, into as many parts as there are results. -/
def split (c : Context) : Typing := do
  let shape ← c.shapeAt 0
  let axis ← axisIn shape.rank (c.int "axis" 0)
  if c.node.outputs.isEmpty then return []
  let parts ← splitParts c ((shape.dims[axis]?).getD .unknown) c.node.outputs.length
  return parts.map fun d => c.withElem 0 ⟨shape.dims.set axis d⟩

end TensorGraph.Rule
