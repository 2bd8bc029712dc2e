import TensorGraph.Rule.Elementwise

/-!
# Operators that rearrange extents

The elements stay the same and in the same order, only the shape changes; a constant of integers
keeps its values. A transposition also changes the order of the elements.
-/

namespace TensorGraph.Rule

/-- A rule that only changes the shape: a constant of 64-bit integers is carried over. -/
def relayout (infer : Context → Typing) : Rule where
  infer
  fold c := do
    let values ← c.int64sAt? 0
    let types ← (infer c).toOption
    let type ← types.head?
    let extents ← type.shape?.bind Shape.extents?
    foldedIntegers extents values

/-- The first version in which the target of a reshape is an operand. -/
def reshapeOperandVersion : Int := 5

/-- The target of a reshape, from the operand or from the setting. -/
def reshapeTarget? (c : Context) : Option (List Int) :=
  if reshapeOperandVersion ≤ c.opset ∨ c.has 1 then c.intsAt? 1 else c.node.ints? "shape"

/-- The extent that one entry of a target stands for. Zero copies an extent of the data unless it is
to be taken as it is, and minus one, which may stand once, leaves the extent open. -/
def reshapeEntry (zeroCopies : Bool) (data? : Option Shape) (target : List Int)
    (entry : Int × Nat) : Except RuleError Dim :=
  let (t, i) := entry
  if t = -1 then
    if -1 ∈ target.take i then .error (.invalid "shape" .severalOpen) else .ok .unknown
  else if t = 0 ∧ zeroCopies then
    match data? with
    | none => .ok .unknown
    | some s =>
      match s.dims[i]? with
      | some d => .ok d
      | none => .error (.invalid "shape" (.zeroBeyondRank i s.rank))
  else extentOf "shape" t

/-- Finds the extent that a target leaves open from the number of elements, if that is known. -/
def closeReshape (data? : Option Shape) (target : List Int) (dims : List Dim) :
    Except RuleError (List Dim) :=
  match target.idxOf? (-1) with
  | none => .ok dims
  | some at_ =>
    match data?.bind Shape.numElements?, productDim (dims.eraseIdx at_) with
    | some total, .known rest =>
      if rest = 0 ∨ total % rest ≠ 0 then
        .error (.invalid "shape" (.cannotReshape total target))
      else .ok (dims.set at_ (.known (total / rest)))
    | _, _ => .ok dims

/-- The extents that a target stands for. -/
def reshapeDims (zeroCopies : Bool) (data? : Option Shape) (target : List Int) :
    Except RuleError (List Dim) := do
  let dims ← target.zipIdx.mapM (reshapeEntry zeroCopies data? target)
  closeReshape data? target dims

/-- The data gets the shape of the target. Of a target that is not constant at least the number of
entries may be known. -/
def reshape (c : Context) : Typing := do
  let data ← c.typeAt 0
  match reshapeTarget? c with
  | some target =>
    let dims ← reshapeDims (c.int "allowzero" 0 == 0) data.shape? target
    return [c.withElem 0 ⟨dims⟩]
  | none =>
    match ((c.operand? 1).bind fun o => o.type.shape?).map Shape.dims with
    | some [.known rank] => return [c.withElem 0 (← declaredShape rank)]
    | _ => .error (.invalid "shape" .targetNotConstant)

/-- The extents before an axis are joined to one, and so are those from the axis on. -/
def flatten (c : Context) : Typing := do
  let shape ← c.shapeAt 0
  let rank := shape.rank
  let axis := c.int "axis" 1
  let position := if axis < 0 then axis + rank else axis
  if position < 0 ∨ rank < position then .error (.shape (.axisOutOfRange axis rank))
  let outer := shape.dims.take position.toNat
  let inner := shape.dims.drop position.toNat
  return [c.withElem 0 ⟨[productDim outer, productDim inner]⟩]

/-- The first version in which the axes of a squeeze are an operand. -/
def axesOperandVersion : Int := 13

/-- The axes that a squeeze drops; without a list, all whose extent is one. -/
def squeezeAxes (c : Context) (shape : Shape) : Except RuleError (List Nat) := do
  match ← c.intsOperand "axes" 1 axesOperandVersion with
  | some axes => axes.mapM (axisIn shape.rank)
  | none =>
    if shape.isFullyKnown then
      return (List.range shape.rank).filter fun i => shape.dims[i]?.any fun d => d.is 1
    else .error (.invalid "axes" .unknownExtents)

/-- Checks that an axis may be dropped: no other number than one is its extent. -/
def checkDroppable (shape : Shape) (i : Nat) : Except RuleError Unit :=
  match shape.dims[i]? with
  | some (.known n) => if n = 1 then .ok () else .error (.invalid "axes" (.notOne i n))
  | _ => .ok ()

/-- The extents that are at none of some positions. -/
def dropPositions (dims : List Dim) (positions : List Nat) : List Dim :=
  dims.zipIdx.filterMap fun (d, i) => if i ∈ positions then none else some d

/-- Drops axes of extent one. -/
def squeeze (c : Context) : Typing := do
  let shape ← c.shapeAt 0
  let positions ← squeezeAxes c shape
  positions.forM (checkDroppable shape)
  return [c.withElem 0 ⟨dropPositions shape.dims positions⟩]

/-- Ones at some positions, and given extents at the others; `count` positions from `i` on. -/
def insertOnes (positions : List Nat) : (count i : Nat) → List Dim → List Dim
  | 0, _, _ => []
  | count + 1, i, dims =>
    if i ∈ positions then .known 1 :: insertOnes positions count (i + 1) dims
    else
      match dims with
      | d :: rest => d :: insertOnes positions count (i + 1) rest
      | [] => .unknown :: insertOnes positions count (i + 1) []

/-- Adds axes of extent one, at positions of the result. -/
def unsqueeze (c : Context) : Typing := do
  let shape ← c.shapeAt 0
  match ← c.intsOperand "axes" 1 axesOperandVersion with
  | none => .error (.missingAttribute "axes")
  | some axes =>
    let rank := shape.rank + axes.length
    let positions ← axes.mapM (axisIn rank)
    if !decide positions.Nodup then .error (.invalid "axes" .repeatedAxis)
    return [c.withElem 0 ⟨insertOnes positions rank 0 shape.dims⟩]

/-- The positions that a transposition takes the extents from; without a list, from last to
first. -/
def permutation (c : Context) (rank : Nat) : Except RuleError (List Nat) := do
  match c.node.ints? "perm" with
  | none => return (List.range rank).reverse
  | some perm =>
    let positions ← perm.mapM (axisIn rank)
    if !decide positions.Nodup then .error (.invalid "perm" (.notPermutation positions))
    if positions.length ≠ rank then
      .error (.invalid "perm" (.lengthForRank positions.length rank))
    return positions

/-- Permutes the axes: axis `i` of the result is axis `perm[i]` of the operand. -/
def transpose (c : Context) : Typing := do
  let shape ← c.shapeAt 0
  let positions ← permutation c shape.rank
  return [c.withElem 0 ⟨positions.filterMap fun p => shape.dims[p]?⟩]

end TensorGraph.Rule
