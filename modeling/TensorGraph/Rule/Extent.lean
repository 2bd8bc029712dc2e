import TensorGraph.Rule.Basic

/-!
# Operators that change extents

Padding, resizing and slicing keep the axes and change how far they reach. Where the operands are
not constant only the rank of the result is known.
-/

namespace TensorGraph.Rule

/-- Changes the extents at some positions one after the other, each by a function of its own. -/
def updateDims {α : Type} (rank : Nat) (change : α → Dim → Except RuleError Dim) :
    List (Nat × α) → List Dim → Except RuleError (List Dim)
  | [], dims => .ok dims
  | (axis, a) :: rest, dims =>
    match dims[axis]? with
    | none => .error (.abort (.outOfBounds axis rank))
    | some d =>
      match change a d with
      | .error e => .error e
      | .ok d => updateDims rank change rest (dims.set axis d)

theorem updateDims_cons {α : Type} {rank axis : Nat} {change : α → Dim → Except RuleError Dim}
    {a : α} {rest : List (Nat × α)} {dims : List Dim} {d : Dim} (h : dims[axis]? = some d) :
    updateDims rank change ((axis, a) :: rest) dims =
      (change a d >>= fun d => updateDims rank change rest (dims.set axis d)) := by
  rw [updateDims, h]
  dsimp only
  cases change a d <;> rfl

/-- The axes of a list, or all without one. -/
def axesOrAll (rank : Nat) : Option (List Int) → Except RuleError (List Nat)
  | none => .ok (List.range rank)
  | some axes => axes.mapM (axisIn rank)

/-- The first version in which the paddings are an operand. -/
def padOperandVersion : Int := 11

/-- An extent with padding at both ends, in total `delta`, which may be negative. -/
def paddedDim (delta : Int) : Dim → Except RuleError Dim
  | .known n =>
    if (n : Int) + delta < 0 then .error (.invalid "pads" (.negativePadded (n + delta)))
    else .ok (wordDim ((n : Int) + delta).toNat)
  | d => .ok (if delta = 0 then d else .unknown)

/-- Extents with padding: first the paddings before all axes, then those behind them. -/
def padDims (shape : Shape) (axes : List Nat) (pads : List Int) : Except RuleError (List Dim) :=
  if pads.length ≠ 2 * axes.length then
    .error (.invalid "pads" (.wrongCount (2 * axes.length) pads.length))
  else
    let deltas := List.zipWith (· + ·) pads (pads.drop axes.length)
    updateDims shape.rank paddedDim (List.zip axes deltas) shape.dims

/-- Pads both ends of some axes, or of all. Paddings that are not constant leave only the rank. -/
def pad (c : Context) : Typing := do
  let shape ← c.shapeAt 0
  let finish (pads : List Int) : Typing := do
    let axes ← axesOrAll shape.rank (c.intsAt? 3)
    let dims ← padDims shape axes pads
    return [c.withElem 0 ⟨dims⟩]
  match c.intsOperand "pads" 1 padOperandVersion with
  | .error _ => return [c.withElem 0 (.ofRank shape.rank)]
  | .ok (some pads) => finish pads
  | .ok none =>
    match c.node.ints? "paddings" with
    | some pads => finish pads
    | none => .error (.missingAttribute "pads")

/-- The floating-point number one. -/
def unitScale : UInt32 := 0x3F800000

/-- An extent times a scale in double precision, rounded down. -/
def scaledExtent (extent : Nat) (scale : UInt32) : Nat :=
  let size := Binary.double.round (.finite false extent 0)
  let product := Binary.double.round (size.mul (Binary.single.read scale.toNat))
  product.floorBelow wordLimit

/-- An extent times a scale; one that is not known stays as it is under the scale one. -/
def scaledDim (scale : UInt32) (d : Dim) : Dim :=
  match d with
  | .known n => .known (scaledExtent n scale)
  | d => if scale = unitScale then d else .unknown

/-- The positions of the scales and, if there are any, of the sizes among the operands. -/
def resizeOperands (c : Context) : Nat × Option Nat :=
  if c.node.op = "Upsample" ∨ c.opset = 10 then (1, none) else (2, some 3)

/-- The first version in which the scales of `Upsample` are an operand. -/
def upsampleOperandVersion : Int := 9

/-- The scales of a resize, if they are known and not empty. -/
def resizeScales? (c : Context) : Option (List UInt32) :=
  let scales? :=
    if c.node.op = "Upsample" ∧ c.opset < upsampleOperandVersion ∧ c.opset ≠ 0 then
      c.node.floats? "scales"
    else c.singlesAt? (resizeOperands c).1
  scales?.filter fun s => !s.isEmpty

/-- The sizes of a resize, if they are known and not empty. -/
def resizeSizes? (c : Context) : Option (List Int) :=
  ((resizeOperands c).2.bind c.intsAt?).filter fun s => !s.isEmpty

/-- Resizes some axes, or all: to given sizes, or else by given scales. -/
def resize (c : Context) : Typing := do
  let shape ← c.shapeAt 0
  let axes ← axesOrAll shape.rank (c.node.ints? "axes")
  match resizeSizes? c, resizeScales? c with
  | some sizes, _ =>
    if sizes.length ≠ axes.length then
      .error (.invalid "sizes" (.valuesForAxes sizes.length axes.length))
    let dims ← updateDims shape.rank (fun s _ => extentOf "sizes" s) (List.zip axes sizes)
      shape.dims
    return [c.withElem 0 ⟨dims⟩]
  | none, some scales =>
    if scales.length ≠ axes.length then
      .error (.invalid "scales" (.valuesForAxes scales.length axes.length))
    let dims ← updateDims shape.rank (fun s d => .ok (scaledDim s d)) (List.zip axes scales)
      shape.dims
    return [c.withElem 0 ⟨dims⟩]
  | none, none => return [c.withElem 0 (.ofRank shape.rank)]

/-- The machine word that is nearest to a number. -/
def nearestWord (v : Int) : Nat := min v.toNat (wordLimit - 1)

/-- How many indices of an axis that is not empty a slice takes; not above zero if there are none. A
negative bound counts from the end once; then the bounds are clamped to the axis, and indices run
from the start up to, but not including, the end. -/
def sliceLength (extent : Nat) (start stop step : Int) : Int :=
  let wrap (v : Int) : Int := if v < 0 then v + extent else v
  let clamp (low high v : Int) : Int := max low (min high v)
  if 0 < step then
    let s := clamp 0 extent (wrap start)
    let e := clamp 0 extent (wrap stop)
    (e - s + step - 1) / step
  else
    let s := clamp 0 (extent - 1) (wrap start)
    let e := clamp (-1) (extent - 1) (wrap stop)
    (s - e - step - 1) / -step

/-- The extent of a slice of an axis. -/
def sliceExtent (extent : Nat) (start stop step : Int) : Nat :=
  if extent = 0 then 0 else nearestWord (sliceLength extent start stop step)

/-- The bounds of a slice: starts, ends, and, if they are given, axes and steps. -/
structure SliceBounds where
  starts : List Int
  stops : List Int
  axes? : Option (List Int)
  steps? : Option (List Int)
deriving DecidableEq, Repr

/-- The first version in which the bounds of a slice are operands. -/
def sliceOperandVersion : Int := 10

/-- An operand of integers that may be left out: `none` if it is there but not constant. -/
def optionalInts? (c : Context) (i : Nat) : Option (Option (List Int)) :=
  if c.has i then (c.intsAt? i).map some else some none

/-- The bounds of a slice, if all that are given are constant. -/
def sliceBounds? (c : Context) : Option SliceBounds :=
  if sliceOperandVersion ≤ c.opset ∨ c.has 1 then do
    let starts ← c.intsAt? 1
    let stops ← c.intsAt? 2
    let axes? ← optionalInts? c 3
    let steps? ← optionalInts? c 4
    return { starts, stops, axes?, steps? }
  else do
    let starts ← c.node.ints? "starts"
    let stops ← c.node.ints? "ends"
    return { starts, stops, axes? := c.node.ints? "axes", steps? := none }

/-- The axes of a slice; without a list, as many from the first on as there are starts. -/
def SliceBounds.axes (b : SliceBounds) (rank : Nat) : Except RuleError (List Nat) :=
  match b.axes? with
  | some axes => axes.mapM (axisIn rank)
  | none => .ok (List.range b.starts.length)

/-- What an extent becomes between two bounds; one that is not known remains so. -/
def slicedDim (bounds : Int × Int × Int) (d : Dim) : Except RuleError Dim :=
  let (start, stop, step) := bounds
  match d with
  | .known n => .ok (.known (sliceExtent n start stop step))
  | _ => .ok .unknown

/-- Slices axes one after the other. A step must not be zero. -/
def sliceDims (rank : Nat) : List (Nat × Int × Int × Int) → List Dim → Except RuleError (List Dim)
  | [], dims => .ok dims
  | (axis, start, stop, step) :: rest, dims =>
    if step = 0 then .error (.invalid "steps" .zeroStep)
    else
      match updateDims rank slicedDim [(axis, start, stop, step)] dims with
      | .error e => .error e
      | .ok dims => sliceDims rank rest dims

theorem sliceDims_cons {rank axis : Nat} {start stop step : Int}
    {rest : List (Nat × Int × Int × Int)} {dims : List Dim} (h : step ≠ 0) :
    sliceDims rank ((axis, start, stop, step) :: rest) dims =
      (updateDims rank slicedDim [(axis, start, stop, step)] dims >>= sliceDims rank rest) := by
  rw [sliceDims, if_neg h]
  cases updateDims rank slicedDim [(axis, start, stop, step)] dims <;> rfl

/-- Takes a range of indices from some axes. Bounds that are not constant leave only the rank. -/
def slice (c : Context) : Typing := do
  let shape ← c.shapeAt 0
  match sliceBounds? c with
  | none => return [c.withElem 0 (.ofRank shape.rank)]
  | some b =>
    let axes ← b.axes shape.rank
    let steps := b.steps?.getD (List.replicate axes.length 1)
    if b.starts.length ≠ axes.length ∨ b.stops.length ≠ axes.length ∨
        steps.length ≠ axes.length then
      .error (.invalid "starts" .differentLengths)
    let bounds := List.zip axes (List.zip b.starts (List.zip b.stops steps))
    let dims ← sliceDims shape.rank bounds shape.dims
    return [c.withElem 0 ⟨dims⟩]

end TensorGraph.Rule
