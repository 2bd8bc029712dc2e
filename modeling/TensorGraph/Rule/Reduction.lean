import TensorGraph.Rule.Elementwise

/-!
# Reductions

The elements along some axes are combined to one.
-/

namespace TensorGraph.Rule

/-- The extents after a reduction: those of reduced axes become one or are dropped. -/
def reducedDims (dims : List Dim) (axes : List Nat) (keep : Bool) : List Dim :=
  dims.zipIdx.filterMap fun (d, i) =>
    if i ∈ axes then (if keep then some (.known 1) else none) else some d

/-- The first version in which the axes of a reduction are an operand. -/
def reduceOperandVersion (op : String) : Int := if op = "ReduceSum" then 13 else 18

/-- Axes are reduced; without a list all of them, unless nothing is to happen then. -/
def reduce (c : Context) : Typing := do
  let shape ← c.shapeAt 0
  let keep := c.int "keepdims" 1 != 0
  match c.intsOperand "axes" 1 (reduceOperandVersion c.node.op) with
  | .error e => if keep then return [c.withElem 0 (.ofRank shape.rank)] else .error e
  | .ok axes? =>
    match axes?.filter fun axes => !axes.isEmpty with
    | some axes =>
      let positions ← axes.mapM (axisIn shape.rank)
      return [c.withElem 0 ⟨reducedDims shape.dims positions keep⟩]
    | none =>
      if c.int "noop_with_empty_axes" 0 ≠ 0 then sameType c
      else return [c.withElem 0 ⟨reducedDims shape.dims (List.range shape.rank) keep⟩]

/-- The position of an element along one axis takes the place of the axis. -/
def argReduce (c : Context) : Typing := do
  let shape ← c.shapeAt 0
  let axis ← axisIn shape.rank (c.int "axis" 0)
  let keep := c.int "keepdims" 1 != 0
  return [.of .int64 ⟨reducedDims shape.dims [axis] keep⟩]

end TensorGraph.Rule
