import TensorGraph.Rule.Basic

/-!
# Matrix products

The last axis of the left operand is contracted with the last but one of the right operand.
-/

namespace TensorGraph.Rule

/-- The extents that are contracted are not the same. -/
def contractionError (op : String) (a b : Shape) : RuleError := .shape (.incompatible op a b)

/-- The shape of a product. A vector counts as a matrix of one row or one column, which the result
does not have; all axes before the matrices are broadcast. -/
def productShape (a b : Shape) : Except RuleError Shape :=
  let aDims := if a.rank = 1 then .known 1 :: a.dims else a.dims
  let bDims := if b.rank = 1 then b.dims ++ [.known 1] else b.dims
  match aDims.drop (aDims.length - 2), bDims.drop (bDims.length - 2) with
  | [m, k], [l, n] =>
    if (k.merge l).isNone then .error (contractionError "matmul" a b)
    else
      let aBatch : Shape := ⟨aDims.take (aDims.length - 2)⟩
      let bBatch : Shape := ⟨bDims.take (bDims.length - 2)⟩
      (aBatch.broadcast bBatch).mapError .shape |>.map fun batch =>
        ⟨batch.dims ++ (if a.rank = 1 then [] else [m]) ++ (if b.rank = 1 then [] else [n])⟩
  | _, _ => .error (contractionError "matmul" a b)

/-- The product of two stacks of matrices. -/
def matmul (c : Context) : Typing := do
  let a ← c.shapeAt 0
  let b ← c.shapeAt 1
  let shape ← productShape a b
  return [⟨(c.elemAt? 0).or (c.elemAt? 1), some shape⟩]

/-- Rows and columns of a matrix, exchanged if asked for. -/
def matrixDims (transposed : Bool) (s : Shape) : Option (Dim × Dim) :=
  match s.dims with
  | [rows, columns] => some (if transposed then (columns, rows) else (rows, columns))
  | _ => none

/-- The product of two matrices, each transposed if asked for. -/
def gemm (c : Context) : Typing := do
  let a ← c.shapeAt 0
  let b ← c.shapeAt 1
  match matrixDims (c.int "transA" 0 != 0) a, matrixDims (c.int "transB" 0 != 0) b with
  | some (m, k), some (l, n) =>
    if (k.merge l).isNone then .error (contractionError "gemm" a b)
    return [c.withElem 0 ⟨[m, n]⟩]
  | _, _ => .error (contractionError "gemm" a b)

end TensorGraph.Rule
