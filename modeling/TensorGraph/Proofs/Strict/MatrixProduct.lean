import TensorGraph.Proofs.Strict.Broadcast

/-!
# Strict matrix products

A vector was made a matrix before its last two extents are read, and operands of another rank than
two were ruled out where there are no further axes.
-/

namespace TensorGraph

namespace Strict

def productShape (a b : Shape) : Strict Shape :=
  if a.rank = 0 ∨ b.rank = 0 then halt (Rule.contractionError "matmul" a b)
  else do
    let aDims := if a.rank = 1 then .known 1 :: a.dims else a.dims
    let bDims := if b.rank = 1 then b.dims ++ [.known 1] else b.dims
    let aBatch ← readRange aDims 0 (aDims.length - 2)
    let aMatrix ← readRange aDims (aDims.length - 2) aDims.length
    let bBatch ← readRange bDims 0 (bDims.length - 2)
    let bMatrix ← readRange bDims (bDims.length - 2) bDims.length
    let k ← read aMatrix 1
    let l ← read bMatrix 0
    if (k.merge l).isNone then halt (Rule.contractionError "matmul" a b)
    else
      let batch ← broadcastShapes ⟨aBatch⟩ ⟨bBatch⟩
      let rows ← if a.rank = 1 then pure [] else pure [← read aMatrix 0]
      let columns ← if b.rank = 1 then pure [] else pure [← read bMatrix 1]
      return ⟨batch.dims ++ rows ++ columns⟩

def matmul (c : Context) : Strict (List TensorType) := do
  let a ← lift (c.shapeAt 0)
  let b ← lift (c.shapeAt 1)
  let shape ← productShape a b
  return [⟨(c.elemAt? 0).or (c.elemAt? 1), some shape⟩]

def matrixDims (transposed : Bool) (s : Shape) : Strict (Dim × Dim) := do
  if transposed then return (← read s.dims 1, ← read s.dims 0)
  else return (← read s.dims 0, ← read s.dims 1)

def gemm (c : Context) : Strict (List TensorType) := do
  let a ← lift (c.shapeAt 0)
  let b ← lift (c.shapeAt 1)
  if a.rank ≠ 2 ∨ b.rank ≠ 2 then halt (Rule.contractionError "gemm" a b)
  else
    let (m, k) ← matrixDims (c.int "transA" 0 != 0) a
    let (l, n) ← matrixDims (c.int "transB" 0 != 0) b
    if (k.merge l).isNone then halt (Rule.contractionError "gemm" a b)
    else return [c.withElem 0 ⟨[m, n]⟩]

/-! ### Without fault -/

lemma exists_drop_eq {dims : List Dim} (h : 2 ≤ dims.length) :
    ∃ x y, dims.drop (dims.length - 2) = [x, y] :=
  List.length_eq_two.mp (by rw [List.length_drop]; omega)

lemma length_rows (s : Shape) :
    (if s.rank = 1 then Dim.known 1 :: s.dims else s.dims).length =
      if s.rank = 1 then 2 else s.rank := by
  split_ifs with h
  · exact congrArg Nat.succ h
  · rfl

lemma length_columns (s : Shape) :
    (if s.rank = 1 then s.dims ++ [Dim.known 1] else s.dims).length =
      if s.rank = 1 then 2 else s.rank := by
  split_ifs with h
  · rw [List.length_append]
    exact congrArg Nat.succ h
  · rfl

lemma productShape_eq_lift (a b : Shape) : productShape a b = lift (Rule.productShape a b) := by
  have haLength := length_rows a
  have hbLength := length_columns b
  unfold productShape Rule.productShape
  dsimp only
  generalize (if a.rank = 1 then Dim.known 1 :: a.dims else a.dims) = aDims at *
  generalize (if b.rank = 1 then b.dims ++ [Dim.known 1] else b.dims) = bDims at *
  by_cases hscalar : a.rank = 0 ∨ b.rank = 0
  · rw [if_pos hscalar]
    split
    · next haMatrix hbMatrix =>
      have haDrop := congrArg List.length haMatrix
      have hbDrop := congrArg List.length hbMatrix
      simp only [List.length_drop, List.length_cons, List.length_nil] at haDrop hbDrop
      split_ifs at haLength hbLength <;> omega
    · rfl
  rw [if_neg hscalar]
  have haDims : 2 ≤ aDims.length := by
    split_ifs at haLength <;> omega
  have hbDims : 2 ≤ bDims.length := by
    split_ifs at hbLength <;> omega
  obtain ⟨m, k, haMatrix⟩ := exists_drop_eq haDims
  obtain ⟨l, n, hbMatrix⟩ := exists_drop_eq hbDims
  rw [readRange_zero (Nat.sub_le _ _), readRange_length (Nat.sub_le _ _),
    readRange_zero (Nat.sub_le _ _), readRange_length (Nat.sub_le _ _), haMatrix, hbMatrix]
  change (if (k.merge l).isNone then _ else _) = lift (if (k.merge l).isNone then _ else _)
  split_ifs
  · rfl
  all_goals
    rw [broadcastShapes_eq_lift, lift_map]
    cases lift (Except.mapError _ _) <;> rfl

lemma matmul_eq_lift (c : Context) : matmul c = lift (Rule.matmul c) := by
  refine bind_eq_lift fun a _ => bind_eq_lift fun b _ => ?_
  rw [productShape_eq_lift]
  exact bind_eq_lift fun _ _ => rfl

lemma matrixDims_eq_ok {s : Shape} (h : s.rank = 2) (transposed : Bool) :
    ∃ p, Rule.matrixDims transposed s = some p ∧ matrixDims transposed s = .ok p := by
  obtain ⟨dims⟩ := s
  obtain ⟨rows, columns, rfl⟩ := List.length_eq_two.mp h
  cases transposed <;> exact ⟨_, rfl, rfl⟩

lemma matrixDims_eq_none {s : Shape} (h : s.rank ≠ 2) (transposed : Bool) :
    Rule.matrixDims transposed s = none := by
  unfold Rule.matrixDims
  split
  · next hdims => exact absurd (congrArg List.length hdims) h
  · rfl

lemma gemm_eq_lift (c : Context) : gemm c = lift (Rule.gemm c) := by
  refine bind_eq_lift fun a _ => bind_eq_lift fun b _ => ?_
  by_cases ha : a.rank = 2
  · obtain ⟨⟨m, k⟩, hrule, hstrict⟩ := matrixDims_eq_ok ha (c.int "transA" 0 != 0)
    rw [hrule, hstrict]
    by_cases hb : b.rank = 2
    · obtain ⟨⟨l, n⟩, hrule, hstrict⟩ := matrixDims_eq_ok hb (c.int "transB" 0 != 0)
      rw [if_neg (by simp [ha, hb]), hrule, hstrict]
      change (if (k.merge l).isNone then _ else _) = lift (if (k.merge l).isNone then _ else _)
      split_ifs <;> rfl
    · rw [if_pos (Or.inr hb), matrixDims_eq_none hb]
      rfl
  · rw [if_pos (Or.inl ha), matrixDims_eq_none ha]
    rfl

end Strict

end TensorGraph
