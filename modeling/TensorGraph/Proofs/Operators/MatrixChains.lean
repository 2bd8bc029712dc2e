import TensorGraph.Proofs.Operators.Regrouping
import TensorGraph.Proofs.Types.Broadcast
import TensorGraph.Rule.MatrixProduct

/-!
# Chains of matrix products

Three stacks of matrices may be multiplied from the left or from the right. What is compared is the
same both times: the extents inside of the chain, pair by pair, and all axes before the matrices,
which are broadcast together. So both ways fail or both give one type.
-/

namespace TensorGraph

namespace Shape

variable {s : Shape}

/-- Matrices of some rows and columns, one for each position of a batch. -/
def stack (batch : Shape) (rows columns : Dim) : Shape := ⟨batch.dims ++ [rows, columns]⟩

lemma exists_stack_of_rank (h : 2 ≤ s.rank) :
    ∃ batch rows columns, s = stack batch rows columns := by
  have hlength : (s.dims.drop (s.rank - 2)).length = 2 := by
    rw [List.length_drop, ← rank]
    omega
  obtain ⟨rows, columns, hmatrix⟩ := List.length_eq_two.mp hlength
  refine ⟨⟨s.dims.take (s.rank - 2)⟩, rows, columns, congrArg mk ?_⟩
  rw [← hmatrix, List.take_append_drop]

lemma rank_stack (batch : Shape) (rows columns : Dim) :
    (stack batch rows columns).rank = batch.dims.length + 2 :=
  List.length_append

lemma broadcast_left (a b c : Shape) :
    (do (← a.broadcast b).broadcast c).toOption = (broadcastAll [a, b, c]).toOption :=
  (Grouping.pair (.pair (.single a) (.single b)) (.single c)).isBroadcast.unique
    (isBroadcast_broadcastAll [a, b, c])

lemma broadcast_right (a b c : Shape) :
    (do a.broadcast (← b.broadcast c)).toOption = (broadcastAll [a, b, c]).toOption :=
  (Grouping.pair (.single a) (.pair (.single b) (.single c))).isBroadcast.unique
    (isBroadcast_broadcastAll [a, b, c])

end Shape

namespace Rule

section Shapes

variable {s t u : Shape}

lemma productShape_stack (a b : Shape) (m k l n : Dim) :
    (productShape (.stack a m k) (.stack b l n)).toOption =
      if (k.merge l).isSome then (a.broadcast b).toOption.map (Shape.stack · m n) else none := by
  have ha : (Shape.stack a m k).rank ≠ 1 := by
    rw [Shape.rank_stack]
    omega
  have hb : (Shape.stack b l n).rank ≠ 1 := by
    rw [Shape.rank_stack]
    omega
  unfold productShape
  simp only [if_neg ha, if_neg hb]
  simp only [Shape.stack, List.length_append, List.length_cons, List.length_nil, Nat.zero_add,
    Nat.reduceAdd, Nat.add_sub_cancel, List.drop_left, List.take_left]
  cases k.merge l with
  | none => rfl
  | some d =>
    change (((a.broadcast b).mapError RuleError.shape).map _).toOption = _
    cases a.broadcast b with
    | error e => rfl
    | ok batch => simp [Except.mapError, Except.map, Except.toOption]

lemma productShape_left (a b c : Shape) (m k l n p q : Dim) :
    (do productShape (← productShape (.stack a m k) (.stack b l n)) (.stack c p q)).toOption =
      if (k.merge l).isSome ∧ (n.merge p).isSome then
        (Shape.broadcastAll [a, b, c]).toOption.map (Shape.stack · m q)
      else none := by
  rw [toOption_bind, productShape_stack, ← Shape.broadcast_left, toOption_bind]
  by_cases hkl : (k.merge l).isSome
  · rw [if_pos hkl]
    cases (a.broadcast b).toOption with
    | none => simp
    | some batch => simp only [Option.map_some, Option.bind_some, productShape_stack, hkl, true_and]
  · rw [if_neg hkl, if_neg (not_and_of_not_left _ hkl)]
    rfl

lemma productShape_right (a b c : Shape) (m k l n p q : Dim) :
    (do productShape (.stack a m k) (← productShape (.stack b l n) (.stack c p q))).toOption =
      if (k.merge l).isSome ∧ (n.merge p).isSome then
        (Shape.broadcastAll [a, b, c]).toOption.map (Shape.stack · m q)
      else none := by
  rw [toOption_bind, productShape_stack, ← Shape.broadcast_right, toOption_bind]
  by_cases hnp : (n.merge p).isSome
  · rw [if_pos hnp]
    cases (b.broadcast c).toOption with
    | none => simp
    | some batch => simp only [Option.map_some, Option.bind_some, productShape_stack, hnp, and_true]
  · rw [if_neg hnp, if_neg (not_and_of_not_right _ hnp)]
    rfl

lemma productShape_assoc (hs : 2 ≤ s.rank) (ht : 2 ≤ t.rank) (hu : 2 ≤ u.rank) :
    (do productShape (← productShape s t) u).toOption =
      (do productShape s (← productShape t u)).toOption := by
  obtain ⟨a, m, k, rfl⟩ := Shape.exists_stack_of_rank hs
  obtain ⟨b, l, n, rfl⟩ := Shape.exists_stack_of_rank ht
  obtain ⟨c, p, q, rfl⟩ := Shape.exists_stack_of_rank hu
  rw [productShape_left, productShape_right]

end Shapes

/-! ### Products of operands -/

/-- The type of a product. The element type is that of the first operand that has one. -/
def productType (a b : TensorType) : Option TensorType :=
  a.shape?.bind fun s => b.shape?.bind fun t =>
    (productShape s t).toOption.map fun u => ⟨a.elem?.or b.elem?, some u⟩

end Rule

/-- A node multiplies two operands, whatever else it is given. -/
structure Context.Multiplies (c : Context) (a b : Operand) : Prop where
  first : c.operand? 0 = some a
  second : c.operand? 1 = some b

namespace Rule

section Types

variable {c : Context} {x y z : Operand} {a b d : TensorType} {s t u : Shape}

lemma matmul_toOption (h : c.Multiplies x y) :
    (matmul c).toOption = (productType x.type y.type).map fun type => [type] := by
  unfold matmul productType Context.shapeAt Context.elemAt?
  rw [h.first, h.second]
  dsimp only
  cases x.type.shape? with
  | none => rfl
  | some s =>
    cases y.type.shape? with
    | none => rfl
    | some t =>
      change (productShape s t >>= fun shape => .ok [_]).toOption =
        ((productShape s t).toOption.map _).map _
      cases productShape s t <;> rfl

lemma type_matmul_resultOperand (h : c.Multiplies x y) :
    (({ infer := matmul } : Rule).resultOperand c).type =
      (productType x.type y.type).getD .unknown := by
  change ((matmul c).toOption.bind List.head?).getD .unknown = _
  rw [matmul_toOption h]
  cases productType x.type y.type <;> rfl

lemma productType_getD_left (a? : Option TensorType) (b : TensorType) :
    productType (a?.getD .unknown) b = a?.bind fun a => productType a b := by
  cases a? <;> rfl

lemma productType_getD_right (a : TensorType) (b? : Option TensorType) :
    productType a (b?.getD .unknown) = b?.bind (productType a) := by
  cases b? with
  | none => exact Option.bind_fun_none a.shape?
  | some b => rfl

lemma productType_assoc (ha : a.shape? = some s) (hb : b.shape? = some t) (hd : d.shape? = some u)
    (hs : 2 ≤ s.rank) (ht : 2 ≤ t.rank) (hu : 2 ≤ u.rank) :
    (productType a b).bind (fun ab => productType ab d) =
      (productType b d).bind (productType a) := by
  have hassoc := productShape_assoc hs ht hu
  rw [toOption_bind, toOption_bind] at hassoc
  have hleft : (productType a b).bind (fun ab => productType ab d) =
      ((productShape s t).toOption.bind fun st => (productShape st u).toOption).map fun v =>
        ⟨(a.elem?.or b.elem?).or d.elem?, some v⟩ := by
    unfold productType
    rw [ha, hb, hd]
    simp only [Option.bind_some, Option.bind_map, Option.map_bind]
    rfl
  have hright : (productType b d).bind (productType a) =
      ((productShape t u).toOption.bind fun tu => (productShape s tu).toOption).map fun v =>
        ⟨a.elem?.or (b.elem?.or d.elem?), some v⟩ := by
    unfold productType
    rw [ha, hb, hd]
    simp only [Option.bind_some, Option.bind_map, Option.map_bind]
    rfl
  rw [hleft, hright, hassoc, Option.or_assoc]

end Types

/-- Multiplying three operands of at least two axes from the left fails exactly if multiplying them
from the right does. Otherwise both ways give one type. A product that fails leaves nothing known
about the operand that it should give. -/
theorem matmul_assoc {x y z : Operand} {xy yz left right : Context} (hxy : xy.Multiplies x y)
    (hyz : yz.Multiplies y z)
    (hleft : left.Multiplies (({ infer := matmul } : Rule).resultOperand xy) z)
    (hright : right.Multiplies x (({ infer := matmul } : Rule).resultOperand yz))
    (hranks : ∀ o ∈ [x, y, z], ∃ s, o.type.shape? = some s ∧ 2 ≤ s.rank) :
    (matmul left).toOption = (matmul right).toOption := by
  obtain ⟨s, hx, hs⟩ := hranks x (by simp)
  obtain ⟨t, hy, ht⟩ := hranks y (by simp)
  obtain ⟨u, hz, hu⟩ := hranks z (by simp)
  rw [matmul_toOption hleft, matmul_toOption hright, type_matmul_resultOperand hxy,
    type_matmul_resultOperand hyz, productType_getD_left, productType_getD_right,
    productType_assoc hx hy hz hs ht hu]

/-- Batches of different rank, with names and an unknown extent inside of the chain. -/
theorem matmul_assoc_of_batches :
    let operand (dims : List Dim) : Operand := ⟨.of .float ⟨dims⟩, none⟩
    let multiply (a b : Operand) : Context :=
      ⟨{ op := "MatMul", inputs := ["a", "b"], outputs := ["c"] }, [some a, some b], 13⟩
    let x := operand [.param "N", .known 1, .param "M", .known 4]
    let y := operand [.known 3, .unknown, .param "K"]
    let z := operand [.param "L", .known 5]
    let xy := ({ infer := matmul } : Rule).resultOperand (multiply x y)
    let yz := ({ infer := matmul } : Rule).resultOperand (multiply y z)
    (matmul (multiply xy z)).toOption = (matmul (multiply x yz)).toOption ∧
      matmul (multiply xy z) =
        .ok [.of .float ⟨[.param "N", .known 3, .param "M", .known 5]⟩] := by
  intro operand multiply x y z xy yz
  have hmultiplies (a b : Operand) : (multiply a b).Multiplies a b := ⟨rfl, rfl⟩
  have hranks : ∀ o ∈ [x, y, z], ∃ s, o.type.shape? = some s ∧ 2 ≤ s.rank := by
    intro o ho
    simp only [List.mem_cons, List.not_mem_nil, or_false] at ho
    rcases ho with rfl | rfl | rfl
    · exact ⟨_, rfl, by decide⟩
    · exact ⟨_, rfl, by decide⟩
    · exact ⟨_, rfl, by decide⟩
  exact ⟨matmul_assoc (hmultiplies x y) (hmultiplies y z) (hmultiplies xy z) (hmultiplies x yz)
    hranks, by decide⟩

end Rule

end TensorGraph
