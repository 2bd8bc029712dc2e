import TensorGraph.Proofs.Strict.Basic
import TensorGraph.Proofs.Types.Broadcast

/-!
# Strict broadcasting

Two shapes are broadcast position by position, and where one of them is shorter, its positions are
counted from the right end. The rules that broadcast their operands read no other lists.
-/

namespace TensorGraph

namespace Strict

/-- The extent at a position of `rank` axes, of which a shape has the rightmost ones. -/
def aligned (s : Shape) (rank i : Nat) : Strict Dim :=
  if i < rank - s.rank then .ok (.known 1) else read s.dims (i - (rank - s.rank))

/-- The extent at a position of the result. -/
def broadcastAt (a b : Shape) (rank i : Nat) : Strict Dim := do
  let x ← aligned a rank i
  let y ← aligned b rank i
  match x.broadcast y with
  | some d => return d
  | none => halt (.shape (.incompatible "broadcast" a b))

def broadcastShapes (a b : Shape) : Strict Shape := do
  let rank := max a.rank b.rank
  return ⟨← (List.range rank).mapM (broadcastAt a b rank)⟩

def broadcastOperands (c : Context) (inputs : List Nat) : Strict Shape := do
  let shapes ← lift (inputs.mapM c.shapeAt)
  shapes.foldlM broadcastShapes .scalar

def broadcast (c : Context) : Strict (List TensorType) := do
  let inputs := c.present.map Prod.fst
  if inputs.isEmpty then halt (.missingInput 0)
  else
    let shape ← broadcastOperands c inputs
    return [⟨(c.elemAt? 0).or (Rule.firstElem? c inputs), some shape⟩]

def comparison (c : Context) : Strict (List TensorType) := do
  return [.of .bool (← broadcastOperands c [0, 1])]

def select (c : Context) : Strict (List TensorType) := do
  return [⟨Rule.firstElem? c [1, 2], some (← broadcastOperands c [0, 1, 2])⟩]

def expand (c : Context) : Strict (List TensorType) := do
  let shape ← lift (c.shapeAt 0)
  match c.intsAt? 1 with
  | none => halt (.invalid "shape" .targetNotConstant)
  | some extents =>
    let dims ← lift (extents.mapM (extentOf "shape"))
    let result ← broadcastShapes shape ⟨dims⟩
    return [c.withElem 0 result]

/-! ### Without fault -/

lemma aligned_eq_ok {s : Shape} {rank i : Nat} {d : Dim} (h : (s.padded rank)[i]? = some d) :
    aligned s rank i = .ok d := by
  unfold Shape.padded at h
  unfold aligned
  split_ifs with hi
  · rw [List.getElem?_append_left (by simpa using hi), List.getElem?_replicate_of_lt hi] at h
    rw [Option.some.inj h]
  · rw [List.getElem?_append_right (by simpa using Nat.le_of_not_lt hi),
      List.length_replicate] at h
    exact read_eq_ok h

lemma broadcastAt_eq {a b : Shape} {rank i : Nat} {x y : Dim}
    (hx : (a.padded rank)[i]? = some x) (hy : (b.padded rank)[i]? = some y) :
    broadcastAt a b rank i =
      (x.broadcast y).elim (halt (.shape (.incompatible "broadcast" a b))) .ok := by
  unfold broadcastAt
  rw [aligned_eq_ok hx, aligned_eq_ok hy]
  change (match x.broadcast y with | some d => _ | none => _) = _
  cases x.broadcast y <;> rfl

lemma broadcastShapes_eq_lift (a b : Shape) :
    broadcastShapes a b = lift ((a.broadcast b).mapError .shape) := by
  set rank := max a.rank b.rank with hrank
  have hdims : (List.range rank).mapM (broadcastAt a b rank) =
      ((List.zip (a.padded rank) (b.padded rank)).mapM fun p : Dim × Dim => p.1.broadcast p.2).elim
        (halt (.shape (.incompatible "broadcast" a b))) .ok := by
    refine mapM_eq_elim (forall₂_of_getElem? ?_ fun i j p hi hp => ?_)
    · rw [List.length_range, List.length_zip, Shape.length_padded (Nat.le_max_left _ _),
        Shape.length_padded (Nat.le_max_right _ _), Nat.min_self]
    · obtain ⟨hlt, rfl⟩ := List.getElem?_eq_some_iff.mp hi
      obtain ⟨hx, hy⟩ := List.getElem?_zip_eq_some.mp hp
      rw [List.getElem_range]
      exact broadcastAt_eq hx hy
  unfold broadcastShapes
  dsimp only
  rw [← hrank, hdims, Shape.broadcast_eq_elim]
  cases (List.zip (a.padded rank) (b.padded rank)).mapM fun p => p.1.broadcast p.2 <;> rfl

lemma broadcastAll_eq_lift (shapes : List Shape) (s : Shape) :
    shapes.foldlM broadcastShapes s = lift ((shapes.foldlM Shape.broadcast s).mapError .shape) := by
  induction shapes generalizing s with
  | nil => rfl
  | cons t shapes ih =>
    rw [List.foldlM_cons, List.foldlM_cons, broadcastShapes_eq_lift]
    cases s.broadcast t with
    | error e => rfl
    | ok u => exact ih u

lemma broadcastOperands_eq_lift (c : Context) (inputs : List Nat) :
    broadcastOperands c inputs = lift (Rule.broadcastShape c inputs) :=
  bind_eq_lift fun shapes _ => broadcastAll_eq_lift shapes .scalar

lemma broadcast_eq_lift (c : Context) : broadcast c = lift (Rule.broadcast c) := by
  unfold broadcast Rule.broadcast
  dsimp only
  split_ifs
  · rfl
  · rw [broadcastOperands_eq_lift]
    exact bind_eq_lift fun _ _ => rfl

lemma comparison_eq_lift (c : Context) : comparison c = lift (Rule.comparison c) := by
  unfold comparison
  rw [broadcastOperands_eq_lift]
  exact bind_eq_lift fun _ _ => rfl

lemma select_eq_lift (c : Context) : select c = lift (Rule.select c) := by
  unfold select
  rw [broadcastOperands_eq_lift]
  exact bind_eq_lift fun _ _ => rfl

lemma expand_eq_lift (c : Context) : expand c = lift (Rule.expand c) := by
  refine bind_eq_lift fun shape _ => ?_
  cases c.intsAt? 1 with
  | none => rfl
  | some extents =>
    refine bind_eq_lift fun dims _ => ?_
    rw [broadcastShapes_eq_lift]
    exact bind_eq_lift fun _ _ => rfl

end Strict

end TensorGraph
