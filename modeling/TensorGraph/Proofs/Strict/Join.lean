import TensorGraph.Proofs.Aborts
import TensorGraph.Proofs.Strict.Basic

/-!
# Strict rules that join and split

Shapes are joined in place, position by position. A list of extents is cut at a resolved axis or at
the ends of a range that were clamped to the rank, and an extent is divided by the number of
results, of which there is at least one.
-/

namespace TensorGraph

namespace Strict

/-! ### Joining -/

/-- Puts two joined extents in place of the one that is there. -/
def joinAt (axis : Nat) (conflict : RuleError) (dims : List Dim) (next : Dim × Nat) :
    Strict (List Dim) := do
  let (d, i) := next
  let old ← read dims i
  if i = axis then write dims i (Rule.sumDim old d)
  else
    match old.merge d with
    | some merged => write dims i merged
    | none => halt conflict

def joinNext (axis : Nat) (first : Shape) (dims : List Dim) (next : Shape) : Strict (List Dim) :=
  let conflict := .shape (.incompatible "concat" first next)
  if next.rank ≠ first.rank then halt conflict
  else next.dims.zipIdx.foldlM (joinAt axis conflict) dims

def concat (c : Context) : Strict (List TensorType) :=
  match c.node.int? "axis" with
  | none => halt (.missingAttribute "axis")
  | some axis => do
    let shapes ← lift (c.present.mapM fun (i, _) => c.shapeAt i)
    match shapes.head? with
    | none => halt (.missingInput 0)
    | some first =>
      let position ← lift (axisIn first.rank axis)
      let rest ← readRange shapes 1 shapes.length
      let dims ← rest.foldlM (joinNext position first) first.dims
      return [⟨c.present.findSome? fun (_, o) => o.type.elem?, some ⟨dims⟩⟩]

/-! ### Parts of lists -/

def gather (c : Context) : Strict (List TensorType) := do
  let data ← lift (c.shapeAt 0)
  let indices ← lift (c.shapeAt 1)
  let axis ← lift (axisIn data.rank (c.int "axis" 0))
  let before ← readRange data.dims 0 axis
  let behind ← readRange data.dims (axis + 1) data.dims.length
  return [c.withElem 0 ⟨before ++ indices.dims ++ behind⟩]

def shapeFold (c : Context) : Strict (Option (List (Option Tensor))) :=
  match c.shapeAt 0 with
  | .error _ => .ok none
  | .ok shape => do
    let (start, stop) := Rule.shapeRange c shape.rank
    let dims ← readRange shape.dims start stop
    return (dims.mapM Rule.signedExtent?).bind fun values => foldedIntegers [values.length] values

/-! ### Splitting -/

def evenParts (extent count : Nat) : Strict (List Nat) := do
  let chunk ← divide (extent + count - 1) count
  (List.range count).mapM fun i => do
    let start ← lift (Rule.wordProduct i chunk)
    return min chunk (extent - start)

def splitParts (c : Context) (shape : Shape) (axis count : Nat) : Strict (List Dim) :=
  match c.intsOperand "split" 1 Rule.splitOperandVersion with
  | .error _ => return List.replicate count .unknown
  | .ok (some sizes) =>
    if sizes.length ≠ count then halt (.invalid "split" (.sizesForOutputs sizes.length count))
    else lift (sizes.mapM (extentOf "split"))
  | .ok none => do
    match ← read shape.dims axis with
    | .known extent => return (← evenParts extent count).map Dim.known
    | _ => return List.replicate count .unknown

def split (c : Context) : Strict (List TensorType) := do
  let shape ← lift (c.shapeAt 0)
  let axis ← lift (axisIn shape.rank (c.int "axis" 0))
  if c.node.outputs.isEmpty then return []
  else
    let parts ← splitParts c shape axis c.node.outputs.length
    parts.mapM fun d => return c.withElem 0 ⟨← write shape.dims axis d⟩

/-! ### Joining without fault -/

lemma joinAt_append (axis : Nat) (conflict : RuleError) (done rest : List Dim) (x y : Dim) :
    joinAt axis conflict (done ++ x :: rest) (y, done.length) =
      (if done.length = axis then some (Rule.sumDim x y) else x.merge y).elim (halt conflict)
        fun d => .ok (done ++ d :: rest) := by
  have hread : read (done ++ x :: rest) done.length = .ok x := read_eq_ok (by simp)
  have hwrite (d : Dim) : write (done ++ x :: rest) done.length d = .ok (done ++ d :: rest) := by
    rw [write_eq_ok (by simp)]
    simp
  unfold joinAt
  dsimp only
  rw [hread]
  change (if done.length = axis then _ else _) = _
  split_ifs
  · exact hwrite _
  · cases x.merge y with
    | none => rfl
    | some d => exact hwrite d

/-- What was joined already stands before the extents that are still to be joined. -/
lemma foldlM_joinAt (axis : Nat) (conflict : RuleError) {rest next : List Dim}
    (hlength : rest.length = next.length) (done : List Dim) :
    (next.zipIdx done.length).foldlM (joinAt axis conflict) (done ++ rest) =
      (((List.zip rest next).zipIdx done.length).mapM fun p =>
        if p.2 = axis then some (Rule.sumDim p.1.1 p.1.2) else p.1.1.merge p.1.2).elim
          (halt conflict) fun dims => .ok (done ++ dims) := by
  induction rest generalizing next done with
  | nil =>
    obtain rfl := List.length_eq_zero_iff.mp hlength.symm
    rfl
  | cons x rest ih =>
    cases next with
    | nil => simp at hlength
    | cons y next =>
      rw [List.zipIdx_cons, List.foldlM_cons, joinAt_append, List.zip_cons_cons,
        List.zipIdx_cons, List.mapM_cons]
      dsimp only
      cases (if done.length = axis then some (Rule.sumDim x y) else x.merge y) with
      | none => rfl
      | some d =>
        -- The position that was written counts as done, so that the rest starts one further on.
        have htail := ih (Nat.succ.inj hlength) (done ++ [d])
        simp only [List.length_append, List.length_singleton, List.append_assoc,
          List.singleton_append] at htail
        refine htail.trans ?_
        cases ((List.zip rest next).zipIdx (done.length + 1)).mapM fun p =>
          if p.2 = axis then some (Rule.sumDim p.1.1 p.1.2) else p.1.1.merge p.1.2 <;> rfl

lemma joinNext_eq_lift {axis : Nat} {first next : Shape} {dims : List Dim}
    (hdims : dims.length = first.rank) :
    joinNext axis first dims next = lift (Rule.joinNext axis first dims next) := by
  unfold joinNext Rule.joinNext
  dsimp only
  split_ifs with hrank
  · rfl
  · have hjoin : next.dims.zipIdx.foldlM
        (joinAt axis (.shape (.incompatible "concat" first next))) dims =
          (Rule.joinDims axis dims next.dims).elim
            (halt (.shape (.incompatible "concat" first next))) .ok :=
      foldlM_joinAt axis _ (hdims.trans (not_not.mp hrank).symm) []
    rw [hjoin]
    cases Rule.joinDims axis dims next.dims <;> rfl

lemma length_of_joinNext {axis : Nat} {first next : Shape} {dims joined : List Dim}
    (hdims : dims.length = first.rank) (h : Rule.joinNext axis first dims next = .ok joined) :
    joined.length = first.rank := by
  unfold Rule.joinNext at h
  split_ifs at h with hrank
  split at h
  · next hjoined =>
    obtain rfl := Except.ok.inj h
    rw [← (mapM_eq_some_iff.mp hjoined).length_eq, List.length_zipIdx, List.length_zip, hdims]
    exact Nat.min_eq_left (Nat.le_of_eq (not_not.mp hrank).symm)
  · cases h

lemma concat_eq_lift (c : Context) : concat c = lift (Rule.concatInfer c) := by
  unfold concat Rule.concatInfer
  cases c.node.int? "axis" with
  | none => rfl
  | some axis =>
    refine bind_eq_lift fun shapes _ => ?_
    cases shapes with
    | nil => rfl
    | cons first rest =>
      refine bind_eq_lift fun position _ => ?_
      have hrest : readRange (first :: rest) 1 (first :: rest).length = .ok rest :=
        readRange_length (Nat.succ_pos _)
      rw [hrest]
      have hloop : rest.foldlM (joinNext position first) first.dims =
          lift (rest.foldlM (Rule.joinNext position first) first.dims) :=
        foldlM_eq_lift (P := fun dims => dims.length = first.rank)
          (List.forall₂_same.mpr fun next _ dims hdims =>
            ⟨joinNext_eq_lift hdims, fun _ => length_of_joinNext hdims⟩) rfl
      change rest.foldlM (joinNext position first) first.dims >>= _ = _
      rw [hloop]
      exact bind_eq_lift fun _ _ => rfl

/-! ### Parts of lists without fault -/

lemma gather_eq_lift (c : Context) : gather c = lift (Rule.gatherInfer c) := by
  refine bind_eq_lift fun data _ => bind_eq_lift fun indices _ => bind_eq_lift fun axis haxis => ?_
  have hlt := Rule.axisIn_lt haxis
  rw [readRange_zero (Nat.le_of_lt hlt), readRange_length hlt]
  rfl

lemma shapeFold_eq_ok (c : Context) : shapeFold c = .ok (Rule.shapeFold c) := by
  unfold shapeFold Rule.shapeFold
  cases c.shapeAt 0 with
  | error e => rfl
  | ok shape =>
    have hstop : (Rule.shapeRange c shape.rank).2 ≤ shape.dims.length := by
      exact Nat.max_le.mpr ⟨Nat.min_le_right _ _, Nat.min_le_right _ _⟩
    have hstart : (Rule.shapeRange c shape.rank).1 ≤ (Rule.shapeRange c shape.rank).2 :=
      Nat.le_max_right _ _
    dsimp only
    rw [readRange_eq_ok hstart hstop]
    rfl

/-! ### Splitting without fault -/

lemma evenParts_eq_lift {extent count : Nat} (hcount : count ≠ 0) :
    evenParts extent count = lift (Rule.evenParts extent count) := by
  unfold evenParts
  rw [divide_eq_ok hcount]
  refine mapM_eq_lift (List.forall₂_same.mpr fun i _ => ?_)
  exact bind_eq_lift fun _ _ => rfl

lemma splitParts_eq_lift {c : Context} {shape : Shape} {axis count : Nat}
    (haxis : axis < shape.rank) (hcount : count ≠ 0) :
    splitParts c shape axis count =
      lift (Rule.splitParts c ((shape.dims[axis]?).getD .unknown) count) := by
  unfold splitParts Rule.splitParts
  rcases c.intsOperand "split" 1 Rule.splitOperandVersion with e | _ | sizes
  · rfl
  · dsimp only
    rw [read_eq_ok (List.getElem?_eq_getElem haxis), List.getElem?_eq_getElem haxis]
    change (match shape.dims[axis] with | .known extent => _ | _ => _) = _
    cases shape.dims[axis] with
    | known extent =>
      change (do return (← evenParts extent count).map Dim.known) =
        lift ((Rule.evenParts extent count).map (List.map Dim.known))
      rw [evenParts_eq_lift hcount, lift_map]
      cases lift (Rule.evenParts extent count) <;> rfl
    | _ => rfl
  · dsimp only
    split_ifs <;> rfl

lemma split_eq_lift (c : Context) : split c = lift (Rule.split c) := by
  refine bind_eq_lift fun shape _ => bind_eq_lift fun axis haxis => ?_
  have hlt := Rule.axisIn_lt haxis
  split_ifs with houtputs
  · rfl
  · have hcount : c.node.outputs.length ≠ 0 := by
      simpa [List.isEmpty_iff] using houtputs
    rw [splitParts_eq_lift hlt hcount]
    refine bind_eq_lift fun parts _ => ?_
    rw [lift_pure]
    refine mapM_eq_ok_iff.mpr (List.forall₂_map_right_iff.mpr (List.forall₂_same.mpr fun d _ => ?_))
    rw [write_eq_ok hlt]
    rfl

end Strict

end TensorGraph
