import TensorGraph.Proofs.Aborts
import TensorGraph.Proofs.Strict.Basic

/-!
# Strict rules that rearrange extents

The positions that these rules read are resolved axes, entries that were just put in place, or ends
of ranges that were compared with the rank.
-/

namespace TensorGraph

namespace Strict

/-! ### New shapes -/

/-- The number of entries of a target that is not constant. -/
def targetLength? (c : Context) : Strict (Option Nat) :=
  match (c.operand? 1).bind fun o => o.type.shape? with
  | none => return none
  | some s => if s.rank = 1 then return (← read s.dims 0).extent? else return none

def closeReshape (data? : Option Shape) (target : List Int) (dims : List Dim) :
    Strict (List Dim) :=
  match target.idxOf? (-1) with
  | none => .ok dims
  | some at_ =>
    match data?.bind Shape.numElements?, productDim (dims.eraseIdx at_) with
    | some total, .known rest =>
      let unfit := halt (.invalid "shape" (.cannotReshape total target))
      if rest = 0 then unfit
      else do
        if (← remainder total rest) ≠ 0 then unfit
        else write dims at_ (.known (← divide total rest))
    | _, _ => .ok dims

def reshape (c : Context) : Strict (List TensorType) := do
  let data ← lift (c.typeAt 0)
  match Rule.reshapeTarget? c with
  | some target =>
    let dims ← lift
      (target.zipIdx.mapM (Rule.reshapeEntry (c.int "allowzero" 0 == 0) data.shape? target))
    let dims ← closeReshape data.shape? target dims
    return [c.withElem 0 ⟨dims⟩]
  | none =>
    match ← targetLength? c with
    | some rank => return [c.withElem 0 (← lift (declaredShape rank))]
    | none => halt (.invalid "shape" .targetNotConstant)

def flatten (c : Context) : Strict (List TensorType) := do
  let shape ← lift (c.shapeAt 0)
  let rank := shape.rank
  let axis := c.int "axis" 1
  let position := if axis < 0 then axis + rank else axis
  if position < 0 ∨ rank < position then halt (.shape (.axisOutOfRange axis rank))
  else
    let outer ← readRange shape.dims 0 position.toNat
    let inner ← readRange shape.dims position.toNat shape.dims.length
    return [c.withElem 0 ⟨[productDim outer, productDim inner]⟩]

/-! ### Axes dropped or exchanged -/

/-- The axes of extent one. -/
def unitAxes (shape : Shape) : Strict (List Nat) := do
  let axes ← (List.range shape.rank).mapM fun i => do return (i, (← read shape.dims i).is 1)
  return (axes.filter Prod.snd).map Prod.fst

def squeezeAxes (c : Context) (shape : Shape) : Strict (List Nat) := do
  match ← lift (c.intsOperand "axes" 1 Rule.axesOperandVersion) with
  | some axes => lift (axes.mapM (axisIn shape.rank))
  | none =>
    if shape.isFullyKnown then unitAxes shape else halt (.invalid "axes" .unknownExtents)

def checkDroppable (shape : Shape) (i : Nat) : Strict Unit := do
  match ← read shape.dims i with
  | .known n => if n = 1 then return () else halt (.invalid "axes" (.notOne i n))
  | _ => return ()

def squeeze (c : Context) : Strict (List TensorType) := do
  let shape ← lift (c.shapeAt 0)
  let positions ← squeezeAxes c shape
  positions.forM (checkDroppable shape)
  return [c.withElem 0 ⟨Rule.dropPositions shape.dims positions⟩]

/-- Whether no position comes up twice; those that came up are marked. -/
def allDistinct : (positions : List Nat) → (seen : List Bool) → Strict Bool
  | [], _ => .ok true
  | p :: positions, seen => do
    if ← read seen p then return false
    else allDistinct positions (← write seen p true)

def permutation (c : Context) (rank : Nat) : Strict (List Nat) :=
  match c.node.ints? "perm" with
  | none => return (List.range rank).reverse
  | some perm => do
    let positions ← lift (perm.mapM (axisIn rank))
    if ← allDistinct positions (List.replicate rank false) then
      if positions.length ≠ rank then
        halt (.invalid "perm" (.lengthForRank positions.length rank))
      else return positions
    else halt (.invalid "perm" (.notPermutation positions))

def transpose (c : Context) : Strict (List TensorType) := do
  let shape ← lift (c.shapeAt 0)
  let positions ← permutation c shape.rank
  return [c.withElem 0 ⟨← positions.mapM (read shape.dims)⟩]

/-! ### New shapes without fault -/

lemma targetLength?_eq_ok (c : Context) :
    targetLength? c =
      .ok (match ((c.operand? 1).bind fun o => o.type.shape?).map Shape.dims with
        | some [d] => d.extent?
        | _ => none) := by
  unfold targetLength?
  rcases (c.operand? 1).bind fun o => o.type.shape? with _ | ⟨_ | ⟨d, _ | ⟨e, dims⟩⟩⟩
  · rfl
  · rfl
  · rfl
  · exact if_neg (by simp [Shape.rank])

lemma closeReshape_eq_lift {data? : Option Shape} {target : List Int} {dims : List Dim}
    (hlength : dims.length = target.length) :
    closeReshape data? target dims = lift (Rule.closeReshape data? target dims) := by
  unfold closeReshape Rule.closeReshape
  cases hat : target.idxOf? (-1) with
  | none => rfl
  | some at_ =>
    have hlt : at_ < dims.length := by
      rw [hlength]
      exact (List.findIdx?_eq_some_iff_getElem.mp hat).1
    dsimp only
    rcases data?.bind Shape.numElements? with _ | total
    · rfl
    rcases productDim (dims.eraseIdx at_) with rest | _ | _
    · dsimp only
      by_cases hrest : rest = 0
      · rw [if_pos hrest, if_pos (Or.inl hrest)]
        rfl
      · rw [if_neg hrest, remainder_eq_ok hrest, divide_eq_ok hrest]
        by_cases hdivides : total % rest = 0
        · rw [if_neg (by simp [hrest, hdivides])]
          exact (if_neg (not_not_intro hdivides)).trans (write_eq_ok hlt _)
        · rw [if_pos (Or.inr hdivides)]
          exact if_pos hdivides
    · rfl
    · rfl

lemma reshape_eq_lift (c : Context) : reshape c = lift (Rule.reshape c) := by
  refine bind_eq_lift fun data _ => ?_
  cases Rule.reshapeTarget? c with
  | some target =>
    have hdims (zeroCopies : Bool) : (do
        let dims ← lift (target.zipIdx.mapM (Rule.reshapeEntry zeroCopies data.shape? target))
        closeReshape data.shape? target dims) =
          lift (Rule.reshapeDims zeroCopies data.shape? target) := by
      refine bind_eq_lift fun dims hdims => closeReshape_eq_lift ?_
      rw [← (mapM_eq_ok_iff.mp hdims).length_eq, List.length_zipIdx]
    dsimp only
    rw [← bind_assoc, hdims]
    exact bind_eq_lift fun _ _ => rfl
  | none =>
    dsimp only
    rw [targetLength?_eq_ok]
    rcases (c.operand? 1).bind fun o => o.type.shape? with _ | ⟨_ | ⟨d, _ | ⟨e, dims⟩⟩⟩
    · rfl
    · rfl
    · cases d with
      | known rank => exact bind_eq_lift fun _ _ => rfl
      | _ => rfl
    · simp only [Option.map_some]
      rfl

lemma flatten_eq_lift (c : Context) : flatten c = lift (Rule.flatten c) := by
  refine bind_eq_lift fun shape _ => ?_
  dsimp only
  generalize (if c.int "axis" 1 < 0 then c.int "axis" 1 + shape.rank
    else c.int "axis" 1) = position
  split_ifs with h
  · rfl
  · have hposition : position.toNat ≤ shape.dims.length := by
      unfold Shape.rank at h
      omega
    rw [readRange_zero hposition, readRange_length hposition]
    rfl

/-! ### Dropping and exchanging without fault -/

lemma unitAxes_eq_ok (shape : Shape) :
    unitAxes shape =
      .ok ((List.range shape.rank).filter fun i => shape.dims[i]?.any fun d => d.is 1) := by
  have haxes : ((List.range shape.rank).mapM fun i => do
      return (i, (← read shape.dims i).is 1) : Strict (List (Nat × Bool))) =
        .ok ((List.range shape.rank).map fun i => (i, shape.dims[i]?.any fun d => d.is 1)) := by
    rw [mapM_eq_ok_iff, List.forall₂_map_right_iff]
    refine List.forall₂_same.mpr fun i hi => ?_
    rw [read_eq_ok (List.getElem?_eq_getElem (List.mem_range.mp hi)),
      List.getElem?_eq_getElem (List.mem_range.mp hi)]
    rfl
  unfold unitAxes
  rw [haxes]
  change Except.ok _ = _
  rw [List.filter_map, List.map_map, List.map_congr_left (g := id) (by simp), List.map_id]
  rfl

lemma squeezeAxes_eq_lift (c : Context) (shape : Shape) :
    squeezeAxes c shape = lift (Rule.squeezeAxes c shape) := by
  refine bind_eq_lift fun axes? _ => ?_
  cases axes? with
  | some axes => rfl
  | none =>
    dsimp only
    split_ifs
    · exact unitAxes_eq_ok shape
    · rfl

lemma lt_of_mem_axes {rank : Nat} {axes : List Int} {positions : List Nat}
    (h : axes.mapM (axisIn rank) = .ok positions) : ∀ p ∈ positions, p < rank :=
  forall_mem_of_mapM_eq_ok h fun _ _ _ => Rule.axisIn_lt

lemma lt_of_mem_squeezeAxes {c : Context} {shape : Shape} {positions : List Nat}
    (h : Rule.squeezeAxes c shape = .ok positions) : ∀ p ∈ positions, p < shape.rank := by
  obtain ⟨axes?, _, h⟩ := bind_eq_ok_iff.mp h
  cases axes? with
  | some axes => exact lt_of_mem_axes h
  | none =>
    dsimp only at h
    split_ifs at h
    obtain rfl := Except.ok.inj h
    exact fun p hp => List.mem_range.mp (List.mem_of_mem_filter hp)

lemma checkDroppable_eq_lift {shape : Shape} {i : Nat} (h : i < shape.rank) :
    checkDroppable shape i = lift (Rule.checkDroppable shape i) := by
  unfold checkDroppable Rule.checkDroppable
  rw [read_eq_ok (List.getElem?_eq_getElem h), List.getElem?_eq_getElem h]
  change (match shape.dims[i] with | .known n => _ | _ => _) = _
  cases shape.dims[i] with
  | known n =>
    dsimp only
    split_ifs <;> rfl
  | _ => rfl

lemma squeeze_eq_lift (c : Context) : squeeze c = lift (Rule.squeeze c) := by
  refine bind_eq_lift fun shape _ => ?_
  rw [squeezeAxes_eq_lift]
  refine bind_eq_lift fun positions hpositions => ?_
  rw [forM_eq_lift fun i hi => checkDroppable_eq_lift (lt_of_mem_squeezeAxes hpositions i hi)]
  exact bind_eq_lift fun _ _ => rfl

lemma forall_set_eq_false_iff {p : Nat} {positions : List Nat} {seen : List Bool}
    (hp : p < seen.length) :
    (∀ q ∈ positions, (seen.set p true)[q]? = some false) ↔
      p ∉ positions ∧ ∀ q ∈ positions, seen[q]? = some false := by
  constructor
  · intro hall
    have hnot : p ∉ positions := fun hmem => by simpa [hp] using hall p hmem
    refine ⟨hnot, fun q hq => ?_⟩
    have hne : p ≠ q := fun heq => hnot (heq ▸ hq)
    rw [← hall q hq, List.getElem?_set_ne hne]
  · rintro ⟨hnot, hall⟩ q hq
    have hne : p ≠ q := fun heq => hnot (heq ▸ hq)
    rw [List.getElem?_set_ne hne, hall q hq]

/-- Marking finds repeated positions, and those that were marked before. -/
lemma allDistinct_eq_ok {positions : List Nat} {seen : List Bool}
    (h : ∀ p ∈ positions, p < seen.length) :
    allDistinct positions seen =
      .ok (decide (positions.Nodup ∧ ∀ p ∈ positions, seen[p]? = some false)) := by
  induction positions generalizing seen with
  | nil => simp [allDistinct]
  | cons p positions ih =>
    rw [List.forall_mem_cons] at h
    have hp := List.getElem?_eq_getElem h.1
    rw [allDistinct, read_eq_ok hp, write_eq_ok h.1]
    cases hseen : seen[p] with
    | true =>
      rw [hseen] at hp
      have hmarked : ¬ ∀ q ∈ p :: positions, seen[q]? = some false := by
        simp [hp]
      rw [decide_eq_false fun hall => hmarked hall.2]
      rfl
    | false =>
      rw [hseen] at hp
      refine (ih (by simpa using h.2)).trans (congrArg _ (decide_eq_decide.mpr ?_))
      rw [forall_set_eq_false_iff h.1, List.nodup_cons, List.forall_mem_cons]
      tauto

lemma permutation_eq_lift (c : Context) (rank : Nat) :
    permutation c rank = lift (Rule.permutation c rank) := by
  unfold permutation Rule.permutation
  cases c.node.ints? "perm" with
  | none => rfl
  | some perm =>
    refine bind_eq_lift fun positions hpositions => ?_
    have hlt := lt_of_mem_axes hpositions
    have hmarks : ∀ p ∈ positions, (List.replicate rank false)[p]? = some false :=
      fun p hp => List.getElem?_replicate_of_lt (hlt p hp)
    dsimp only
    rw [allDistinct_eq_ok (by simpa using hlt)]
    by_cases hdistinct : positions.Nodup
    · rw [decide_eq_true ⟨hdistinct, hmarks⟩, decide_eq_true hdistinct]
      change (if positions.length ≠ rank then _ else _) =
        lift (if positions.length ≠ rank then _ else _)
      split_ifs <;> rfl
    · rw [decide_eq_false fun h => hdistinct h.1, decide_eq_false hdistinct]
      rfl

lemma lt_of_mem_permutation {c : Context} {rank : Nat} {positions : List Nat}
    (h : Rule.permutation c rank = .ok positions) : ∀ p ∈ positions, p < rank := by
  unfold Rule.permutation at h
  split at h
  · obtain rfl := Except.ok.inj h
    exact fun p hp => List.mem_range.mp (List.mem_reverse.mp hp)
  · obtain ⟨resolved, hresolved, h⟩ := bind_eq_ok_iff.mp h
    dsimp only at h
    split_ifs at h <;> cases h
    exact lt_of_mem_axes hresolved

lemma transpose_eq_lift (c : Context) : transpose c = lift (Rule.transpose c) := by
  refine bind_eq_lift fun shape _ => ?_
  rw [permutation_eq_lift]
  refine bind_eq_lift fun positions hpositions => ?_
  have hlt := lt_of_mem_permutation hpositions
  rw [mapM_read_eq_ok (lt_of_mem_permutation hpositions)]
  rfl

end Strict

end TensorGraph
