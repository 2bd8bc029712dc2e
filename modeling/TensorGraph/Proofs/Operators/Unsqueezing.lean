import Mathlib.Data.List.Perm.Basic
import TensorGraph.Proofs.Operators.Axes

/-!
# Squeezing undoes unsqueezing

An unsqueeze puts ones at the positions that its axes stand for in the shape of the result, and
keeps the extents of the data in between. It is refused if an axis is out of range of that shape or
if two axes stand for one position. A squeeze with the same axes gives the shape of the data back.
-/

namespace TensorGraph

namespace Rule

variable {positions : List Nat} {dims : List Dim}

/-! ### Dropped positions -/

lemma dropPositions_eq_map_filter (dims : List Dim) (positions : List Nat) :
    dropPositions dims positions =
      (dims.zipIdx.filter fun (_, i) => i ∉ positions).map Prod.fst := by
  unfold dropPositions
  rw [← List.filterMap_eq_map, ← List.filterMap_eq_filter, List.filterMap_filterMap]
  apply List.filterMap_congr
  rintro ⟨d, i⟩ _
  by_cases h : i ∈ positions <;> simp [h, Option.guard]

lemma checkDroppable_of_one {s : Shape} {i : Nat} (h : s.dims[i]? = some (.known 1)) :
    checkDroppable s i = .ok () := by
  unfold checkDroppable
  rw [h]
  rfl

/-! ### Inserted ones -/

lemma length_filter_notMem {rank : Nat} (hnodup : positions.Nodup)
    (hlt : ∀ p ∈ positions, p < rank) :
    ((List.range rank).filter (· ∉ positions)).length + positions.length = rank := by
  have htaken : ((List.range rank).filter (· ∈ positions)).Perm positions := by
    rw [List.perm_ext_iff_of_nodup (List.nodup_range.filter _) hnodup]
    intro p
    simp only [List.mem_filter, List.mem_range, decide_eq_true_eq, and_iff_right_iff_imp]
    exact hlt p
  have hsplit := List.length_eq_length_filter_add (l := List.range rank) (· ∈ positions)
  simp only [List.length_range, htaken.length_eq, ← decide_not] at hsplit
  omega

lemma length_insertOnes (count i : Nat) (dims : List Dim) :
    (insertOnes positions count i dims).length = count := by
  induction count generalizing i dims with
  | zero => rfl
  | succ count ih =>
    unfold insertOnes
    split_ifs
    · rw [List.length_cons, ih]
    · cases dims <;> rw [List.length_cons, ih]

lemma getElem?_insertOnes {count i k : Nat} (hk : k < count) (hmem : i + k ∈ positions) :
    (insertOnes positions count i dims)[k]? = some (.known 1) := by
  induction count generalizing i k dims with
  | zero => omega
  | succ count ih =>
    unfold insertOnes
    cases k with
    | zero =>
      rw [if_pos (by simpa using hmem)]
      rfl
    | succ k =>
      have hnext (dims : List Dim) :
          (insertOnes positions count (i + 1) dims)[k]? = some (.known 1) := by
        apply ih
        · omega
        · rwa [Nat.add_right_comm, Nat.add_assoc]
      split_ifs
      · exact hnext dims
      · cases dims with
        | nil => exact hnext []
        | cons d dims => exact hnext dims

/-- Between the ones stand the given extents, in order, if there are as many as fit in there. -/
lemma others_insertOnes {count i : Nat}
    (hroom : ((List.range' i count).filter (· ∉ positions)).length = dims.length) :
    (((insertOnes positions count i dims).zipIdx i).filter fun (_, j) => j ∉ positions).map
      Prod.fst = dims := by
  induction count generalizing i dims with
  | zero =>
    obtain rfl := List.length_eq_zero_iff.mp hroom.symm
    rfl
  | succ count ih =>
    rw [List.range'_succ] at hroom
    unfold insertOnes
    by_cases hi : i ∈ positions
    · rw [List.filter_cons_of_neg (by simpa using hi)] at hroom
      rw [if_pos hi, List.zipIdx_cons, List.filter_cons_of_neg (by simpa using hi)]
      exact ih hroom
    · rw [List.filter_cons_of_pos (by simpa using hi), List.length_cons] at hroom
      cases dims with
      | nil => simp at hroom
      | cons d dims =>
        rw [if_neg hi, List.zipIdx_cons, List.filter_cons_of_pos (by simpa using hi),
          List.map_cons]
        exact congrArg (d :: ·) (ih (Nat.succ.inj hroom))

end Rule

/-- A shape with ones at some positions and the extents of another one, in order, elsewhere. -/
structure Shape.OnesInserted (s : Shape) (positions : List Nat) (t : Shape) : Prop where
  rank : t.rank = s.rank + positions.length
  ones : ∀ p ∈ positions, t.dims[p]? = some (.known 1)
  others : (t.dims.zipIdx.filter fun (_, i) => i ∉ positions).map Prod.fst = s.dims

namespace Rule

variable {c : Context} {elem? : Option ElemType} {s t : Shape} {axes : List Int}
  {positions : List Nat}

lemma onesInserted_insertOnes (hnodup : positions.Nodup)
    (hlt : ∀ p ∈ positions, p < s.rank + positions.length) :
    s.OnesInserted positions ⟨insertOnes positions (s.rank + positions.length) 0 s.dims⟩ := by
  refine ⟨length_insertOnes _ 0 s.dims, ?ones, ?others⟩
  case ones =>
    intro p hp
    apply getElem?_insertOnes (hlt p hp)
    rwa [Nat.zero_add]
  case others =>
    apply others_insertOnes
    have hroom := length_filter_notMem hnodup hlt
    rw [← List.range_eq_range']
    unfold Shape.rank at hroom ⊢
    omega

lemma unsqueeze_eq_ok_iff (hdata : c.typeAt 0 = .ok ⟨elem?, some s⟩)
    (haxes : c.intsOperand "axes" 1 axesOperandVersion = .ok (some axes))
    {types : List TensorType} :
    unsqueeze c = .ok types ↔ ∃ positions : List Nat,
      axes.mapM (axisIn (s.rank + axes.length)) = .ok positions ∧ positions.Nodup ∧
      types = [⟨elem?, some ⟨insertOnes positions (s.rank + axes.length) 0 s.dims⟩⟩] := by
  unfold unsqueeze
  rw [Context.shapeAt_of_typeAt hdata, haxes]
  simp only [Context.withElem_of_typeAt hdata]
  change (axes.mapM (axisIn (s.rank + axes.length)) >>= _ : Typing) = _ ↔ _
  refine bind_eq_ok_iff.trans (exists_congr fun positions => and_congr_right fun _ => ?_)
  by_cases h : positions.Nodup <;> simp [h, bind, Except.bind, pure, Except.pure, eq_comm]

lemma length_of_mapM_axisIn {rank : Nat} (h : axes.mapM (axisIn rank) = .ok positions) :
    positions.length = axes.length :=
  (mapM_eq_ok_iff.mp h).length_eq.symm

lemma exists_of_unsqueeze (hdata : c.typeAt 0 = .ok ⟨elem?, some s⟩)
    (haxes : c.intsOperand "axes" 1 axesOperandVersion = .ok (some axes))
    {types : List TensorType} (h : unsqueeze c = .ok types) :
    ∃ t positions, axes.mapM (axisIn (s.rank + axes.length)) = .ok positions ∧
      positions.Nodup ∧ s.OnesInserted positions t ∧ types = [⟨elem?, some t⟩] := by
  obtain ⟨positions, hpositions, hnodup, rfl⟩ := (unsqueeze_eq_ok_iff hdata haxes).mp h
  have hlt := (mapM_axisIn_eq_ok_iff.mp hpositions).1
  rw [← length_of_mapM_axisIn hpositions] at hlt
  have hinserted := onesInserted_insertOnes hnodup hlt
  rw [length_of_mapM_axisIn hpositions] at hinserted
  exact ⟨_, positions, hpositions, hnodup, hinserted, rfl⟩

/-- What was inserted may be dropped, and no more is dropped than that. -/
lemma squeeze_eq_of_onesInserted (hdata : c.typeAt 0 = .ok ⟨elem?, some t⟩)
    (haxes : c.intsOperand "axes" 1 axesOperandVersion = .ok (some axes))
    (hpositions : axes.mapM (axisIn t.rank) = .ok positions) (ht : s.OnesInserted positions t) :
    squeeze c = .ok [⟨elem?, some s⟩] := by
  have hsqueezed : squeezeAxes c t = .ok positions := by
    unfold squeezeAxes
    rw [haxes]
    exact hpositions
  have hdroppable : positions.forM (checkDroppable t) = .ok () :=
    forM_eq_ok_iff.mpr fun p hp => checkDroppable_of_one (ht.ones p hp)
  have hothers : dropPositions t.dims positions = s.dims := by
    rw [dropPositions_eq_map_filter]
    exact ht.others
  unfold squeeze
  rw [Context.shapeAt_of_typeAt hdata]
  simp only [Context.withElem_of_typeAt hdata]
  change (squeezeAxes c t >>= _) = _
  rw [hsqueezed]
  change (positions.forM (checkDroppable t) >>= _) = _
  rw [hdroppable, hothers]
  rfl

/-- An unsqueeze accepts just the lists of axes that are in range of the result and stand for
different positions. It puts ones at those positions, and a squeeze with the same list drops them
again. -/
theorem squeeze_unsqueeze (hdata : c.typeAt 0 = .ok ⟨elem?, some s⟩)
    (haxes : c.intsOperand "axes" 1 axesOperandVersion = .ok (some axes)) :
    let rank := s.rank + axes.length
    ((∃ types, unsqueeze c = .ok types) ↔
      (∀ axis ∈ axes, -(rank : Int) ≤ axis ∧ axis < rank) ∧
        (axes.map (axisPosition rank)).Nodup) ∧
    ∀ types, unsqueeze c = .ok types → ∃ t positions,
      types = [⟨elem?, some t⟩] ∧
      axes.map (axisPosition rank) = positions.map Nat.cast ∧
      s.OnesInserted positions t ∧
      ∀ c' : Context, c'.typeAt 0 = .ok ⟨elem?, some t⟩ →
        c'.intsOperand "axes" 1 axesOperandVersion = .ok (some axes) →
        squeeze c' = .ok [⟨elem?, some s⟩] := by
  intro rank
  constructor
  · rw [← exists_mapM_axisIn_iff]
    constructor
    · rintro ⟨types, htypes⟩
      obtain ⟨_, positions, hpositions, hnodup, _⟩ := exists_of_unsqueeze hdata haxes htypes
      exact ⟨⟨positions, hpositions⟩, (nodup_map_axisPosition_iff hpositions).mpr hnodup⟩
    · rintro ⟨⟨positions, hpositions⟩, hnodup⟩
      have hdistinct := (nodup_map_axisPosition_iff hpositions).mp hnodup
      exact ⟨_, (unsqueeze_eq_ok_iff hdata haxes).mpr ⟨positions, hpositions, hdistinct, rfl⟩⟩
  · intro types htypes
    obtain ⟨t, positions, hpositions, _, ht, rfl⟩ := exists_of_unsqueeze hdata haxes htypes
    refine ⟨t, positions, rfl, (mapM_axisIn_eq_ok_iff.mp hpositions).2, ht, ?_⟩
    intro c' hdata' haxes'
    apply squeeze_eq_of_onesInserted hdata' haxes' _ ht
    rwa [ht.rank, length_of_mapM_axisIn hpositions]

/-- Two axes of one shape with a name and an extent that is not known, one of them negative. -/
theorem squeeze_unsqueeze_mixed :
    let s : Shape := ⟨[.param "N", .unknown, .known 1]⟩
    let t : Shape := ⟨[.known 1, .param "N", .unknown, .known 1, .known 1]⟩
    let attributes : Attributes := { entries := [("axes", .ints [-2, 0])] }
    let node : Node := { op := "Unsqueeze", inputs := ["x"], outputs := ["y"], attributes }
    let c : Context := ⟨node, [some { type := ⟨some .float, some s⟩ }], 11⟩
    let node' : Node := { node with op := "Squeeze" }
    let c' : Context := ⟨node', [some { type := ⟨some .float, some t⟩ }], 11⟩
    c.typeAt 0 = .ok ⟨some .float, some s⟩ ∧
      c.intsOperand "axes" 1 axesOperandVersion = .ok (some [-2, 0]) ∧
      unsqueeze c = .ok [⟨some .float, some t⟩] ∧ squeeze c' = .ok [⟨some .float, some s⟩] := by
  intro s t attributes node c node' c'
  have hdata : c.typeAt 0 = .ok ⟨some .float, some s⟩ := by rfl
  have haxes : c.intsOperand "axes" 1 axesOperandVersion = .ok (some [-2, 0]) := by rfl
  have htypes : unsqueeze c = .ok [⟨some .float, some t⟩] := by rfl
  obtain ⟨u, positions, hu, _, _, hback⟩ := (squeeze_unsqueeze hdata haxes).2 _ htypes
  obtain rfl : t = u := by simpa using hu
  exact ⟨hdata, haxes, htypes, hback c' rfl rfl⟩

end Rule

end TensorGraph
