import Mathlib.Data.List.Nodup
import TensorGraph.Proofs.Aborts

/-!
# Data and its axes

What a node does with data of a known shape is said of the type of its first operand. A list of axes
of such data is accepted if all of them are in range, and then every axis stands for one position.
-/

namespace TensorGraph

namespace Context

variable {c : Context} {i : Nat} {elem? : Option ElemType} {s : Shape}

lemma typeAt_eq_ok_iff {type : TensorType} :
    c.typeAt i = .ok type ↔ ∃ constant?, c.operand? i = some ⟨type, constant?⟩ := by
  unfold typeAt
  cases c.operand? i with
  | none => simp
  | some o =>
    obtain ⟨type', constant?⟩ := o
    simp

lemma shapeAt_of_typeAt (h : c.typeAt i = .ok ⟨elem?, some s⟩) : c.shapeAt i = .ok s := by
  obtain ⟨constant?, ho⟩ := typeAt_eq_ok_iff.mp h
  unfold shapeAt
  rw [ho]

lemma withElem_of_typeAt (h : c.typeAt i = .ok ⟨elem?, some s⟩) (t : Shape) :
    c.withElem i t = ⟨elem?, some t⟩ := by
  obtain ⟨constant?, ho⟩ := typeAt_eq_ok_iff.mp h
  unfold withElem elemAt?
  rw [ho]
  rfl

end Context

/-- The position that an axis stands for; outside of the rank if the axis is out of range. -/
def axisPosition (rank : Nat) (axis : Int) : Int := if axis < 0 then axis + rank else axis

section Axes

variable {rank position : Nat} {axis : Int} {axes : List Int} {positions : List Nat}

lemma axisIn_eq_ok_iff :
    axisIn rank axis = .ok position ↔ position < rank ∧ axisPosition rank axis = position := by
  unfold axisIn resolveAxis axisPosition
  rw [mapError_eq_ok_iff]
  dsimp only
  generalize (if axis < 0 then axis + (rank : Int) else axis) = p
  by_cases hp : 0 ≤ p ∧ p < rank
  · rw [if_pos hp, Except.ok.injEq]
    omega
  · rw [if_neg hp]
    simp only [reduceCtorEq, false_iff, not_and]
    omega

lemma exists_axisIn_iff :
    (∃ position, axisIn rank axis = .ok position) ↔ -(rank : Int) ≤ axis ∧ axis < rank := by
  simp only [axisIn_eq_ok_iff, axisPosition]
  constructor
  · rintro ⟨position, hlt, heq⟩
    split_ifs at heq <;> omega
  · intro h
    refine ⟨(axisPosition rank axis).toNat, ?_⟩
    unfold axisPosition
    split_ifs <;> omega

lemma mapM_axisIn_eq_ok_iff :
    axes.mapM (axisIn rank) = .ok positions ↔
      (∀ p ∈ positions, p < rank) ∧ axes.map (axisPosition rank) = positions.map Nat.cast := by
  rw [mapM_eq_ok_iff]
  simp only [axisIn_eq_ok_iff]
  induction axes generalizing positions with
  | nil => cases positions <;> simp
  | cons axis axes ih =>
    cases positions with
    | nil => simp
    | cons p positions =>
      simp only [List.forall₂_cons, ih, List.forall_mem_cons, List.map_cons, List.cons.injEq]
      tauto

lemma exists_mapM_axisIn_iff :
    (∃ positions, axes.mapM (axisIn rank) = .ok positions) ↔
      ∀ axis ∈ axes, -(rank : Int) ≤ axis ∧ axis < rank := by
  simp only [mapM_eq_ok_iff, exists_forall₂_iff, exists_axisIn_iff]

lemma nodup_map_axisPosition_iff (h : axes.mapM (axisIn rank) = .ok positions) :
    (axes.map (axisPosition rank)).Nodup ↔ positions.Nodup := by
  rw [(mapM_axisIn_eq_ok_iff.mp h).2, List.nodup_map_iff fun _ _ => Int.ofNat_inj.mp]

end Axes

end TensorGraph
