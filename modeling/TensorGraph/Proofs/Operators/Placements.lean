import TensorGraph.Proofs.Operators.Steps
import TensorGraph.Proofs.Strict.Window

/-!
# Placements of a window

A window is placed on an axis in steps of its stride, wherever it fits. Over an axis of known extent
the extent of the result is the number of these places, whatever the paddings are. There is no
result if there is no place, and the extent is unknown if there are too many of them.
-/

namespace TensorGraph.Rule

variable {w : AxisWindow} {autoPad : AutoPad} {n : Node} {kernels : List Nat} {window : Window}

namespace AxisWindow

/-- What it means that a window has `c` places on an axis of `size` positions. With `ceiling` it may
hang over the end of the padded axis by less than its stride, but only if it fits on it at all. -/
def HasPlaces (w : AxisWindow) (autoPad : AutoPad) (ceiling : Bool) (size c : Nat) : Prop :=
  match autoPad, ceiling with
  | .notSet, false => {t : Nat | t * w.stride + w.reach ≤ size + w.before + w.behind}.encard = c
  | .notSet, true =>
    if w.reach ≤ size + w.before + w.behind then
      {t : Nat | t * w.stride + w.reach < size + w.before + w.behind + w.stride}.encard = c
    else c = 0
  | .valid, _ => {t : Nat | t * w.stride + w.reach ≤ size}.encard = c
  | .same, _ => IsLeast {c : Nat | size ≤ c * w.stride} c

lemma encard_places (hstride : 0 < w.stride) (room : Int) :
    {t : Nat | t * w.stride + w.reach ≤ room}.encard =
      (stepsBelow w.stride (room - w.reach + 1)).toNat := by
  have hplace (t : Nat) : t * w.stride + w.reach ≤ room ↔
      (t : Int) * w.stride < room - w.reach + 1 := by omega
  simp only [hplace]
  exact encard_steps (by omega) _

lemma encard_overhanging (hstride : 0 < w.stride) (room : Int) :
    {t : Nat | t * w.stride + w.reach < room + w.stride}.encard =
      (stepsBelow w.stride (room - w.reach + w.stride)).toNat := by
  have hplace (t : Nat) : t * w.stride + w.reach < room + w.stride ↔
      (t : Int) * w.stride < room - w.reach + w.stride := by omega
  simp only [hplace]
  exact encard_steps (by omega) _

lemma hasPlaces_count (hstride : 0 < w.stride) (ceiling : Bool) (size : Nat) :
    w.HasPlaces autoPad ceiling size (w.count autoPad ceiling size).toNat := by
  have hpositive : 0 < (w.stride : Int) := by omega
  cases autoPad with
  | notSet =>
    set room : Int := size + w.before + w.behind with hroom
    cases ceiling with
    | false =>
      change {t : Nat | t * w.stride + w.reach ≤ room}.encard = _
      rw [encard_places hstride, stepsBelow_add_one hpositive]
      unfold count
      dsimp only
      rw [← hroom]
      by_cases hspan : room - w.reach < 0
      · have hnone : (room - w.reach) / w.stride < 0 :=
          Int.ediv_neg_of_neg_of_pos hspan hpositive
        rw [if_pos hspan, Int.toNat_of_nonpos (by omega)]
        rfl
      · rw [if_neg hspan]
        rfl
    | true =>
      change if w.reach ≤ room then {t : Nat | _}.encard = _ else _
      unfold count
      dsimp only
      rw [← hroom]
      by_cases hfits : w.reach ≤ room
      · rw [if_pos hfits, if_neg (by omega), encard_overhanging hstride,
          stepsBelow_add_stride hpositive]
        rfl
      · rw [if_neg hfits, if_pos (by omega)]
        rfl
  | valid =>
    change {t : Nat | t * w.stride + w.reach ≤ (size : Int)}.encard = _
    rw [encard_places hstride, stepsBelow]
    unfold count
    congr 4
    omega
  | same =>
    have hcount : w.count .same ceiling size = stepsBelow w.stride size := rfl
    have hsteps (c : Nat) : size ≤ c * w.stride ↔ stepsBelow w.stride size ≤ c := by
      have hlt : (c : Int) * w.stride < size ↔ c < stepsBelow w.stride size :=
        mul_lt_iff_lt_stepsBelow hpositive c
      rw [← Int.natCast_mul] at hlt
      omega
    refine ⟨(hsteps _).mpr ?_, fun c hc => ?_⟩
    · rw [hcount]
      exact Int.self_le_toNat _
    · rw [hcount]
      exact Int.toNat_le.mpr ((hsteps c).mp hc)

lemma forward_known (w : AxisWindow) (autoPad : AutoPad) (ceiling : Bool) (size : Nat) :
    w.forward autoPad ceiling (.known size) =
      let c := (w.count autoPad ceiling size).toNat
      if c < 1 then .error (.invalid "kernel_shape" (.doesNotFit w.reach size))
      else if c < wordLimit then .ok (.known c) else .ok .unknown := by
  unfold forward wordDim
  dsimp only
  by_cases hnone : w.count autoPad ceiling size < 1
  · rw [if_pos hnone, if_pos (by omega)]
  · have hsome : ¬(w.count autoPad ceiling size).toNat < 1 := by omega
    rw [if_neg hnone, if_neg hsome]
    split_ifs <;> rfl

end AxisWindow

lemma stride_pos_of_ofNode (h : Window.ofNode n kernels = .ok window) :
    ∀ w ∈ window.axes, 0 < w.stride := by
  rw [Strict.WindowLists.ofNode_window] at h
  obtain ⟨l, hl, rfl⟩ := map_eq_ok_iff.mp h
  intro w hw
  obtain ⟨axis, hw⟩ := List.getElem?_of_mem hw
  obtain ⟨-, hstride, -⟩ := Strict.WindowLists.getElem?_of_axes hw
  exact Nat.pos_of_ne_zero
    ((Strict.WindowLists.fits_of_ofNode hl).positive w.stride (List.mem_of_getElem? hstride))

/-- On each axis of known extent, the extent of the result is the number of places of the window:
an error if there is none, and unknown if the number is no machine word. -/
theorem forward_counts_places (hwindow : Window.ofNode n kernels = .ok window) {w : AxisWindow}
    (hw : w ∈ window.axes) (ceiling : Bool) (size : Nat) :
    ∃ c, w.HasPlaces window.autoPad ceiling size c ∧
      w.forward window.autoPad ceiling (.known size) =
        if c < 1 then .error (.invalid "kernel_shape" (.doesNotFit w.reach size))
        else if c < wordLimit then .ok (.known c) else .ok .unknown :=
  ⟨_, w.hasPlaces_count (stride_pos_of_ofNode hwindow w hw) ceiling size,
    w.forward_known window.autoPad ceiling size⟩

/-- The padded axis has twelve positions, of which the window spans five. Its fourth place ends two
positions behind them. -/
theorem forward_counts_places_hanging_over :
    let attributes : Attributes :=
      { entries := [("dilations", .ints [2]), ("pads", .ints [-1, 2]), ("strides", .ints [3])] }
    let n : Node := { op := "MaxPool", inputs := ["x"], outputs := ["y"], attributes }
    let w : AxisWindow := ⟨3, 3, 2, -1, 2⟩
    Window.ofNode n [3] = .ok ⟨[w], .notSet⟩ ∧ w ∈ [w] ∧
      {t : Nat | (t : Int) * 3 + 5 < 12 + 3}.encard = 4 ∧
      w.forward .notSet true (.known 11) = .ok (.known 4) := by
  intro attributes n w
  have hwindow : Window.ofNode n [3] = .ok ⟨[w], .notSet⟩ := by rfl
  have hforward : w.forward .notSet true (.known 11) = .ok (.known 4) := by decide
  obtain ⟨c, hplaces, hresult⟩ := forward_counts_places hwindow List.mem_cons_self true 11
  rw [hforward] at hresult
  have hc : c = 4 := by
    split_ifs at hresult
    · exact (Dim.known.inj (Except.ok.inj hresult)).symm
    · cases hresult
  subst hc
  exact ⟨hwindow, List.mem_cons_self, hplaces, hforward⟩

end TensorGraph.Rule
