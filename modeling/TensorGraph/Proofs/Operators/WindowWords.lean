import Mathlib.Algebra.Group.Int.Defs
import Mathlib.Algebra.Group.Nat.Defs
import TensorGraph.Proofs.Strict.Window

/-!
# Windows of machine words

Settings are lists of signed machine words, and extents are machine words without a sign. So are the
parameters of a window on each axis.
-/

namespace TensorGraph

/-- What a signed machine word holds. -/
def HeldSigned (v : Int) : Prop := -(2 ^ 63) ≤ v ∧ v < 2 ^ 63

/-- The parameters of a window on one axis are machine words, the kernel one without a sign. -/
structure Rule.AxisWindow.InWords (w : Rule.AxisWindow) : Prop where
  kernel : w.kernel < wordLimit
  stride : 1 ≤ w.stride ∧ w.stride < 2 ^ 63
  dilation : w.dilation < 2 ^ 63
  before : HeldSigned w.before
  behind : HeldSigned w.behind

lemma Node.held_of_ints? {n : Node} {name : String} {vs : List Int} (h : n.ints? name = some vs) :
    ∀ v ∈ vs, HeldSigned v := by
  obtain ⟨a, -, h⟩ := Option.bind_eq_some_iff.mp h
  cases a with
  | ints values =>
    obtain rfl := Option.some.inj h
    exact List.forall_mem_map.mpr fun v _ => ⟨v.le_toInt, v.toInt_lt⟩
  | _ => cases h

namespace Rule

variable {n : Node} {count : Nat} {kernels : List Nat} {window : Window} {weights : Shape}

lemma perAxis_lt {name : String} {vs : List Nat} (h : perAxis n name count = .ok vs) :
    ∀ v ∈ vs, v < 2 ^ 63 := by
  unfold perAxis at h
  split at h
  · obtain rfl := Except.ok.inj h
    intro v hv
    rw [List.eq_of_mem_replicate hv]
    decide
  · rename_i values hvalues
    split_ifs at h
    obtain rfl := Except.ok.inj h
    refine List.forall_mem_map.mpr fun v hv => ?_
    have hheld := Node.held_of_ints? hvalues v hv
    unfold HeldSigned at hheld
    omega

lemma held_of_windowPads {pads : List Int} (h : windowPads n count = .ok pads) :
    ∀ v ∈ pads, HeldSigned v := by
  unfold windowPads at h
  split at h
  · obtain rfl := Except.ok.inj h
    intro v hv
    rw [List.eq_of_mem_replicate hv]
    exact ⟨by decide, by decide⟩
  · rename_i values hvalues
    split_ifs at h
    obtain rfl := Except.ok.inj h
    exact Node.held_of_ints? hvalues

lemma lt_wordLimit_of_kernelSetting (h : kernelSetting n = .ok (some kernels)) :
    ∀ k ∈ kernels, k < wordLimit := by
  unfold kernelSetting at h
  split at h
  · cases h
  · rename_i values hvalues
    split_ifs at h
    obtain rfl := Option.some.inj (Except.ok.inj h)
    refine List.forall_mem_map.mpr fun v hv => ?_
    have hheld := Node.held_of_ints? hvalues v hv
    unfold HeldSigned at hheld
    unfold wordLimit
    omega

lemma lt_wordLimit_of_kernelsOf (hweights : ∀ k, .known k ∈ weights.dims → k < wordLimit)
    (h : kernelsOf n weights count = .ok kernels) : ∀ k ∈ kernels, k < wordLimit := by
  obtain ⟨-, hsetting | ⟨-, hextents⟩⟩ := Strict.kernelsOf_eq_ok_iff.mp h
  · exact lt_wordLimit_of_kernelSetting hsetting
  · refine forall_mem_of_mapM_eq_some hextents fun d hd k hk => hweights k ?_
    cases d with
    | known size =>
      obtain rfl := Option.some.inj hk
      exact List.mem_of_mem_drop hd
    | _ => cases hk

lemma settings_of_mem (h : Window.ofNode n kernels = .ok window) {w : AxisWindow}
    (hw : w ∈ window.axes) : w.kernel ∈ kernels ∧ (1 ≤ w.stride ∧ w.stride < 2 ^ 63) ∧
      w.dilation < 2 ^ 63 ∧ HeldSigned w.before ∧ HeldSigned w.behind := by
  rw [Strict.WindowLists.ofNode_window] at h
  obtain ⟨l, hl, rfl⟩ := map_eq_ok_iff.mp h
  obtain ⟨strides, hstrides, hl⟩ := bind_eq_ok_iff.mp hl
  obtain ⟨dilations, hdilations, hl⟩ := bind_eq_ok_iff.mp hl
  obtain ⟨pads, hpads, hl⟩ := bind_eq_ok_iff.mp hl
  obtain ⟨autoPad, -, hl⟩ := bind_eq_ok_iff.mp hl
  obtain rfl := Except.ok.inj hl
  obtain ⟨axis, haxis⟩ := List.mem_iff_getElem?.mp hw
  obtain ⟨hkernel, hstride, hdilation, hbefore, hbehind⟩ :=
    Strict.WindowLists.getElem?_of_axes haxis
  have hstride' := List.mem_of_getElem? hstride
  have hpositive := (Strict.WindowLists.perAxis_fits hstrides).2 _ hstride'
  exact ⟨List.mem_of_getElem? hkernel,
    ⟨Nat.one_le_iff_ne_zero.mpr hpositive, perAxis_lt hstrides _ hstride'⟩,
    perAxis_lt hdilations _ (List.mem_of_getElem? hdilation),
    held_of_windowPads hpads _ (List.mem_of_getElem? hbefore),
    held_of_windowPads hpads _ (List.mem_of_getElem? hbehind)⟩

lemma inWords_of_ofNode (hkernels : ∀ k ∈ kernels, k < wordLimit)
    (h : Window.ofNode n kernels = .ok window) : ∀ w ∈ window.axes, w.InWords := by
  intro w hw
  obtain ⟨hkernel, hstride, hdilation, hbefore, hbehind⟩ := settings_of_mem h hw
  exact ⟨hkernels _ hkernel, hstride, hdilation, hbefore, hbehind⟩

end Rule

end TensorGraph
