import TensorGraph.Proofs.Aborts
import TensorGraph.Proofs.Strict.Basic

/-!
# Strict sliding windows

The parameters of a window are lists with one entry for each spatial axis, of which there are as
many as kernels; strides are positive. A strict run reads all of them at the axis it is at, the
second half of the paddings at as many positions behind.
-/

namespace TensorGraph

namespace Strict

/-- The parameters of a window, the paddings before all axes in front of those behind them. -/
structure WindowLists where
  kernels : List Nat
  strides : List Nat
  dilations : List Nat
  pads : List Int
  autoPad : Rule.AutoPad
deriving DecidableEq, Repr

namespace WindowLists

def ofNode (n : Node) (kernels : List Nat) : Except RuleError WindowLists := do
  let strides ← Rule.perAxis n "strides" kernels.length
  let dilations ← Rule.perAxis n "dilations" kernels.length
  let pads ← Rule.windowPads n kernels.length
  let autoPad ← Rule.autoPadOf n
  return { kernels, strides, dilations, pads, autoPad }

def reach (l : WindowLists) (axis : Nat) : Strict Int := do
  return (← read l.dilations axis) * ((← read l.kernels axis) - 1) + 1

/-- How often a window of a given stride and reach fits on an axis. -/
def count (l : WindowLists) (axis : Nat) (ceiling : Bool) (stride : Nat) (reach : Int)
    (size : Nat) : Strict Int :=
  match l.autoPad with
  | .same => divideInt (size + stride - 1) stride
  | .valid => divideInt (size - reach + stride) stride
  | .notSet => do
    let before ← read l.pads axis
    let behind ← read l.pads (axis + l.kernels.length)
    let span := size + before + behind - reach
    if span < 0 then return -1
    else if ceiling then return (← divideInt (span + stride - 1) stride) + 1
    else return (← divideInt span stride) + 1

def forward (l : WindowLists) (axis : Nat) (ceiling : Bool) : Dim → Strict Dim
  | .known size => do
    let stride ← read l.strides axis
    let reach ← l.reach axis
    let count ← l.count axis ceiling stride reach size
    if count < 1 then halt (.invalid "kernel_shape" (.doesNotFit reach size))
    else return wordDim count.toNat
  | _ => return .unknown

/-- The extent of an axis over which a window of `size` positions would move. -/
def spread (l : WindowLists) (spatial : Nat) (extra : Int) (axis size : Nat) : Strict Int := do
  let stride ← read l.strides axis
  match l.autoPad with
  | .same => return size * stride
  | _ =>
    let before ← read l.pads axis
    let behind ← read l.pads (axis + spatial)
    let reach ← l.reach axis
    let covered ← lift (Rule.held .addition (stride * (size - 1) + extra + reach))
    lift (Rule.held .subtraction (covered - (before + behind)))

def backward (l : WindowLists) (spatial : Nat) (extra : Int) (axis : Nat) : Dim → Strict Dim
  | .known size => do
    let extent ← l.spread spatial extra axis size
    if extent < 1 then halt (.invalid "pads" (.outputExtent extent axis))
    else return wordDim extent.toNat
  | _ => return .unknown

end WindowLists

/-! ### The rules -/

def imageShape (c : Context) : Strict Shape := do
  let x ← lift (c.shapeAt 0)
  if x.rank < 3 then halt (.invalid "X" (.noSpatialAxes x.rank)) else return x

def imageAndWeights (c : Context) : Strict (Shape × Shape) := do
  let x ← imageShape c
  let weights ← lift (c.shapeAt 1)
  if weights.rank ≠ x.rank then halt (.invalid "W" (.rankForInput weights.rank x.rank))
  else return (x, weights)

def kernelsOf (n : Node) (weights : Shape) (spatial : Nat) : Strict (List Nat) := do
  let kernels ← match ← lift (Rule.kernelSetting n) with
    | some kernels => pure kernels
    | none => do
      match (← readRange weights.dims 2 weights.dims.length).mapM Dim.extent? with
      | some kernels => pure kernels
      | none => halt (.invalid "kernel_shape" .unknownWeight)
  if kernels.length ≠ spatial then
    halt (.invalid "kernel_shape" (.axesForSpatial kernels.length spatial))
  else return kernels

def forwardAll (l : WindowLists) (ceiling : Bool) (x : Shape) : Strict (List Dim) := do
  let spatial ← readRange x.dims 2 x.dims.length
  spatial.zipIdx.mapM fun (d, axis) => l.forward axis ceiling d

def conv (c : Context) : Strict (List TensorType) := do
  let (x, weights) ← imageAndWeights c
  let kernels ← kernelsOf c.node weights (x.rank - 2)
  let window ← lift (WindowLists.ofNode c.node kernels)
  let batch ← read x.dims 0
  let features ← read weights.dims 0
  let spatial ← forwardAll window false x
  return [c.withElem 0 ⟨batch :: features :: spatial⟩]

def transposedChannels (c : Context) (weights : Shape) : Strict Dim := do
  match ← read weights.dims 1 with
  | .known n => return wordDim (n * (max (c.int "group" 1) 1).toNat)
  | _ => return .unknown

def transposedDims (c : Context) (x weights : Shape) : Strict (List Dim) :=
  match c.node.ints? "output_shape" with
  | some extents =>
    if extents.length ≠ x.rank - 2 then halt (.invalid "output_shape" (.listing extents))
    else lift (extents.mapM fun e =>
      if e < 0 then .error (.invalid "output_shape" (.value e)) else .ok (.known e.toNat))
  | none => do
    let kernels ← kernelsOf c.node weights (x.rank - 2)
    let window ← lift (WindowLists.ofNode c.node kernels)
    let extras := (c.node.ints? "output_padding").getD []
    let spatial ← readRange x.dims 2 x.dims.length
    spatial.zipIdx.mapM fun (d, axis) =>
      window.backward (x.rank - 2) ((extras[axis]?).getD 0) axis d

def convTranspose (c : Context) : Strict (List TensorType) := do
  let (x, weights) ← imageAndWeights c
  let channels ← transposedChannels c weights
  let batch ← read x.dims 0
  let spatial ← transposedDims c x weights
  return [c.withElem 0 ⟨batch :: channels :: spatial⟩]

def pool (c : Context) : Strict (List TensorType) := do
  let x ← imageShape c
  match ← lift (Rule.kernelSetting c.node) with
  | none => halt (.missingAttribute "kernel_shape")
  | some kernels =>
    if kernels.length ≠ x.rank - 2 then
      halt (.invalid "kernel_shape" (.axesForInput kernels.length x.rank))
    else
      let window ← lift (WindowLists.ofNode c.node kernels)
      let outer ← readRange x.dims 0 2
      let spatial ← forwardAll window (c.int "ceil_mode" 0 != 0) x
      let shape : Shape := ⟨outer ++ spatial⟩
      if c.node.op = "MaxPool" then return [c.withElem 0 shape, .of .int64 shape]
      else return [c.withElem 0 shape]

def globalPool (c : Context) : Strict (List TensorType) := do
  let x ← imageShape c
  let outer ← readRange x.dims 0 2
  return [c.withElem 0 ⟨outer ++ List.replicate (x.rank - 2) (.known 1)⟩]

/-! ### Windows without fault -/

namespace WindowLists

def axes (l : WindowLists) : List Rule.AxisWindow :=
  (List.zip l.kernels (List.zip l.strides (List.zip l.dilations
    (List.zip l.pads (l.pads.drop l.kernels.length))))).map
      fun (kernel, stride, dilation, before, behind) =>
        { kernel, stride, dilation, before, behind }

def window (l : WindowLists) : Rule.Window := ⟨l.axes, l.autoPad⟩

lemma ofNode_window (n : Node) (kernels : List Nat) :
    Rule.Window.ofNode n kernels = (ofNode n kernels).map window := by
  unfold Rule.Window.ofNode ofNode
  dsimp only
  rcases Rule.perAxis n "strides" kernels.length with _ | strides
  · rfl
  rcases Rule.perAxis n "dilations" kernels.length with _ | dilations
  · rfl
  rcases Rule.windowPads n kernels.length with _ | pads
  · rfl
  rcases Rule.autoPadOf n with _ | autoPad <;> rfl

/-- What holds of the parameters of a node with so many spatial axes. -/
structure Fits (l : WindowLists) (count : Nat) : Prop where
  kernels : l.kernels.length = count
  strides : l.strides.length = count
  dilations : l.dilations.length = count
  pads : l.pads.length = 2 * count
  positive : ∀ stride ∈ l.strides, stride ≠ 0

lemma perAxis_fits {n : Node} {name : String} {count : Nat} {vs : List Nat}
    (h : Rule.perAxis n name count = .ok vs) : vs.length = count ∧ ∀ v ∈ vs, v ≠ 0 := by
  unfold Rule.perAxis at h
  split at h
  · obtain rfl := Except.ok.inj h
    exact ⟨List.length_replicate, fun v hv => by rw [List.eq_of_mem_replicate hv]; decide⟩
  · split_ifs at h with hvs
    obtain rfl := Except.ok.inj h
    refine ⟨(List.length_map _).trans hvs.1, List.forall_mem_map.mpr fun v hv => ?_⟩
    have hpositive := List.all_eq_true.mp hvs.2 v hv
    simp only [decide_eq_true_eq] at hpositive
    omega

lemma length_of_windowPads {n : Node} {count : Nat} {pads : List Int}
    (h : Rule.windowPads n count = .ok pads) : pads.length = 2 * count := by
  unfold Rule.windowPads at h
  split at h
  · obtain rfl := Except.ok.inj h
    exact List.length_replicate
  · split_ifs at h with hpads
    obtain rfl := Except.ok.inj h
    exact hpads

lemma fits_of_ofNode {n : Node} {kernels : List Nat} {l : WindowLists}
    (h : ofNode n kernels = .ok l) : l.Fits kernels.length := by
  obtain ⟨strides, hstrides, h⟩ := bind_eq_ok_iff.mp h
  obtain ⟨dilations, hdilations, h⟩ := bind_eq_ok_iff.mp h
  obtain ⟨pads, hpads, h⟩ := bind_eq_ok_iff.mp h
  obtain ⟨autoPad, _, h⟩ := bind_eq_ok_iff.mp h
  obtain rfl := Except.ok.inj h
  exact ⟨rfl, (perAxis_fits hstrides).1, (perAxis_fits hdilations).1, length_of_windowPads hpads,
    (perAxis_fits hstrides).2⟩

variable {l : WindowLists} {count : Nat}

lemma Fits.length_axes (h : l.Fits count) : l.axes.length = count := by
  simp only [axes, List.length_map, List.length_zip, List.length_drop, h.kernels, h.strides,
    h.dilations, h.pads]
  omega

lemma getElem?_of_axes {axis : Nat} {w : Rule.AxisWindow} (hw : l.axes[axis]? = some w) :
    l.kernels[axis]? = some w.kernel ∧ l.strides[axis]? = some w.stride ∧
      l.dilations[axis]? = some w.dilation ∧ l.pads[axis]? = some w.before ∧
      l.pads[axis + l.kernels.length]? = some w.behind := by
  unfold axes at hw
  rw [List.getElem?_map, Option.map_eq_some_iff] at hw
  obtain ⟨⟨kernel, stride, dilation, before, behind⟩, hw, rfl⟩ := hw
  obtain ⟨hkernel, hw⟩ := List.getElem?_zip_eq_some.mp hw
  obtain ⟨hstride, hw⟩ := List.getElem?_zip_eq_some.mp hw
  obtain ⟨hdilation, hw⟩ := List.getElem?_zip_eq_some.mp hw
  obtain ⟨hbefore, hbehind⟩ := List.getElem?_zip_eq_some.mp hw
  rw [List.getElem?_drop, Nat.add_comm] at hbehind
  exact ⟨hkernel, hstride, hdilation, hbefore, hbehind⟩

lemma reach_eq_ok {axis : Nat} {w : Rule.AxisWindow} (hw : l.axes[axis]? = some w) :
    l.reach axis = .ok w.reach := by
  obtain ⟨hkernel, _, hdilation, _⟩ := getElem?_of_axes hw
  unfold reach
  rw [read_eq_ok hkernel, read_eq_ok hdilation]
  rfl

lemma count_eq_ok (h : l.Fits count) {axis : Nat} {w : Rule.AxisWindow}
    (hw : l.axes[axis]? = some w) (ceiling : Bool) (size : Nat) :
    l.count axis ceiling w.stride w.reach size = .ok (w.count l.autoPad ceiling size) := by
  obtain ⟨_, hstride, _, hbefore, hbehind⟩ := getElem?_of_axes hw
  have hpositive : (w.stride : Int) ≠ 0 :=
    Int.natCast_ne_zero.mpr (h.positive _ (List.mem_of_getElem? hstride))
  unfold WindowLists.count Rule.AxisWindow.count
  cases l.autoPad with
  | same => exact divideInt_eq_ok hpositive
  | valid => exact divideInt_eq_ok hpositive
  | notSet =>
    dsimp only
    rw [read_eq_ok hbefore, read_eq_ok hbehind]
    change (if _ then _ else _) = Except.ok (if _ then _ else _)
    rw [divideInt_eq_ok hpositive, divideInt_eq_ok hpositive]
    split_ifs <;> rfl

lemma forward_eq_lift (h : l.Fits count) {axis : Nat} {w : Rule.AxisWindow}
    (hw : l.axes[axis]? = some w) (ceiling : Bool) (d : Dim) :
    l.forward axis ceiling d = lift (w.forward l.autoPad ceiling d) := by
  obtain ⟨_, hstride, _⟩ := getElem?_of_axes hw
  cases d with
  | known size =>
    unfold forward Rule.AxisWindow.forward
    dsimp only
    rw [read_eq_ok hstride, reach_eq_ok hw]
    change l.count axis ceiling w.stride w.reach size >>= _ = _
    rw [count_eq_ok h hw]
    change (if _ then _ else _) = lift (if _ then _ else _)
    split_ifs <;> rfl
  | _ => rfl

lemma backward_eq_lift (h : l.Fits count) {axis : Nat} {w : Rule.AxisWindow}
    (hw : l.axes[axis]? = some w) (extra : Int) (d : Dim) :
    l.backward count extra axis d = lift (w.backward l.autoPad extra axis d) := by
  obtain ⟨_, hstride, _, hbefore, hbehind⟩ := getElem?_of_axes hw
  rw [h.kernels] at hbehind
  cases d with
  | known size =>
    have hspread : l.spread count extra axis size = lift (w.spread l.autoPad extra size) := by
      unfold spread Rule.AxisWindow.spread
      rw [read_eq_ok hstride, read_eq_ok hbefore, read_eq_ok hbehind, reach_eq_ok hw]
      cases l.autoPad with
      | same => rfl
      | _ => exact bind_eq_lift fun _ _ => rfl
    unfold backward Rule.AxisWindow.backward
    dsimp only
    rw [hspread]
    refine bind_eq_lift fun extent _ => ?_
    split_ifs <;> rfl
  | _ => rfl

end WindowLists

lemma bind_ofNode {β : Type} {n : Node} {kernels : List Nat} {f : WindowLists → Strict β}
    {g : Rule.Window → Except RuleError β}
    (h : ∀ l : WindowLists, l.Fits kernels.length → f l = lift (g l.window)) :
    lift (WindowLists.ofNode n kernels) >>= f = lift (Rule.Window.ofNode n kernels >>= g) := by
  rw [WindowLists.ofNode_window]
  cases hl : WindowLists.ofNode n kernels with
  | error e => cases e <;> rfl
  | ok l => exact h l (WindowLists.fits_of_ofNode hl)

/-! ### Images without fault -/

lemma bind_imageShape {β : Type} {c : Context} {f : Shape → Strict β}
    {g : Shape → Rule.Image → Except RuleError β}
    (h : ∀ (x : Shape) (image : Rule.Image),
      x.dims = image.batch :: image.channels :: image.spatial → f x = lift (g x image)) :
    imageShape c >>= f = lift (c.shapeAt 0 >>= fun x => Rule.imageOf x >>= g x) := by
  unfold imageShape
  rw [bind_assoc]
  refine bind_eq_lift fun x _ => ?_
  rcases x with ⟨_ | ⟨batch, _ | ⟨channels, _ | ⟨d, dims⟩⟩⟩⟩
  · rfl
  · rfl
  · rfl
  · exact h _ ⟨batch, channels, d :: dims⟩ rfl

lemma bind_imageAndWeights {β : Type} {c : Context} {f : Shape × Shape → Strict β}
    {g : Rule.Image × Shape → Except RuleError β}
    (h : ∀ (x : Shape) (image : Rule.Image) (weights : Shape),
      x.dims = image.batch :: image.channels :: image.spatial → weights.rank = x.rank →
        f (x, weights) = lift (g (image, weights))) :
    imageAndWeights c >>= f = lift (Rule.imageAndWeights c >>= g) := by
  unfold imageAndWeights Rule.imageAndWeights
  simp only [bind_assoc]
  refine bind_imageShape fun x image hx => bind_eq_lift fun weights _ => ?_
  by_cases hrank : weights.rank = x.rank
  · rw [if_neg (not_not_intro hrank), if_neg (not_not_intro hrank)]
    exact h x image weights hx hrank
  · rw [if_pos hrank, if_pos hrank]
    rfl

lemma kernelsOf_eq_lift (n : Node) {weights : Shape} (hrank : 2 ≤ weights.rank) (spatial : Nat) :
    kernelsOf n weights spatial = lift (Rule.kernelsOf n weights spatial) := by
  refine bind_eq_lift fun kernels? _ => ?_
  cases kernels? with
  | some kernels =>
    change (if _ then _ else _) = lift (if _ then _ else _)
    split_ifs <;> rfl
  | none =>
    dsimp only
    rw [readRange_length hrank]
    change (match (weights.dims.drop 2).mapM Dim.extent? with | some _ => _ | none => _) = _
    cases (weights.dims.drop 2).mapM Dim.extent? with
    | none => rfl
    | some kernels =>
      change (if _ then _ else _) = lift (if _ then _ else _)
      split_ifs <;> rfl

/-- As many kernels as spatial axes, which are named or else the extents of the weights. -/
lemma kernelsOf_eq_ok_iff {n : Node} {weights : Shape} {spatial : Nat} {kernels : List Nat} :
    Rule.kernelsOf n weights spatial = .ok kernels ↔ kernels.length = spatial ∧
      (Rule.kernelSetting n = .ok (some kernels) ∨ Rule.kernelSetting n = .ok none ∧
        (weights.dims.drop 2).mapM Dim.extent? = some kernels) := by
  have hchecked (kernels' : List Nat) : (do
      if kernels'.length ≠ spatial then
        .error (.invalid "kernel_shape" (.axesForSpatial kernels'.length spatial))
      return kernels' : Except RuleError (List Nat)) = .ok kernels ↔
        kernels.length = spatial ∧ kernels' = kernels := by
    split_ifs with hlength
    · refine iff_of_false nofun ?_
      rintro ⟨hlength', rfl⟩
      exact hlength hlength'
    · rw [not_not] at hlength
      constructor
      · intro h
        obtain rfl := Except.ok.inj h
        exact ⟨hlength, rfl⟩
      · rintro ⟨-, rfl⟩
        rfl
  unfold Rule.kernelsOf
  rcases Rule.kernelSetting n with e | _ | setting
  · exact iff_of_false nofun (by simp)
  · cases hextents : (weights.dims.drop 2).mapM Dim.extent? with
    | none => exact iff_of_false nofun (by simp)
    | some extents => exact (hchecked extents).trans (by simp)
  · exact (hchecked setting).trans (by simp)

lemma length_of_kernelsOf {n : Node} {weights : Shape} {spatial : Nat} {kernels : List Nat}
    (h : Rule.kernelsOf n weights spatial = .ok kernels) : kernels.length = spatial :=
  (kernelsOf_eq_ok_iff.mp h).1

lemma forall₂_windows {axes : List Rule.AxisWindow} {spatial : List Dim}
    (h : axes.length = spatial.length) :
    List.Forall₂ (fun p q => q.1.2 = p.1 ∧ q.2 = p.2 ∧ axes[p.2]? = some q.1.1) spatial.zipIdx
      (List.zip axes spatial).zipIdx := by
  refine forall₂_of_getElem? (by simp [h]) fun i p q hp hq => ?_
  simp only [List.getElem?_zipIdx, Option.map_eq_some_iff] at hp hq
  obtain ⟨d, hd, rfl⟩ := hp
  obtain ⟨⟨w, d'⟩, hzip, rfl⟩ := hq
  obtain ⟨hw, hd'⟩ := List.getElem?_zip_eq_some.mp hzip
  rw [hd] at hd'
  exact ⟨(Option.some.inj hd').symm, rfl, by simpa using hw⟩

lemma mapM_windows_eq_lift {l : WindowLists} {spatial : List Dim} (h : l.Fits spatial.length)
    {f : Dim × Nat → Strict Dim} {g : (Rule.AxisWindow × Dim) × Nat → Except RuleError Dim}
    (hfg : ∀ w d axis, l.axes[axis]? = some w → f (d, axis) = lift (g ((w, d), axis))) :
    spatial.zipIdx.mapM f = lift ((List.zip l.axes spatial).zipIdx.mapM g) := by
  refine mapM_eq_lift ((forall₂_windows h.length_axes).imp fun p q hpq => ?_)
  obtain ⟨d, axis⟩ := p
  obtain ⟨⟨w, d'⟩, axis'⟩ := q
  obtain ⟨rfl, rfl, hw⟩ := hpq
  exact hfg w d' axis' hw

lemma forwardAll_eq_lift {l : WindowLists} {x : Shape} {batch channels : Dim} {spatial : List Dim}
    (h : l.Fits spatial.length) (hx : x.dims = batch :: channels :: spatial) (ceiling : Bool) :
    forwardAll l ceiling x = lift (Rule.forwardAll l.window ceiling spatial) := by
  unfold forwardAll Rule.forwardAll
  rw [readRange_length (by simp [hx]), hx, ← List.zipIdx_map_fst 0 (List.zip l.window.axes spatial),
    List.mapM_map]
  exact mapM_windows_eq_lift h fun w d axis hw => WindowLists.forward_eq_lift h hw ceiling d

/-! ### The rules without fault -/

lemma conv_eq_lift (c : Context) : conv c = lift (Rule.conv c) := by
  refine bind_imageAndWeights fun x image weights hx hrank => ?_
  have hspatial : x.rank = image.spatial.length + 2 := congrArg List.length hx
  have hweights : 2 ≤ weights.rank := by omega
  dsimp only
  rw [kernelsOf_eq_lift _ hweights, hspatial, Nat.add_sub_cancel]
  refine bind_eq_lift fun kernels hkernels => bind_ofNode fun l hl => ?_
  rw [length_of_kernelsOf hkernels] at hl
  have hbatch : read x.dims 0 = .ok image.batch := read_eq_ok (by rw [hx]; rfl)
  obtain ⟨features, others, hfeatures⟩ := List.exists_cons_of_length_pos
    (Nat.lt_of_lt_of_le Nat.two_pos hweights)
  rw [hbatch, hfeatures, forwardAll_eq_lift hl hx]
  exact bind_eq_lift fun _ _ => rfl

lemma transposedChannels_eq_ok (c : Context) {weights : Shape} (h : 2 ≤ weights.rank) :
    transposedChannels c weights = .ok (Rule.transposedChannels c weights) := by
  have h1 := List.getElem?_eq_getElem (l := weights.dims) (i := 1) h
  unfold transposedChannels Rule.transposedChannels
  rw [read_eq_ok h1, h1]
  change (match weights.dims[1] with | .known n => _ | _ => _) = _
  cases weights.dims[1] <;> rfl

lemma transposedDims_eq_lift (c : Context) {x weights : Shape} {image : Rule.Image}
    (hx : x.dims = image.batch :: image.channels :: image.spatial)
    (hweights : weights.rank = x.rank) :
    transposedDims c x weights = lift (Rule.transposedDims c image weights) := by
  have hrank : x.rank = image.spatial.length + 2 := congrArg List.length hx
  unfold transposedDims Rule.transposedDims
  rw [hrank, Nat.add_sub_cancel]
  cases c.node.ints? "output_shape" with
  | some extents =>
    dsimp only
    split_ifs <;> rfl
  | none =>
    dsimp only
    rw [kernelsOf_eq_lift _ (by omega)]
    refine bind_eq_lift fun kernels hkernels => bind_ofNode fun l hl => ?_
    rw [length_of_kernelsOf hkernels] at hl
    rw [readRange_length (by rw [hx]; exact Nat.le_add_left 2 _), hx]
    exact mapM_windows_eq_lift hl fun w d axis hw => WindowLists.backward_eq_lift hl hw _ d

lemma convTranspose_eq_lift (c : Context) : convTranspose c = lift (Rule.convTranspose c) := by
  refine bind_imageAndWeights fun x image weights hx hrank => ?_
  have hrank' : x.rank = image.spatial.length + 2 := congrArg List.length hx
  dsimp only
  rw [transposedChannels_eq_ok c (by omega), hx, transposedDims_eq_lift c hx hrank]
  exact bind_eq_lift fun _ _ => rfl

lemma pool_eq_lift (c : Context) : pool c = lift (Rule.pool c) := by
  refine bind_imageShape fun x image hx => bind_eq_lift fun kernels? _ => ?_
  have hspatial : x.rank = image.spatial.length + 2 := congrArg List.length hx
  cases kernels? with
  | none => rfl
  | some kernels =>
    dsimp only
    rw [hspatial, Nat.add_sub_cancel]
    by_cases hlength : kernels.length = image.spatial.length
    · rw [if_neg (not_not_intro hlength), if_neg (not_not_intro hlength)]
      refine bind_ofNode fun l hl => ?_
      rw [hlength] at hl
      rw [readRange_zero (by rw [hx]; exact Nat.le_add_left 2 _), forwardAll_eq_lift hl hx, hx]
      refine bind_eq_lift fun spatial _ => ?_
      split_ifs <;> rfl
    · rw [if_pos hlength, if_pos hlength]
      rfl

lemma globalPool_eq_lift (c : Context) : globalPool c = lift (Rule.globalPool c) := by
  refine bind_imageShape fun x image hx => ?_
  have hspatial : x.rank = image.spatial.length + 2 := congrArg List.length hx
  rw [readRange_zero (by rw [hx]; exact Nat.le_add_left 2 _), hspatial, hx, Nat.add_sub_cancel,
    ← List.map_const']
  rfl

end Strict

end TensorGraph
