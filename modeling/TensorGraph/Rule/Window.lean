import TensorGraph.Rule.Basic

/-!
# Sliding windows

Convolutions and pooling move a window over the spatial axes of an image, that is over all axes
behind the first two. Per axis, the window has a kernel, a stride, a dilation and two paddings.
-/

namespace TensorGraph.Rule

/-- How the paddings of a window are found. -/
inductive AutoPad where
  /-- They are given. -/
  | notSet
  /-- There are none. -/
  | valid
  /-- As many as keep the extent, up to the stride. -/
  | same
deriving DecidableEq, Repr

/-- A window on one axis. -/
structure AxisWindow where
  kernel : Nat
  stride : Nat
  dilation : Nat
  before : Int
  behind : Int
deriving DecidableEq, Repr, Inhabited

/-- A window on all spatial axes. -/
structure Window where
  axes : List AxisWindow
  autoPad : AutoPad
deriving DecidableEq, Repr

/-- One entry of a setting for each axis, all of them positive; `1` without the setting. -/
def perAxis (n : Node) (name : String) (count : Nat) : Except RuleError (List Nat) :=
  match n.ints? name with
  | none => .ok (List.replicate count 1)
  | some vs =>
    if vs.length = count ∧ vs.all (fun v => 1 ≤ v) then .ok (vs.map Int.toNat)
    else .error (.invalid name (.valuesForSpatial vs count))

/-- The paddings that are given: first those before all axes, then those behind them. -/
def windowPads (n : Node) (count : Nat) : Except RuleError (List Int) :=
  match n.ints? "pads" with
  | none => .ok (List.replicate (2 * count) 0)
  | some vs =>
    if vs.length = 2 * count then .ok vs
    else .error (.invalid "pads" (.valuesForSpatial vs count))

def autoPadOf (n : Node) : Except RuleError AutoPad :=
  match (n.string? "auto_pad").getD "NOTSET" with
  | "NOTSET" => .ok .notSet
  | "VALID" => .ok .valid
  | "SAME_UPPER" => .ok .same
  | "SAME_LOWER" => .ok .same
  | other => .error (.invalid "auto_pad" (.word other))

/-- The window that the settings of a node describe, for given kernels. -/
def Window.ofNode (n : Node) (kernels : List Nat) : Except RuleError Window := do
  let count := kernels.length
  let strides ← perAxis n "strides" count
  let dilations ← perAxis n "dilations" count
  let pads ← windowPads n count
  let autoPad ← autoPadOf n
  let axes := (List.zip kernels (List.zip strides (List.zip dilations
    (List.zip pads (pads.drop count))))).map fun (kernel, stride, dilation, before, behind) =>
      { kernel, stride, dilation, before, behind }
  return { axes, autoPad }

/-- What a signed number of 128 bits holds. -/
def HeldWide (v : Int) : Prop :=
  -0x80000000000000000000000000000000 ≤ v ∧ v < 0x80000000000000000000000000000000

instance (v : Int) : Decidable (HeldWide v) := inferInstanceAs (Decidable (_ ∧ _))

/-- The result of an operation on numbers of 128 bits. -/
def held (operation : Operation) (v : Int) : Except RuleError Int :=
  if HeldWide v then .ok v else .error (.abort (.overflow operation))

theorem held_eq_ok {operation : Operation} {v : Int} (h : HeldWide v) : held operation v = .ok v :=
  if_pos h

theorem held_eq_ok_iff {operation : Operation} {v v' : Int} :
    held operation v = .ok v' ↔ HeldWide v ∧ v' = v := by
  unfold held
  split
  · rename_i h
    simp [h, eq_comm]
  · rename_i h
    simp [h]

theorem held_eq_error_iff {operation : Operation} {v : Int} {e : RuleError} :
    held operation v = .error e ↔ ¬HeldWide v ∧ e = .abort (.overflow operation) := by
  unfold held
  split
  · rename_i h
    simp [h]
  · rename_i h
    simp [h, eq_comm]

namespace AxisWindow

/-- How far a window reaches, from its first to its last entry. -/
def reach (w : AxisWindow) : Int := w.dilation * ((w.kernel : Int) - 1) + 1

/-- How often a window fits on an axis of a given extent. With `ceiling` it may hang over the end
by less than a stride. The result may be below one, if the window does not fit at all. -/
def count (w : AxisWindow) (autoPad : AutoPad) (ceiling : Bool) (size : Nat) : Int :=
  match autoPad with
  | .same => ((size : Int) + w.stride - 1) / w.stride
  | .valid => ((size : Int) - w.reach + w.stride) / w.stride
  | .notSet =>
    let span := (size : Int) + w.before + w.behind - w.reach
    if span < 0 then -1
    else if ceiling then (span + w.stride - 1) / w.stride + 1
    else span / w.stride + 1

/-- The extent that is left of an axis when the window moves over it. -/
def forward (w : AxisWindow) (autoPad : AutoPad) (ceiling : Bool) : Dim → Except RuleError Dim
  | .known size =>
    let count := w.count autoPad ceiling size
    if count < 1 then .error (.invalid "kernel_shape" (.doesNotFit w.reach size))
    else .ok (wordDim count.toNat)
  | _ => .ok .unknown

/-- What a window covers that is put down at `size` positions, one stride after the other. -/
def covered (w : AxisWindow) (extra : Int) (size : Nat) : Int :=
  w.stride * ((size : Int) - 1) + extra + w.reach

/-- The extent of an axis over which a window of `size` positions would move. Of all numbers on the
way, only the last two sums may be wider than 128 bits. -/
def spread (w : AxisWindow) (autoPad : AutoPad) (extra : Int) (size : Nat) :
    Except RuleError Int :=
  match autoPad with
  | .same => .ok (size * w.stride)
  | _ => do
    let covered ← held .addition (w.covered extra size)
    held .subtraction (covered - (w.before + w.behind))

/-- The extent of an axis over which the window would move to leave this one. -/
def backward (w : AxisWindow) (autoPad : AutoPad) (extra : Int) (axis : Nat) :
    Dim → Except RuleError Dim
  | .known size => do
    let extent ← w.spread autoPad extra size
    if extent < 1 then .error (.invalid "pads" (.outputExtent extent axis))
    else .ok (wordDim extent.toNat)
  | _ => .ok .unknown

end AxisWindow

/-- The kernels that a node names, all of them positive. -/
def kernelSetting (n : Node) : Except RuleError (Option (List Nat)) :=
  match n.ints? "kernel_shape" with
  | none => .ok none
  | some vs =>
    if vs.all (fun v => 1 ≤ v) then .ok (some (vs.map Int.toNat))
    else .error (.invalid "kernel_shape" (.listing vs))

/-- The kernels that the node names, or else the spatial extents of the weights. -/
def kernelsOf (n : Node) (weights : Shape) (spatial : Nat) : Except RuleError (List Nat) := do
  let kernels ← match ← kernelSetting n with
    | some kernels => .ok kernels
    | none =>
      match (weights.dims.drop 2).mapM Dim.extent? with
      | some kernels => .ok kernels
      | none => .error (.invalid "kernel_shape" .unknownWeight)
  if kernels.length ≠ spatial then
    .error (.invalid "kernel_shape" (.axesForSpatial kernels.length spatial))
  return kernels

/-- The first two extents of an image and its spatial extents. -/
structure Image where
  batch : Dim
  channels : Dim
  spatial : List Dim
deriving DecidableEq, Repr

/-- A shape as that of an image, which has at least one spatial axis. -/
def imageOf (s : Shape) : Except RuleError Image :=
  match s.dims with
  | batch :: channels :: d :: ds => .ok ⟨batch, channels, d :: ds⟩
  | _ => .error (.invalid "X" (.noSpatialAxes s.rank))

/-- The first two operands of a convolution, of one rank. -/
def imageAndWeights (c : Context) : Except RuleError (Image × Shape) := do
  let x ← c.shapeAt 0
  let image ← imageOf x
  let weights ← c.shapeAt 1
  if weights.rank ≠ x.rank then .error (.invalid "W" (.rankForInput weights.rank x.rank))
  return (image, weights)

/-- Moves a window over all spatial axes. -/
def forwardAll (w : Window) (ceiling : Bool) (spatial : List Dim) : Except RuleError (List Dim) :=
  (List.zip w.axes spatial).mapM fun (axis, d) => axis.forward w.autoPad ceiling d

/-- A convolution: one channel for each weight, and the window moved over the image. -/
def conv (c : Context) : Typing := do
  let (image, weights) ← imageAndWeights c
  let kernels ← kernelsOf c.node weights image.spatial.length
  let window ← Window.ofNode c.node kernels
  let spatial ← forwardAll window false image.spatial
  return [c.withElem 0 ⟨image.batch :: (weights.dims.head?.getD .unknown) :: spatial⟩]

/-- The channels of a transposed convolution: the second extent of the weights, for each group. -/
def transposedChannels (c : Context) (weights : Shape) : Dim :=
  match (weights.dims[1]? : Option Dim) with
  | some (.known n) => wordDim (n * (max (c.int "group" 1) 1).toNat)
  | _ => .unknown

/-- The spatial extents of a transposed convolution: those of the setting, or what the window
spreads to. -/
def transposedDims (c : Context) (image : Image) (weights : Shape) :
    Except RuleError (List Dim) := do
  let count := image.spatial.length
  match c.node.ints? "output_shape" with
  | some extents =>
    if extents.length ≠ count then .error (.invalid "output_shape" (.listing extents))
    extents.mapM fun e =>
      if e < 0 then .error (.invalid "output_shape" (.value e)) else .ok (.known e.toNat)
  | none =>
    let kernels ← kernelsOf c.node weights count
    let window ← Window.ofNode c.node kernels
    let extras := (c.node.ints? "output_padding").getD []
    ((List.zip window.axes image.spatial).zipIdx).mapM fun ((w, d), axis) =>
      w.backward window.autoPad ((extras[axis]?).getD 0) axis d

/-- A transposed convolution. -/
def convTranspose (c : Context) : Typing := do
  let (image, weights) ← imageAndWeights c
  let spatial ← transposedDims c image weights
  return [c.withElem 0 ⟨image.batch :: transposedChannels c weights :: spatial⟩]

/-- Pooling; the result of the largest elements comes with their positions. -/
def pool (c : Context) : Typing := do
  let x ← c.shapeAt 0
  let image ← imageOf x
  match ← kernelSetting c.node with
  | none => .error (.missingAttribute "kernel_shape")
  | some kernels =>
    if kernels.length ≠ image.spatial.length then
      .error (.invalid "kernel_shape" (.axesForInput kernels.length x.rank))
    let window ← Window.ofNode c.node kernels
    let spatial ← forwardAll window (c.int "ceil_mode" 0 != 0) image.spatial
    let shape : Shape := ⟨image.batch :: image.channels :: spatial⟩
    if c.node.op = "MaxPool" then return [c.withElem 0 shape, .of .int64 shape]
    return [c.withElem 0 shape]

/-- Pooling over whole images: every spatial extent becomes one. -/
def globalPool (c : Context) : Typing := do
  let image ← imageOf (← c.shapeAt 0)
  return [c.withElem 0 ⟨image.batch :: image.channels :: image.spatial.map fun _ => .known 1⟩]

end TensorGraph.Rule
