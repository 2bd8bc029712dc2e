import TensorGraph.Proofs.Wide.Window

/-!
# Convolutions in 128 bits

The rules of convolutions and poolings, run with numbers of 128 bits. Convolutions and poolings come
to the same as with all integers. A transposed convolution does where its sums are small enough;
where one of them is not, there is a number that is too large on the way, and the rule gives up.
-/

namespace TensorGraph

namespace Wide

/-! ### The rules -/

def forwardAll (window : Rule.Window) (ceiling : Bool) (spatial : List Dim) : Wide (List Dim) :=
  (List.zip window.axes spatial).mapM fun (w, d) => forward w window.autoPad ceiling d

def conv (c : Context) : Wide (List TensorType) := do
  let (image, weights) ← lift (Rule.imageAndWeights c)
  let kernels ← lift (Rule.kernelsOf c.node weights image.spatial.length)
  let window ← lift (Rule.Window.ofNode c.node kernels)
  let spatial ← forwardAll window false image.spatial
  return [c.withElem 0 ⟨image.batch :: (weights.dims.head?.getD .unknown) :: spatial⟩]

def transposedDims (c : Context) (image : Rule.Image) (weights : Shape) : Wide (List Dim) :=
  if (c.node.ints? "output_shape").isSome then lift (Rule.transposedDims c image weights)
  else do
    let kernels ← lift (Rule.kernelsOf c.node weights image.spatial.length)
    let window ← lift (Rule.Window.ofNode c.node kernels)
    let extras := (c.node.ints? "output_padding").getD []
    ((List.zip window.axes image.spatial).zipIdx).mapM fun ((w, d), axis) =>
      backward w window.autoPad ((extras[axis]?).getD 0) axis d

def convTranspose (c : Context) : Wide (List TensorType) := do
  let (image, weights) ← lift (Rule.imageAndWeights c)
  let spatial ← transposedDims c image weights
  return [c.withElem 0 ⟨image.batch :: Rule.transposedChannels c weights :: spatial⟩]

def pool (c : Context) : Wide (List TensorType) := do
  let x ← lift (c.shapeAt 0)
  let image ← lift (Rule.imageOf x)
  match ← lift (Rule.kernelSetting c.node) with
  | none => stop (.missingAttribute "kernel_shape")
  | some kernels =>
    if kernels.length ≠ image.spatial.length then
      stop (.invalid "kernel_shape" (.axesForInput kernels.length x.rank))
    else
      let window ← lift (Rule.Window.ofNode c.node kernels)
      let spatial ← forwardAll window (c.int "ceil_mode" 0 != 0) image.spatial
      let shape : Shape := ⟨image.batch :: image.channels :: spatial⟩
      if c.node.op = "MaxPool" then return [c.withElem 0 shape, .of .int64 shape]
      else return [c.withElem 0 shape]

/-- The rules that move a window, run with numbers of 128 bits. -/
def rule? : String → Option (Context → Wide (List TensorType))
  | "Conv" => some conv
  | "ConvTranspose" => some convTranspose
  | "MaxPool" | "AveragePool" | "LpPool" => some pool
  | _ => none

end Wide

/-- The shapes of the operands have machine words for extents. -/
def Context.InWords (c : Context) : Prop :=
  ∀ i s, c.shapeAt i = .ok s → ∀ n, .known n ∈ s.dims → n < wordLimit

/-- Over an axis of `size` positions, a transposed convolution moves this window to find the extent
of its result. -/
structure Context.Spreads (c : Context) (w : Rule.AxisWindow) (extra : Int) (size : Nat) :
    Prop where
  op : c.node.op = "ConvTranspose"
  moved : ∃ (image : Rule.Image) (window : Rule.Window) (axis : Nat),
    Rule.Transposes c image window ∧ window.autoPad ≠ .same ∧
    window.axes[axis]? = some w ∧ image.spatial[axis]? = some (.known size) ∧
    extra = Rule.outputPadding c axis

/-- No sum of a transposed convolution is too large. -/
def Context.SpreadsFit (c : Context) : Prop :=
  ∀ w extra size, c.Spreads w extra size → w.SpreadFits extra size

namespace Wide

open Rule

variable {c : Context} {image : Image} {weights : Shape} {window : Window} {spatial : List Dim}

/-! ### Rules whose numbers are all held -/

lemma words_of_imageAndWeights (hc : c.InWords) (h : imageAndWeights c = .ok (image, weights)) :
    (∀ n, .known n ∈ image.spatial → n < wordLimit) ∧
      ∀ n, .known n ∈ weights.dims → n < wordLimit := by
  obtain ⟨-, hx, hweights, -⟩ := imageAndWeights_eq_ok_iff.mp h
  exact ⟨fun n hn => hc 0 _ hx n (List.mem_cons_of_mem _ (List.mem_cons_of_mem _ hn)),
    hc 1 _ hweights⟩

lemma forwardAll_eq_lift (hwindow : ∀ w ∈ window.axes, w.InWords)
    (hspatial : ∀ n, .known n ∈ spatial → n < wordLimit) (ceiling : Bool) :
    forwardAll window ceiling spatial = lift (Rule.forwardAll window ceiling spatial) := by
  refine mapM_eq_lift fun (w, d) hmem => ?_
  obtain ⟨hw, hd⟩ := List.of_mem_zip hmem
  exact forward_eq_lift (hwindow w hw) ceiling fun n hn => hspatial n (hn ▸ hd)

lemma conv_eq_lift (hc : c.InWords) : conv c = lift (Rule.conv c) := by
  refine bind_eq_lift fun (image, weights) himage => ?_
  obtain ⟨hspatial, hweights⟩ := words_of_imageAndWeights hc himage
  refine bind_eq_lift fun kernels hkernels => bind_eq_lift fun window hwindow => ?_
  have haxes := inWords_of_ofNode (lt_wordLimit_of_kernelsOf hweights hkernels) hwindow
  rw [forwardAll_eq_lift haxes hspatial]
  exact bind_eq_lift fun spatial _ => rfl

lemma pool_eq_lift (hc : c.InWords) : pool c = lift (Rule.pool c) := by
  refine bind_eq_lift fun x hx => bind_eq_lift fun image himage => ?_
  obtain ⟨-, rfl⟩ := imageOf_eq_ok_iff.mp himage
  have hspatial (n : Nat) (hn : .known n ∈ image.spatial) : n < wordLimit :=
    hc 0 _ hx n (List.mem_cons_of_mem _ (List.mem_cons_of_mem _ hn))
  refine bind_eq_lift fun kernels? hkernels => ?_
  cases kernels? with
  | none => rfl
  | some kernels =>
    dsimp only
    by_cases hlength : kernels.length = image.spatial.length
    · rw [if_neg (not_not_intro hlength), if_neg (not_not_intro hlength)]
      refine bind_eq_lift fun window hwindow => ?_
      have haxes := inWords_of_ofNode (lt_wordLimit_of_kernelSetting hkernels) hwindow
      rw [forwardAll_eq_lift haxes hspatial]
      refine bind_eq_lift fun spatial _ => ?_
      split_ifs <;> rfl
    · rw [if_pos hlength, if_pos hlength]
      rfl

/-! ### Transposed convolutions -/

lemma transposedDims_eq (himage : imageAndWeights c = .ok (image, weights))
    (hextents : c.node.ints? "output_shape" = none) :
    transposedDims c image weights = (lift (windowOf c image.spatial.length) >>= fun window =>
      (List.zip window.axes image.spatial).zipIdx.mapM fun ((w, d), axis) =>
        backward w window.autoPad
          ((((c.node.ints? "output_padding").getD [])[axis]?).getD 0) axis d) := by
  obtain ⟨-, -, hweights, -⟩ := imageAndWeights_eq_ok_iff.mp himage
  have hnone : ¬(c.node.ints? "output_shape").isSome := by rw [hextents]; exact nofun
  unfold transposedDims windowOf
  rw [if_neg hnone, hweights]
  change _ = lift (kernelsOf c.node weights image.spatial.length >>= _) >>= _
  cases kernelsOf c.node weights image.spatial.length <;> rfl

lemma held_of_getElem? {n : Node} {name : String} (axis : Nat) :
    HeldSigned (((n.ints? name).getD [])[axis]?.getD 0) := by
  have hzero : HeldSigned 0 := ⟨by decide, by decide⟩
  cases hvalues : n.ints? name with
  | none => exact hzero
  | some vs =>
    dsimp only [Option.getD_some]
    cases hv : vs[axis]? with
    | none => exact hzero
    | some v => exact Node.held_of_ints? hvalues v (List.mem_of_getElem? hv)

lemma inWords_of_windowOf (hc : c.InWords) {count : Nat}
    (hwindow : windowOf c count = .ok window) : ∀ w ∈ window.axes, w.InWords := by
  obtain ⟨weights', hweights', hwindow⟩ := bind_eq_ok_iff.mp hwindow
  obtain ⟨kernels, hkernels, hwindow⟩ := bind_eq_ok_iff.mp hwindow
  exact inWords_of_ofNode (lt_wordLimit_of_kernelsOf (hc 1 _ hweights') hkernels) hwindow

lemma convTranspose_follows (hc : c.InWords) :
    Follows (convTranspose c) (Rule.convTranspose c) := by
  refine (Follows.lift imageAndWeights_justified.neverAborts).bind fun (image, weights) himage => ?_
  refine Follows.bind ?_ fun spatial _ => .lift (.ok _)
  cases hextents : c.node.ints? "output_shape" with
  | some extents =>
    unfold transposedDims
    rw [if_pos (by rw [hextents]; rfl)]
    exact .lift (transposedDims_neverAborts hextents)
  | none =>
    rw [transposedDims_eq himage hextents, Rule.transposedDims_eq himage hextents]
    refine (Follows.lift (windowOf_neverAborts _ _)).bind fun window hwindow =>
      Follows.mapM fun ((w, d), axis) hmem => ?_
    obtain ⟨hw, hd⟩ := mem_zipIdx_zip_iff.mp hmem
    exact backward_follows axis (inWords_of_windowOf hc hwindow w (List.mem_of_getElem? hw))
      (held_of_getElem? axis) fun n hn =>
        (words_of_imageAndWeights hc himage).1 n (hn ▸ List.mem_of_getElem? hd)

lemma convTranspose_eq_lift (hc : c.InWords) (hop : c.node.op = "ConvTranspose")
    (hfits : c.SpreadsFit) : convTranspose c = lift (Rule.convTranspose c) := by
  rcases convTranspose_follows hc with ⟨h, -⟩ | ⟨v, operation, -, -, hrule⟩
  · exact h
  · obtain ⟨_, ⟨image, window, axis, w, size, hmoves, hw, hsize, hoverflows, -⟩, -⟩ :=
      convTranspose_eq_abort_iff.mp hrule
    obtain ⟨weights, himage⟩ := hmoves.operands
    have hautoPad : window.autoPad ≠ .same := by
      rcases hoverflows with ⟨h, -⟩ | ⟨h, -, -⟩ <;> exact h
    refine absurd hoverflows (not_overflows_of_spreadFits
      (inWords_of_windowOf hc hmoves.moves w (List.mem_of_getElem? hw))
      ((words_of_imageAndWeights hc himage).1 size (List.mem_of_getElem? hsize))
      (held_of_getElem? axis)
      (hfits w _ size ⟨hop, image, window, axis, hmoves, hautoPad, hw, hsize, rfl⟩) _)

/-- A sum that is too large leaves a transposed convolution without a result. -/
lemma fits_of_convTranspose (hc : c.InWords) {types : List TensorType}
    (h : convTranspose c = .ok types) : c.SpreadsFit := by
  have hrule : Rule.convTranspose c = .ok types := by
    rcases convTranspose_follows hc with ⟨hsame, -⟩ | ⟨_, _, -, hstops, -⟩
    · exact mapError_eq_ok_iff.mp (hsame.symm.trans h)
    · cases hstops.symm.trans h
  rintro w extra size ⟨-, image, window, axis, ⟨hextents, ⟨weights, himage⟩, hwindow⟩, hautoPad,
    hw, hd, rfl⟩
  obtain ⟨p, hp, hrule⟩ := bind_eq_ok_iff.mp hrule
  obtain rfl : (image, weights) = p := Except.ok.inj (himage.symm.trans hp)
  obtain ⟨dims, hdims, -⟩ := bind_eq_ok_iff.mp hrule
  rw [Rule.transposedDims_eq himage hextents, hwindow] at hdims
  have hextent := exists_forall₂_iff.mp ⟨dims, mapM_eq_ok_iff.mp hdims⟩ _
    (mem_zipIdx_zip_iff.mpr ⟨hw, hd⟩)
  exact spreadFits_of_hasExtent hautoPad (AxisWindow.exists_backward_iff.mp hextent)

end Wide

namespace Registry

variable {c : Context}

/-- Run with numbers of 128 bits, convolutions and poolings come to the same as with all integers,
and do not give up. A transposed convolution does unless it stops at a number that is too large,
which is where its rule gives up; it does not stop at one where its sums fit, and it has a result
only there. -/
theorem builtin_infer_in_wide (hc : c.InWords)
    (hop : c.node.op ∈ ["Conv", "ConvTranspose", "MaxPool", "AveragePool", "LpPool"]) :
    ∃ rule run, builtin.rule? c.node.op = some rule ∧ Wide.rule? c.node.op = some run ∧
      Wide.Follows (run c) (rule.infer c) ∧
      (c.SpreadsFit → run c = Wide.lift (rule.infer c)) ∧
      ∀ types, run c = .ok types → c.SpreadsFit := by
  by_cases htransposed : c.node.op = "ConvTranspose"
  · rw [htransposed]
    exact ⟨_, _, rfl, rfl, Wide.convTranspose_follows hc, Wide.convTranspose_eq_lift hc htransposed,
      fun types => Wide.fits_of_convTranspose hc⟩
  · have hfits : c.SpreadsFit := fun w extra size h => absurd h.op htransposed
    have hmoved (rule : Rule) (run : Context → Wide (List TensorType))
        (hrule : NeverAborts (rule.infer c)) (hrun : run c = Wide.lift (rule.infer c)) :
        Wide.Follows (run c) (rule.infer c) ∧
          (c.SpreadsFit → run c = Wide.lift (rule.infer c)) ∧
          ∀ types, run c = .ok types → c.SpreadsFit :=
      ⟨.same hrun hrule, fun _ => hrun, fun _ _ => hfits⟩
    have hpool := hmoved { infer := Rule.pool } Wide.pool Rule.pool_justified.neverAborts
      (Wide.pool_eq_lift hc)
    simp only [List.mem_cons, List.not_mem_nil, or_false, htransposed, false_or] at hop
    rcases hop with hop | hop | hop | hop <;> rw [hop]
    · exact ⟨_, _, rfl, rfl, hmoved { infer := Rule.conv } Wide.conv Rule.conv_justified.neverAborts
        (Wide.conv_eq_lift hc)⟩
    · exact ⟨_, _, rfl, rfl, hpool⟩
    · exact ⟨_, _, rfl, rfl, hpool⟩
    · exact ⟨_, _, rfl, rfl, hpool⟩

/-- The longest axis, over which a window of the longest stride moves. -/
theorem builtin_infer_in_wide_of_longest_axis :
    let operand (extents : List Nat) : Option Operand :=
      some ⟨.of .float (.ofExtents extents), none⟩
    let attributes : Attributes := { entries := [("strides", .ints [0x7fffffffffffffff])] }
    let c : Context :=
      ⟨{ op := "ConvTranspose", inputs := ["x", "w"], outputs := ["y"], attributes },
        [operand [1, 1, 0xffffffffffffffff], operand [1, 1, 1]], 13⟩
    c.InWords ∧ c.SpreadsFit ∧
      ∃ rule run, builtin.rule? c.node.op = some rule ∧ Wide.rule? c.node.op = some run ∧
        Wide.Follows (run c) (rule.infer c) ∧
        run c = .ok [.of .float ⟨[.known 1, .known 1, .unknown]⟩] := by
  intro operand attributes c
  have hc : c.InWords := by
    intro i s hs n hn
    match i with
    | 0 | 1 =>
      obtain rfl := Except.ok.inj hs
      simp only [Shape.ofExtents, List.map_cons, List.map_nil, List.mem_cons, Dim.known.injEq,
        List.not_mem_nil, or_false] at hn
      unfold wordLimit
      omega
    | i + 2 => cases hs
  have hrun : Wide.convTranspose c = .ok [.of .float ⟨[.known 1, .known 1, .unknown]⟩] := by decide
  obtain ⟨rule, run, hrule, hwide, hfollows, -, hfits⟩ := builtin_infer_in_wide hc (by decide)
  obtain rfl : Wide.convTranspose = run := Option.some.inj hwide
  exact ⟨hc, hfits _ hrun, rule, _, hrule, hwide, hfollows, hrun⟩

/-- Both products are held, but not their sum, and the rule gives up. -/
theorem builtin_infer_leaves_wide :
    let operand (extents : List Nat) : Option Operand :=
      some ⟨.of .float (.ofExtents extents), none⟩
    let longest : Attribute := .ints [0x7fffffffffffffff]
    let attributes : Attributes :=
      { entries := [("dilations", longest), ("kernel_shape", longest), ("strides", longest)] }
    let c : Context :=
      ⟨{ op := "ConvTranspose", inputs := ["x", "w"], outputs := ["y"], attributes },
        [operand [1, 1, 0xffffffffffffffff], operand [1, 1, 1]], 13⟩
    let sum : Int := 3 * 2 ^ 126 - 7 * 2 ^ 63 + 5
    (Wide.rule? "ConvTranspose").map (· c) = some (.error (.tooWide sum)) ∧ ¬Rule.HeldWide sum ∧
      (builtin.rule? "ConvTranspose").map (·.infer c) =
        some (.error (.abort (.overflow .addition))) := by
  exact ⟨by decide, by decide, by decide⟩

end Registry

end TensorGraph
