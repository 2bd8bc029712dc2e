import TensorGraph.Proofs.Operators.Placements
import TensorGraph.Proofs.Operators.WindowWords

/-!
# Transposed windows

A transposed convolution gives the extents of an image back that a convolution with the same window
has taken to the numbers of its places. What the places leave over at the end of each padded axis,
less than a stride, must be told as output padding.
-/

namespace TensorGraph.Rule

variable {c t : Context} {image : Image} {weights : Shape} {window : Window}
  {extents counts : List Nat}

namespace AxisWindow

variable {w : AxisWindow} {n m : Nat}

/-- How far a padded axis reaches beyond the last place of a window. -/
def leftover (w : AxisWindow) (size : Nat) : Int :=
  (size + w.before + w.behind - w.reach) % w.stride

lemma eq_of_forward_eq_known (h : w.forward .notSet false (.known n) = .ok (.known m)) :
    (m : Int) = (n + w.before + w.behind - w.reach) / w.stride + 1 := by
  have hcount : w.count .notSet false n = if n + w.before + w.behind - w.reach < 0 then -1
      else (n + w.before + w.behind - w.reach) / w.stride + 1 := rfl
  rw [forward_known] at h
  dsimp only at h
  split_ifs at h with hsome hword
  · have hm : (w.count .notSet false n).toNat = m := Dim.known.inj (Except.ok.inj h)
    split_ifs at hcount <;> omega
  · cases h

/-- The steps between the places, the window and what is left over make up the padded axis. -/
lemma backward_of_forward (hn : 1 ≤ n) (hword : n < wordLimit) (hbefore : HeldSigned w.before)
    (hbehind : HeldSigned w.behind) (axis : Nat)
    (h : w.forward .notSet false (.known n) = .ok (.known m)) :
    w.backward .notSet (w.leftover n) axis (.known m) = .ok (.known n) := by
  have hm := eq_of_forward_eq_known h
  have hspread : w.spread .notSet (w.leftover n) m = .ok n := by
    have hdivision := Int.mul_ediv_add_emod (n + w.before + w.behind - w.reach) w.stride
    have hcovered : w.covered (w.leftover n) m = n + w.before + w.behind := by
      unfold covered
      rw [hm, Int.add_sub_cancel, leftover, hdivision]
      omega
    have hextent : (n : Int) + w.before + w.behind - (w.before + w.behind) = n := by omega
    unfold wordLimit at hword
    unfold HeldSigned at hbefore hbehind
    unfold spread
    dsimp only
    rw [hcovered, held_eq_ok ⟨by omega, by omega⟩]
    change held .subtraction _ = _
    rw [hextent, held_eq_ok ⟨by omega, by omega⟩]
  unfold backward
  dsimp only
  rw [hspread]
  change (if _ then _ else _) = _
  rw [if_neg (by omega), Int.toNat_natCast, wordDim, if_pos hword]

end AxisWindow

/-! ### Windows over all axes -/

/-- The window that a node moves over so many spatial axes. -/
def windowOf (c : Context) (spatial : Nat) : Except RuleError Window := do
  let weights ← c.shapeAt 1
  let kernels ← kernelsOf c.node weights spatial
  Window.ofNode c.node kernels

/-- The output paddings for axes of some extents. -/
def Window.leftovers (window : Window) (extents : List Nat) : List Int :=
  List.zipWith AxisWindow.leftover window.axes extents

lemma length_axes_of_windowOf {spatial : Nat} (h : windowOf c spatial = .ok window) :
    window.axes.length = spatial := by
  obtain ⟨weights, -, h⟩ := bind_eq_ok_iff.mp h
  obtain ⟨kernels, hkernels, h⟩ := bind_eq_ok_iff.mp h
  rw [Strict.WindowLists.ofNode_window] at h
  obtain ⟨l, hl, rfl⟩ := map_eq_ok_iff.mp h
  exact (Strict.WindowLists.fits_of_ofNode hl).length_axes.trans
    (Strict.length_of_kernelsOf hkernels)

lemma held_pads_of_windowOf {spatial : Nat} (h : windowOf c spatial = .ok window) :
    ∀ w ∈ window.axes, HeldSigned w.before ∧ HeldSigned w.behind := by
  obtain ⟨weights, -, h⟩ := bind_eq_ok_iff.mp h
  obtain ⟨kernels, -, h⟩ := bind_eq_ok_iff.mp h
  exact fun w hw => (settings_of_mem h hw).2.2.2

lemma imageOf_eq_ok_iff {s : Shape} :
    imageOf s = .ok image ↔
      image.spatial ≠ [] ∧ s = ⟨image.batch :: image.channels :: image.spatial⟩ := by
  obtain ⟨batch, channels, spatial⟩ := image
  rcases s with ⟨_ | ⟨b, _ | ⟨k, _ | ⟨d, ds⟩⟩⟩⟩
  · simp [imageOf]
  · simp [imageOf]
  · simp only [imageOf, reduceCtorEq, Shape.mk.injEq, List.cons.injEq, false_iff]
    rintro ⟨hspatial, -, -, hnil⟩
    exact hspatial hnil.symm
  · simp only [imageOf, Except.ok.injEq, Image.mk.injEq, Shape.mk.injEq, List.cons.injEq]
    constructor
    · rintro ⟨rfl, rfl, rfl⟩
      exact ⟨List.cons_ne_nil d ds, rfl, rfl, rfl⟩
    · exact And.right

lemma imageAndWeights_eq_ok_iff :
    imageAndWeights c = .ok (image, weights) ↔
      image.spatial ≠ [] ∧
        c.shapeAt 0 = .ok ⟨image.batch :: image.channels :: image.spatial⟩ ∧
        c.shapeAt 1 = .ok weights ∧ weights.rank = image.spatial.length + 2 := by
  unfold imageAndWeights
  simp only [bind_eq_ok_iff, imageOf_eq_ok_iff]
  constructor
  · rintro ⟨x, hx, image', ⟨hspatial, rfl⟩, weights', hweights, h⟩
    split_ifs at h with hrank
    · cases h
    · obtain ⟨rfl, rfl⟩ := Prod.mk.inj (Except.ok.inj h)
      exact ⟨hspatial, hx, hweights, not_not.mp hrank⟩
  · rintro ⟨hspatial, hx, hweights, hrank⟩
    exact ⟨_, hx, image, ⟨hspatial, rfl⟩, weights, hweights, if_neg (not_not_intro hrank)⟩

lemma exists_of_conv_eq_ok {types : List TensorType} (h : conv c = .ok types) :
    ∃ image weights window spatial, imageAndWeights c = .ok (image, weights) ∧
      windowOf c image.spatial.length = .ok window ∧
      forwardAll window false image.spatial = .ok spatial ∧
      types = [c.withElem 0 ⟨image.batch :: weights.dims.head?.getD .unknown :: spatial⟩] := by
  obtain ⟨⟨image, weights⟩, himage, h⟩ := bind_eq_ok_iff.mp h
  obtain ⟨kernels, hkernels, h⟩ := bind_eq_ok_iff.mp h
  obtain ⟨window, hwindow, h⟩ := bind_eq_ok_iff.mp h
  obtain ⟨spatial, hspatial, h⟩ := bind_eq_ok_iff.mp h
  obtain ⟨-, -, hweights, -⟩ := imageAndWeights_eq_ok_iff.mp himage
  refine ⟨image, weights, window, spatial, himage, ?_, hspatial, (Except.ok.inj h).symm⟩
  unfold windowOf
  rw [hweights]
  exact bind_eq_ok_iff.mpr ⟨weights, rfl, bind_eq_ok_iff.mpr ⟨kernels, hkernels, hwindow⟩⟩

lemma transposedDims_eq (himage : imageAndWeights t = .ok (image, weights))
    (hextents : t.node.ints? "output_shape" = none) :
    transposedDims t image weights = (windowOf t image.spatial.length >>= fun window =>
      (List.zip window.axes image.spatial).zipIdx.mapM fun ((w, d), axis) =>
        w.backward window.autoPad
          ((((t.node.ints? "output_padding").getD [])[axis]?).getD 0) axis d) := by
  obtain ⟨-, -, hweights, -⟩ := imageAndWeights_eq_ok_iff.mp himage
  unfold transposedDims windowOf
  rw [hextents, hweights]
  exact (bind_assoc _ _ _).symm

lemma mapM_backward_leftovers (hautoPad : window.autoPad = .notSet)
    (hpads : ∀ w ∈ window.axes, HeldSigned w.before ∧ HeldSigned w.behind)
    (hlength : window.axes.length = extents.length)
    (hextents : ∀ n ∈ extents, 1 ≤ n ∧ n < wordLimit)
    (h : forwardAll window false (extents.map .known) = .ok (counts.map .known)) :
    ((List.zip window.axes (counts.map Dim.known)).zipIdx.mapM fun ((w, d), axis) =>
      w.backward window.autoPad (((window.leftovers extents)[axis]?).getD 0) axis d) =
        .ok (extents.map .known) := by
  have hforward := mapM_eq_ok_iff.mp h
  have hcounts : counts.length = extents.length := by
    simpa [hlength] using hforward.length_eq.symm
  refine mapM_eq_ok_iff.mpr (forall₂_of_getElem? (by simp [hlength, hcounts]) ?_)
  intro i p d hp hd
  obtain ⟨n, hn, rfl⟩ := Option.map_eq_some_iff.mp (List.getElem?_map ▸ hd)
  obtain ⟨⟨w, d⟩, position⟩ := p
  obtain ⟨rfl, hw, hm⟩ := getElem?_zipIdx_zip_eq_some_iff.mp hp
  dsimp only at hw hm ⊢
  obtain ⟨m, hm', rfl⟩ := Option.map_eq_some_iff.mp (List.getElem?_map ▸ hm)
  have hback : w.forward window.autoPad false (.known n) = .ok (.known m) := by
    have hat := forall₂_getElem? hforward position
    have hzip' : (List.zip window.axes (extents.map Dim.known))[position]? = some (w, .known n) :=
      List.getElem?_zip_eq_some.mpr ⟨hw, hd⟩
    rw [hzip', hm] at hat
    cases hat with
    | some h => exact h
  have hleftover : (window.leftovers extents)[position]? = some (w.leftover n) := by
    unfold Window.leftovers
    rw [List.getElem?_zipWith, hw, hn]
  obtain ⟨hpositive, hword⟩ := hextents n (List.mem_of_getElem? hn)
  rw [hautoPad] at hback ⊢
  simp only [hleftover, Option.getD_some]
  obtain ⟨hbefore, hbehind⟩ := hpads w (List.mem_of_getElem? hw)
  exact AxisWindow.backward_of_forward hpositive hword hbefore hbehind position hback

/-! ### Convolutions and what undoes them -/

/-- What a transposed convolution `t` is given so that it undoes a convolution `c`, which takes an
image of some extents to one of other extents: the same settings, the remainders as output paddings,
and an image of the extents that the convolution has found. -/
structure Undoes (t c : Context) (window : Window) (extents counts : List Nat) : Prop where
  positive : ∀ n ∈ extents, 1 ≤ n ∧ n < wordLimit
  image : ∃ batch channels, c.shapeAt 0 = .ok ⟨batch :: channels :: extents.map .known⟩
  hasWindow : windowOf c extents.length = .ok window
  autoPad : autoPadOf c.node = .ok .notSet
  convolved : ∃ batch features,
    conv c = .ok [c.withElem 0 ⟨batch :: features :: counts.map .known⟩]
  settings : ∀ name ∈ ["kernel_shape", "strides", "dilations", "pads"],
    t.node.ints? name = c.node.ints? name
  autoPad' : autoPadOf t.node = .ok .notSet
  outputShape : t.node.ints? "output_shape" = none
  outputPadding : t.node.ints? "output_padding" = some (window.leftovers extents)
  image' : ∃ batch channels, t.shapeAt 0 = .ok ⟨batch :: channels :: counts.map .known⟩
  /-- Only where the kernels are not a setting they are read off the weights. -/
  weights : ∃ weights', t.shapeAt 1 = .ok weights' ∧ weights'.rank = counts.length + 2 ∧
    ((c.node.ints? "kernel_shape").isSome ∨
      ∀ weights, c.shapeAt 1 = .ok weights → weights'.dims.drop 2 = weights.dims.drop 2)

section Settings

variable {n n' : Node} {w w' : Shape}

lemma kernelsOf_congr (hsetting : n'.ints? "kernel_shape" = n.ints? "kernel_shape")
    (hweights : (n.ints? "kernel_shape").isSome ∨ w'.dims.drop 2 = w.dims.drop 2)
    (spatial : Nat) : kernelsOf n' w' spatial = kernelsOf n w spatial := by
  unfold kernelsOf kernelSetting
  rw [hsetting]
  rcases hweights with hsome | hdims
  · obtain ⟨vs, hvs⟩ := Option.isSome_iff_exists.mp hsome
    rw [hvs]
    dsimp only
    split_ifs <;> rfl
  · rw [hdims]

lemma ofNode_congr (hsettings : ∀ name ∈ ["strides", "dilations", "pads"],
    n'.ints? name = n.ints? name) (hautoPad : autoPadOf n' = autoPadOf n) (kernels : List Nat) :
    Window.ofNode n' kernels = Window.ofNode n kernels := by
  unfold Window.ofNode perAxis windowPads
  rw [hsettings "strides" (by simp), hsettings "dilations" (by simp), hsettings "pads" (by simp),
    hautoPad]

lemma autoPad_of_ofNode {kernels : List Nat} (h : Window.ofNode n kernels = .ok window) :
    autoPadOf n = .ok window.autoPad := by
  obtain ⟨strides, -, h⟩ := bind_eq_ok_iff.mp h
  obtain ⟨dilations, -, h⟩ := bind_eq_ok_iff.mp h
  obtain ⟨pads, -, h⟩ := bind_eq_ok_iff.mp h
  obtain ⟨autoPad, hautoPad, h⟩ := bind_eq_ok_iff.mp h
  rw [hautoPad, ← Except.ok.inj h]

end Settings

namespace Undoes

lemma windowOf_eq (h : Undoes t c window extents counts)
    (hlength : counts.length = extents.length) : windowOf t counts.length = .ok window := by
  obtain ⟨weights, hweights, hwindow⟩ := bind_eq_ok_iff.mp h.hasWindow
  obtain ⟨kernels, hkernels, hwindow⟩ := bind_eq_ok_iff.mp hwindow
  obtain ⟨weights', hweights', -, hsame⟩ := h.weights
  unfold windowOf
  rw [hweights', hlength]
  refine bind_eq_ok_iff.mpr ⟨weights', rfl, bind_eq_ok_iff.mpr ⟨kernels, ?_, ?_⟩⟩
  · rw [← hkernels]
    exact kernelsOf_congr (h.settings _ (by simp)) (hsame.imp_right fun hdims => hdims _ hweights) _
  · rw [← hwindow]
    exact ofNode_congr (fun name hname => h.settings name (List.mem_cons_of_mem _ hname))
      (h.autoPad'.trans h.autoPad.symm) kernels

lemma forwardAll_eq (h : Undoes t c window extents counts) :
    extents ≠ [] ∧ forwardAll window false (extents.map .known) = .ok (counts.map .known) := by
  obtain ⟨batch, channels, hx⟩ := h.image
  obtain ⟨batch', features, hconv⟩ := h.convolved
  obtain ⟨image, weights, window', spatial, himage, hwindow, hforward, htypes⟩ :=
    exists_of_conv_eq_ok hconv
  obtain ⟨hspatial, hx', -, -⟩ := imageAndWeights_eq_ok_iff.mp himage
  rw [hx] at hx'
  obtain ⟨-, -, himage⟩ : batch = image.batch ∧ channels = image.channels ∧
      extents.map .known = image.spatial := by
    simpa using hx'
  rw [← himage] at hspatial hwindow hforward
  rw [List.length_map] at hwindow
  obtain rfl : window' = window := Except.ok.inj (hwindow.symm.trans h.hasWindow)
  obtain ⟨-, -, hcounts⟩ : batch' = image.batch ∧ features = weights.dims.head?.getD .unknown ∧
      counts.map .known = spatial := by
    simpa [Context.withElem] using htypes
  exact ⟨by simpa using hspatial, hcounts ▸ hforward⟩

lemma autoPad_eq (h : Undoes t c window extents counts) : window.autoPad = .notSet := by
  obtain ⟨weights, -, hwindow⟩ := bind_eq_ok_iff.mp h.hasWindow
  obtain ⟨kernels, -, hwindow⟩ := bind_eq_ok_iff.mp hwindow
  exact Except.ok.inj ((autoPad_of_ofNode hwindow).symm.trans h.autoPad)

end Undoes

/-- A transposed convolution that is given the settings of a convolution, the remainders as output
paddings, and an image of the extents that the convolution has found has exactly the extents of the
image of the convolution. -/
theorem convTranspose_restores_extents (h : Undoes t c window extents counts) :
    ∃ batch channels,
      convTranspose t = .ok [t.withElem 0 ⟨batch :: channels :: extents.map .known⟩] := by
  obtain ⟨hextents, hforward⟩ := h.forwardAll_eq
  have haxes := length_axes_of_windowOf h.hasWindow
  have hlength : counts.length = extents.length := by
    simpa [haxes] using (mapM_eq_ok_iff.mp hforward).length_eq.symm
  obtain ⟨batch, channels, hx⟩ := h.image'
  obtain ⟨weights, hweights, hrank, -⟩ := h.weights
  have himage : imageAndWeights t = .ok (⟨batch, channels, counts.map .known⟩, weights) := by
    refine imageAndWeights_eq_ok_iff.mpr ⟨?_, hx, hweights, ?_⟩
    · simpa [← List.length_eq_zero_iff, hlength] using hextents
    · simpa using hrank
  have hdims : transposedDims t ⟨batch, channels, counts.map .known⟩ weights =
      .ok (extents.map .known) := by
    rw [transposedDims_eq himage h.outputShape, List.length_map, h.windowOf_eq hlength,
      h.outputPadding]
    exact mapM_backward_leftovers h.autoPad_eq (held_pads_of_windowOf h.hasWindow) haxes h.positive
      hforward
  refine ⟨batch, transposedChannels t weights, ?_⟩
  unfold convTranspose
  rw [himage]
  change (transposedDims t ⟨batch, channels, counts.map .known⟩ weights >>= _) = _
  rw [hdims]
  rfl

/-- Different windows on two axes, one with a hole in it and one with a negative padding. -/
theorem convTranspose_restores_two_extents :
    let operand (extents : List Nat) : Option Operand :=
      some ⟨.of .float (.ofExtents extents), none⟩
    let attributes : Attributes :=
      { entries := [("dilations", .ints [2, 1]), ("kernel_shape", .ints [3, 2]),
          ("pads", .ints [1, 0, 2, -1]), ("strides", .ints [2, 3])] }
    let attributes' : Attributes :=
      { entries := [("dilations", .ints [2, 1]), ("kernel_shape", .ints [3, 2]),
          ("output_padding", .ints [1, 2]), ("pads", .ints [1, 0, 2, -1]),
          ("strides", .ints [2, 3])] }
    let c : Context :=
      ⟨{ op := "Conv", inputs := ["x", "w"], outputs := ["y"], attributes },
        [operand [1, 4, 7, 11], operand [8, 4, 3, 2]], 13⟩
    let t : Context :=
      ⟨{ op := "ConvTranspose", inputs := ["y", "w"], outputs := ["z"],
          attributes := attributes' }, [operand [1, 8, 3, 3], operand [8, 4, 3, 2]], 13⟩
    Undoes t c ⟨[⟨3, 2, 2, 1, 2⟩, ⟨2, 3, 1, 0, -1⟩], .notSet⟩ [7, 11] [3, 3] ∧
      ∃ batch channels,
        convTranspose t = .ok [t.withElem 0 ⟨[batch, channels, .known 7, .known 11]⟩] := by
  intro operand attributes attributes' c t
  have h : Undoes t c ⟨[⟨3, 2, 2, 1, 2⟩, ⟨2, 3, 1, 0, -1⟩], .notSet⟩ [7, 11] [3, 3] :=
    { positive := by decide
      image := ⟨.known 1, .known 4, rfl⟩
      hasWindow := by decide
      autoPad := by decide
      convolved := ⟨.known 1, .known 8, by decide⟩
      settings := by decide
      autoPad' := by decide
      outputShape := by decide
      outputPadding := by decide
      image' := ⟨.known 1, .known 8, rfl⟩
      weights := ⟨.ofExtents [8, 4, 3, 2], rfl, rfl, .inl (by decide)⟩ }
  exact ⟨h, convTranspose_restores_extents h⟩

end TensorGraph.Rule
