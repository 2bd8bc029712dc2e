import TensorGraph.Proofs.Operators.TransposedWindows
import TensorGraph.Proofs.SortedEntries

/-!
# Omitted kernels

A convolution that names no kernels takes the spatial extents of its weights for them. It answers as
if it named these extents, unless one of them is zero: no kernel of that extent can be named, but
one is taken from weights without entries.
-/

namespace TensorGraph

/-- What a rule sees of a node that names its kernels. -/
def Context.withKernels (c : Context) (kernels : List Nat) : Context :=
  { c with node := c.node.withInts "kernel_shape" (kernels.map Int64.ofNat) }

/-- A node names no kernels, and its weights have known spatial extents, which could be named. -/
structure Context.OmitsKernels (c : Context) (extents : List Nat) : Prop where
  omitted : c.node.ints? "kernel_shape" = none
  weights : ∃ weights, c.shapeAt 1 = .ok weights ∧ weights.dims.drop 2 = extents.map .known
  signed : ∀ n ∈ extents, n < 2 ^ 63

namespace Rule

variable {c : Context} {image : Image} {weights : Shape} {n : Node} {extents : List Nat}

lemma toInt_map_ofNat (h : ∀ n ∈ extents, n < 2 ^ 63) :
    (extents.map Int64.ofNat).map Int64.toInt = extents.map Int.ofNat := by
  rw [List.map_map]
  exact List.map_congr_left fun n hn => Int64.toInt_ofNat_of_lt (h n hn)

/-- Kernels are named as long as none of them is zero. -/
lemma kernelSetting_withInts (h : ∀ n ∈ extents, n < 2 ^ 63) :
    kernelSetting (n.withInts "kernel_shape" (extents.map Int64.ofNat)) =
      if 0 ∈ extents then .error (.invalid "kernel_shape" (.listing (extents.map Int.ofNat)))
      else .ok (some extents) := by
  have hpositive : (extents.map Int.ofNat).all (fun v => 1 ≤ v) = true ↔ 0 ∉ extents := by
    simp only [List.all_map, List.all_eq_true, Function.comp_apply, decide_eq_true_eq]
    constructor
    · intro hall hzero
      exact absurd (hall 0 hzero) (by decide)
    · intro hzero n hn
      have hne : n ≠ 0 := fun heq => hzero (heq ▸ hn)
      change (1 : Int) ≤ n
      omega
  have hvalues : (extents.map Int.ofNat).map Int.toNat = extents := by
    rw [List.map_map]
    exact List.map_id extents
  unfold kernelSetting
  rw [Node.ints?_withInts_self, toInt_map_ofNat h]
  dsimp only
  by_cases hzero : 0 ∈ extents
  · rw [if_pos hzero, if_neg (fun hall => hpositive.mp hall hzero)]
  · rw [if_neg hzero, if_pos (hpositive.mpr hzero), hvalues]

lemma extents_of_weights (h : weights.dims.drop 2 = extents.map .known) :
    (weights.dims.drop 2).mapM Dim.extent? = some extents := by
  rw [h]
  simpa using mapM_map_eq_some (g := Dim.known) (h := id) fun n (_ : n ∈ extents) => rfl

lemma kernelsOf_withInts (homitted : n.ints? "kernel_shape" = none)
    (hweights : weights.dims.drop 2 = extents.map .known) (hsigned : ∀ n ∈ extents, n < 2 ^ 63)
    (hzero : 0 ∉ extents) (spatial : Nat) :
    kernelsOf (n.withInts "kernel_shape" (extents.map Int64.ofNat)) weights spatial =
      kernelsOf n weights spatial := by
  have hnone : kernelSetting n = .ok none := by rw [kernelSetting, homitted]
  unfold kernelsOf
  rw [kernelSetting_withInts hsigned, if_neg hzero, hnone, extents_of_weights hweights]
  rfl

lemma kernelsOf_withInts_zero (hsigned : ∀ n ∈ extents, n < 2 ^ 63) (hzero : 0 ∈ extents)
    (spatial : Nat) :
    kernelsOf (n.withInts "kernel_shape" (extents.map Int64.ofNat)) weights spatial =
      .error (.invalid "kernel_shape" (.listing (extents.map Int.ofNat))) := by
  unfold kernelsOf
  rw [kernelSetting_withInts hsigned, if_pos hzero]
  rfl

lemma ofNode_withInts (values : List Int64) (kernels : List Nat) :
    Window.ofNode (n.withInts "kernel_shape" values) kernels = Window.ofNode n kernels := by
  refine ofNode_congr (fun name hname => Node.ints?_withInts_of_ne ?_) ?_ kernels
  · rintro rfl
    exact absurd hname (by decide)
  · unfold autoPadOf
    rw [Node.string?_withInts_of_ne (by decide)]

lemma transposedChannels_withKernels :
    transposedChannels (c.withKernels extents) weights = transposedChannels c weights := by
  have hgroup : (c.withKernels extents).int "group" 1 = c.int "group" 1 := by
    unfold Context.int Context.withKernels
    rw [Node.int?_withInts_of_ne (by decide)]
  unfold transposedChannels
  rw [hgroup]

/-! ### Both ways to have kernels -/

lemma bind_imageAndWeights_withKernels (h : c.OmitsKernels extents) {f g : Image × Shape → Typing}
    (hfg : ∀ image weights, weights.dims.drop 2 = extents.map .known →
      f (image, weights) = g (image, weights)) :
    imageAndWeights (c.withKernels extents) >>= f = imageAndWeights c >>= g := by
  change imageAndWeights c >>= f = imageAndWeights c >>= g
  cases himage : imageAndWeights c with
  | error e => rfl
  | ok p =>
    obtain ⟨image, weights⟩ := p
    obtain ⟨-, -, hweights, -⟩ := imageAndWeights_eq_ok_iff.mp himage
    obtain ⟨weights', hweights', hdims⟩ := h.weights
    obtain rfl := Except.ok.inj (hweights.symm.trans hweights')
    exact hfg image weights hdims

lemma conv_withKernels (h : c.OmitsKernels extents) (hzero : 0 ∉ extents) :
    conv (c.withKernels extents) = conv c := by
  refine bind_imageAndWeights_withKernels h fun image weights hdims => ?_
  dsimp only [Context.withKernels]
  rw [kernelsOf_withInts h.omitted hdims h.signed hzero]
  simp only [ofNode_withInts]
  rfl

lemma convTranspose_withKernels (h : c.OmitsKernels extents)
    (hunused : 0 ∉ extents ∨ (c.node.ints? "output_shape").isSome) :
    convTranspose (c.withKernels extents) = convTranspose c := by
  refine bind_imageAndWeights_withKernels h fun image weights hdims => ?_
  have hspatial : transposedDims (c.withKernels extents) image weights =
      transposedDims c image weights := by
    unfold transposedDims
    dsimp only [Context.withKernels]
    rw [Node.ints?_withInts_of_ne (by decide), Node.ints?_withInts_of_ne (by decide)]
    cases hshape : c.node.ints? "output_shape" with
    | some extents => rfl
    | none =>
      have hzero : 0 ∉ extents := by simpa [hshape] using hunused
      dsimp only
      rw [kernelsOf_withInts h.omitted hdims h.signed hzero]
      simp only [ofNode_withInts]
  dsimp only
  rw [hspatial, transposedChannels_withKernels]
  rfl

lemma exists_error_of_bind {α β : Type} {x : Except RuleError α} {f : α → Except RuleError β}
    (hf : ∀ a, ∃ e, f a = .error e) : ∃ e, x >>= f = .error e := by
  cases x with
  | error e => exact ⟨e, rfl⟩
  | ok a => exact hf a

lemma exists_error_of_conv (h : c.OmitsKernels extents) (hzero : 0 ∈ extents) :
    ∃ e, conv (c.withKernels extents) = .error e := by
  refine exists_error_of_bind fun p =>
    ⟨.invalid "kernel_shape" (.listing (extents.map Int.ofNat)), ?_⟩
  dsimp only [Context.withKernels]
  rw [kernelsOf_withInts_zero h.signed hzero]
  rfl

lemma exists_error_of_convTranspose (h : c.OmitsKernels extents) (hzero : 0 ∈ extents)
    (hshape : c.node.ints? "output_shape" = none) :
    ∃ e, convTranspose (c.withKernels extents) = .error e := by
  refine exists_error_of_bind fun p =>
    ⟨.invalid "kernel_shape" (.listing (extents.map Int.ofNat)), ?_⟩
  unfold transposedDims
  dsimp only [Context.withKernels]
  rw [Node.ints?_withInts_of_ne (by decide), hshape, kernelsOf_withInts_zero h.signed hzero]
  rfl

end Rule

/-- A transposed convolution may say itself how large its result is; then it has no use for
kernels. -/
def Context.NamesExtents (c : Context) : Prop :=
  c.node.op = "ConvTranspose" ∧ (c.node.ints? "output_shape").isSome

namespace Registry

open Rule

variable {c : Context} {extents : List Nat}

/-- A convolution, transposed or not, that leaves its kernels to the weights answers as one that
names the extents of the weights, with the same types or the same error. Where one of them is zero
and kernels are used, the named ones are refused. -/
theorem builtin_infer_withKernels (h : c.OmitsKernels extents)
    (hop : c.node.op = "Conv" ∨ c.node.op = "ConvTranspose") :
    ∃ rule, builtin.rule? c.node.op = some rule ∧
      (0 ∉ extents ∨ c.NamesExtents → rule.infer (c.withKernels extents) = rule.infer c) ∧
      (0 ∈ extents → ¬c.NamesExtents → ∃ e, rule.infer (c.withKernels extents) = .error e) := by
  rcases hop with hop | hop
  · have hnames : ¬c.NamesExtents := fun hnames => absurd (hop.symm.trans hnames.1) (by decide)
    refine ⟨{ infer := conv }, by rw [hop]; rfl, fun hunused => ?_, fun hzero _ => ?_⟩
    · exact conv_withKernels h (hunused.resolve_right hnames)
    · exact exists_error_of_conv h hzero
  · refine ⟨{ infer := convTranspose }, by rw [hop]; rfl, fun hunused => ?_, fun hzero hnot => ?_⟩
    · exact convTranspose_withKernels h (hunused.imp_right And.right)
    · refine exists_error_of_convTranspose h hzero (Option.eq_none_iff_forall_ne_some.mpr ?_)
      rintro extents hshape
      exact hnot ⟨hop, by rw [hshape]; rfl⟩

/-- Two axes, one with a dilated window and one with a long stride. -/
theorem builtin_infer_withKernels_of_two_axes :
    let operand (extents : List Nat) : Option Operand :=
      some ⟨.of .float (.ofExtents extents), none⟩
    let attributes : Attributes :=
      { entries := [("dilations", .ints [2, 1]), ("pads", .ints [1, 0, 2, -1]),
          ("strides", .ints [2, 3])] }
    let c : Context :=
      ⟨{ op := "ConvTranspose", inputs := ["x", "w"], outputs := ["y"], attributes },
        [operand [1, 8, 3, 3], operand [8, 4, 3, 2]], 13⟩
    c.OmitsKernels [3, 2] ∧ (c.node.op = "Conv" ∨ c.node.op = "ConvTranspose") ∧
      ∃ rule, builtin.rule? c.node.op = some rule ∧
        rule.infer (c.withKernels [3, 2]) = .ok [.of .float (.ofExtents [1, 4, 6, 9])] := by
  intro operand attributes c
  have h : c.OmitsKernels [3, 2] := ⟨by decide, ⟨_, rfl, rfl⟩, by decide⟩
  have hop : c.node.op = "Conv" ∨ c.node.op = "ConvTranspose" := .inr rfl
  obtain ⟨rule, hrule, hsame, -⟩ := builtin_infer_withKernels h hop
  obtain rfl : { infer := convTranspose } = rule := Option.some.inj hrule
  have htypes : convTranspose c = .ok [.of .float (.ofExtents [1, 4, 6, 9])] := by decide
  exact ⟨h, hop, _, hrule, (hsame (.inl (by decide))).trans htypes⟩

/-- Weights without entries: what is taken from them as a kernel fits five times on an axis of four
positions, but cannot be named. -/
theorem builtin_infer_differs_withKernels :
    let operand (extents : List Nat) : Option Operand :=
      some ⟨.of .float (.ofExtents extents), none⟩
    let c : Context :=
      ⟨{ op := "Conv", inputs := ["x", "w"], outputs := ["y"] },
        [operand [1, 1, 4], operand [1, 1, 0]], 13⟩
    (builtin.rule? "Conv").map (·.infer c) = some (.ok [.of .float (.ofExtents [1, 1, 5])]) ∧
      (builtin.rule? "Conv").map (·.infer (c.withKernels [0])) =
        some (.error (.invalid "kernel_shape" (.listing [0]))) := by
  constructor <;> rfl

end Registry

end TensorGraph
