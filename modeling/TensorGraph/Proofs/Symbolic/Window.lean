import TensorGraph.Proofs.Symbolic.Sound
import TensorGraph.Rule.Window

/-!
# Sliding windows are sound
-/

namespace TensorGraph.Rule

variable {σ : Valuation} {c c' : Context}

lemma AxisWindow.forward_agrees (w : AxisWindow) (autoPad : AutoPad) (ceiling : Bool) {d d' : Dim}
    (h : d.Instantiates σ d') :
    RunsAgree (Dim.Describes σ) (w.forward autoPad ceiling d) (w.forward autoPad ceiling d') := by
  obtain ⟨n, rfl, hd⟩ := h
  cases d with
  | known m =>
    rw [Dim.describes_known.mp hd]
    unfold AxisWindow.forward
    dsimp only
    split_ifs
    · trivial
    · exact wordDim_describes _
  | param name => exact Dim.unknown_agrees _
  | unknown => exact Dim.unknown_agrees _

lemma AxisWindow.backward_agrees (w : AxisWindow) (autoPad : AutoPad) (extra : Int) (axis : Nat)
    {d d' : Dim} (h : d.Instantiates σ d') :
    RunsAgree (Dim.Describes σ) (w.backward autoPad extra axis d)
      (w.backward autoPad extra axis d') := by
  obtain ⟨n, rfl, hd⟩ := h
  cases d with
  | known m =>
    rw [Dim.describes_known.mp hd]
    refine Agrees.bind_same fun size _ => ?_
    split_ifs
    · trivial
    · exact wordDim_describes _
  | param name => exact Dim.unknown_agrees _
  | unknown => exact Dim.unknown_agrees _

/-- An instance of each extent of an image. -/
structure Image.Instantiates (σ : Valuation) (image image' : Image) : Prop where
  batch : image.batch.Instantiates σ image'.batch
  channels : image.channels.Instantiates σ image'.channels
  spatial : List.Forall₂ (Dim.Instantiates σ) image.spatial image'.spatial

lemma imageOf_agrees {s s' : Shape} (hs : s.Instantiates σ s') :
    RunsAgree (Image.Instantiates σ) (imageOf s) (imageOf s') := by
  obtain ⟨dims⟩ := s
  obtain ⟨dims'⟩ := s'
  rcases hs with _ | ⟨hbatch, _ | ⟨hchannels, _ | ⟨hd, hds⟩⟩⟩
  · trivial
  · trivial
  · trivial
  · exact ⟨hbatch, hchannels, .cons hd hds⟩

lemma imageAndWeights_agrees (h : c.Instantiates σ c') :
    RunsAgree (fun p p' => p.1.Instantiates σ p'.1 ∧ p.2.Instantiates σ p'.2)
      (imageAndWeights c) (imageAndWeights c') := by
  refine (h.shapeAt 0).bind fun x x' hx => (imageOf_agrees hx).bind fun image image' himage => ?_
  refine (h.shapeAt 1).bind fun w w' hw => ?_
  rw [hx.rank_eq, hw.rank_eq]
  split_ifs
  · trivial
  · exact ⟨himage, hw⟩

lemma kernelsOf_agrees (n : Node) {w w' : Shape} (hw : w.Instantiates σ w') (spatial : Nat) :
    RunsAgree Eq (kernelsOf n w spatial) (kernelsOf n w' spatial) := by
  unfold kernelsOf
  refine Agrees.bind_same fun kernels? _ => ?_
  cases kernels? with
  | some kernels => exact Agrees.self fun _ _ => rfl
  | none =>
    dsimp only
    cases hkernels : (w.dims.drop 2).mapM Dim.extent? with
    | none => exact Agrees.error_left (by simp [RuleError.IsShape]) _
    | some kernels =>
      rw [mapM_extent?_of_describes (List.forall₂_drop 2 hw.describes) hkernels]
      exact Agrees.self fun _ _ => rfl

lemma forwardAll_agrees (w : Window) (ceiling : Bool) {spatial spatial' : List Dim}
    (h : List.Forall₂ (Dim.Instantiates σ) spatial spatial') :
    RunsAgree (List.Forall₂ (Dim.Describes σ)) (forwardAll w ceiling spatial)
      (forwardAll w ceiling spatial') := by
  have haxes : List.Forall₂ Eq w.axes w.axes := List.forall₂_same.mpr fun _ _ => rfl
  refine Agrees.mapM (forall₂_zip_zip haxes h) ?_
  rintro ⟨axis, d⟩ ⟨_, d'⟩ ⟨rfl, hd⟩
  exact axis.forward_agrees w.autoPad ceiling hd

lemma conv_sound : SoundRule conv := by
  intro σ c c' h
  refine (imageAndWeights_agrees h).bind ?_
  rintro ⟨image, w⟩ ⟨image', w'⟩ ⟨himage, hw⟩
  dsimp only at himage hw ⊢
  rw [h.node, ← himage.spatial.length_eq]
  refine (kernelsOf_agrees c.node hw _).bind ?_
  rintro kernels _ rfl
  refine Agrees.bind_same fun window _ => ?_
  refine (forwardAll_agrees window false himage.spatial).bind fun spatial spatial' hspatial => ?_
  refine runsAgree_single (h.withElem 0 (.cons himage.batch.describes (.cons ?_ hspatial)))
  rw [List.head?_eq_getElem?, List.head?_eq_getElem?]
  exact getD_describes (forall₂_getElem? hw.describes 0)

lemma transposedChannels_describes (h : c.Instantiates σ c') {w w' : Shape}
    (hw : w.Instantiates σ w') :
    (transposedChannels c w).Describes σ (transposedChannels c' w') := by
  unfold transposedChannels
  rw [h.int]
  obtain ⟨hd, hd'⟩ | ⟨d, d', hd, hd', hrel⟩ := none_or_some_of_rel (forall₂_getElem? hw.describes 1)
  · rw [hd, hd']
    exact Dim.describes_unknown
  · rw [hd, hd']
    cases d with
    | known n =>
      rw [Dim.describes_known.mp hrel]
      exact wordDim_describes _
    | param name => exact Dim.describes_unknown
    | unknown => exact Dim.describes_unknown

lemma transposedDims_agrees (h : c.Instantiates σ c') {image image' : Image} {w w' : Shape}
    (himage : image.Instantiates σ image') (hw : w.Instantiates σ w') :
    RunsAgree (List.Forall₂ (Dim.Describes σ)) (transposedDims c image w)
      (transposedDims c' image' w') := by
  unfold transposedDims
  rw [h.node, ← himage.spatial.length_eq]
  cases c.node.ints? "output_shape" with
  | some extents =>
    dsimp only
    split_ifs
    · trivial
    · have hextents : List.Forall₂ Eq extents extents := List.forall₂_same.mpr fun _ _ => rfl
      refine Agrees.mapM hextents ?_
      rintro e _ rfl
      split_ifs
      · trivial
      · rfl
  | none =>
    refine (kernelsOf_agrees c.node hw _).bind ?_
    rintro kernels _ rfl
    refine Agrees.bind_same fun window _ => ?_
    have haxes : List.Forall₂ Eq window.axes window.axes := List.forall₂_same.mpr fun _ _ => rfl
    refine Agrees.mapM (forall₂_zipIdx (forall₂_zip_zip haxes himage.spatial) 0) ?_
    rintro ⟨⟨axis, d⟩, i⟩ ⟨⟨_, d'⟩, _⟩ ⟨⟨rfl, hd⟩, rfl⟩
    exact axis.backward_agrees window.autoPad _ i hd

lemma convTranspose_sound : SoundRule convTranspose := by
  intro σ c c' h
  refine (imageAndWeights_agrees h).bind ?_
  rintro ⟨image, w⟩ ⟨image', w'⟩ ⟨himage, hw⟩
  refine (transposedDims_agrees h himage hw).bind fun spatial spatial' hspatial => ?_
  refine runsAgree_single (h.withElem 0 (.cons himage.batch.describes (.cons ?_ hspatial)))
  exact transposedChannels_describes h hw

lemma pool_sound : SoundRule pool := by
  intro σ c c' h
  refine (h.shapeAt 0).bind fun x x' hx => (imageOf_agrees hx).bind fun image image' himage => ?_
  rw [h.node]
  refine Agrees.bind_same fun kernels? _ => ?_
  cases kernels? with
  | none => trivial
  | some kernels =>
    dsimp only
    rw [← himage.spatial.length_eq, hx.rank_eq, h.int]
    by_cases hlength : kernels.length = image.spatial.length
    · rw [if_neg (not_not.mpr hlength), if_neg (not_not.mpr hlength)]
      refine Agrees.bind_same fun window _ => ?_
      refine (forwardAll_agrees window _ himage.spatial).bind fun spatial spatial' hspatial => ?_
      have hdims : List.Forall₂ (Dim.Describes σ) (image.batch :: image.channels :: spatial)
          (image'.batch :: image'.channels :: spatial') :=
        .cons himage.batch.describes (.cons himage.channels.describes hspatial)
      split_ifs
      · exact .cons (h.withElem 0 hdims) (.cons (TensorType.describes_of.mpr hdims) .nil)
      · exact runsAgree_single (h.withElem 0 hdims)
    · rw [if_pos hlength, if_pos hlength]
      trivial

lemma globalPool_sound : SoundRule globalPool := by
  intro σ c c' h
  refine (h.shapeAt 0).bind fun x x' hx => (imageOf_agrees hx).bind fun image image' himage => ?_
  refine runsAgree_single (h.withElem 0 (.cons himage.batch.describes
    (.cons himage.channels.describes ?_)))
  refine List.forall₂_map_left_iff.mpr (List.forall₂_map_right_iff.mpr ?_)
  exact himage.spatial.imp fun _ _ _ => Dim.describes_known.mpr rfl

end TensorGraph.Rule
