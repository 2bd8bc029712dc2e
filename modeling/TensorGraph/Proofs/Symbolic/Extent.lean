import TensorGraph.Proofs.Symbolic.Sound
import TensorGraph.Rule.Constant
import TensorGraph.Rule.Extent

/-!
# Operators that change extents are sound

Padding and slicing, and the operators that make or read shapes as data.
-/

namespace TensorGraph.Rule

variable {σ : Valuation} {c c' : Context}

/-- Changing extents one after the other agrees if changing each one does. -/
lemma updateDims_agrees {α : Type} {change : α → Dim → Except RuleError Dim}
    (hchange : ∀ a d d', d.Describes σ d' →
      RunsAgree (Dim.Describes σ) (change a d) (change a d'))
    (rank : Nat) (changes : List (Nat × α)) {dims dims' : List Dim}
    (h : List.Forall₂ (Dim.Describes σ) dims dims') :
    RunsAgree (List.Forall₂ (Dim.Describes σ)) (updateDims rank change changes dims)
      (updateDims rank change changes dims') := by
  induction changes generalizing dims dims' with
  | nil => exact h
  | cons first rest ih =>
    obtain ⟨axis, a⟩ := first
    have haxis := forall₂_getElem? h axis
    cases hd : dims[axis]? with
    | none =>
      cases hd' : dims'[axis]? with
      | none => simp [updateDims, hd']
      | some d' => simp [hd, hd'] at haxis
    | some d =>
      cases hd' : dims'[axis]? with
      | none => simp [hd, hd'] at haxis
      | some d' =>
        rw [hd, hd', Option.rel_some_some] at haxis
        rw [updateDims_cons hd, updateDims_cons hd']
        exact (hchange a d d' haxis).bind fun e e' he => ih (forall₂_set h he axis)

/-- An extent without a number keeps its name only if the padding changes nothing. -/
lemma paddedDim_agrees (delta : Int) (d d' : Dim) (h : d.Describes σ d') :
    RunsAgree (Dim.Describes σ) (paddedDim delta d) (paddedDim delta d') := by
  cases d with
  | known n =>
    rw [Dim.describes_known.mp h]
    unfold paddedDim
    dsimp only
    split_ifs
    · trivial
    · exact wordDim_describes _
  | param name =>
    rw [Dim.describes_param.mp h]
    unfold paddedDim
    dsimp only
    by_cases hdelta : delta = 0
    · have hnonneg : ¬((σ.extent name : Int) + delta < 0) := by omega
      rw [if_pos hdelta, if_neg hnonneg]
      simp [hdelta, wordDim, σ.extent_lt]
    · rw [if_neg hdelta]
      exact Dim.unknown_agrees _
  | unknown =>
    have hunknown : paddedDim delta .unknown = .ok .unknown := by simp [paddedDim]
    rw [hunknown]
    exact Dim.unknown_agrees _

lemma padDims_agrees {s s' : Shape} (hs : s.Instantiates σ s') (axes : List Nat)
    (pads : List Int) :
    RunsAgree (List.Forall₂ (Dim.Describes σ)) (padDims s axes pads) (padDims s' axes pads) := by
  unfold padDims
  rw [hs.rank_eq]
  split_ifs
  · trivial
  · exact updateDims_agrees paddedDim_agrees _ _ hs.describes

lemma pad_sound : SoundRule pad := by
  intro σ c c' h
  refine (h.shapeAt 0).bind fun s s' hs => ?_
  have hfinish (pads : List Int) : RunsAgree (List.Forall₂ (TensorType.Describes σ))
      (do
        let axes ← axesOrAll s.rank (c.intsAt? 3)
        let dims ← padDims s axes pads
        return [c.withElem 0 ⟨dims⟩])
      (do
        let axes ← axesOrAll s.rank (c.intsAt? 3)
        let dims ← padDims s' axes pads
        return [c'.withElem 0 ⟨dims⟩]) := by
    refine Agrees.bind_same fun axes _ => (padDims_agrees hs axes pads).bind fun dims dims' hd => ?_
    exact runsAgree_single (h.withElem 0 hd)
  dsimp only
  rw [h.intsOperand, h.intsAt?, h.node, hs.rank_eq]
  cases c.intsOperand "pads" 1 padOperandVersion with
  | error e => exact runsAgree_single (h.withElem 0 (Shape.describes_ofRank _))
  | ok pads? =>
    cases pads? with
    | some pads => exact hfinish pads
    | none =>
      dsimp only
      cases c.node.ints? "paddings" with
      | some pads => exact hfinish pads
      | none => trivial

lemma sliceBounds?_eq (h : c.Instantiates σ c') : sliceBounds? c' = sliceBounds? c := by
  have hoptional (i : Nat) : optionalInts? c' i = optionalInts? c i := by
    unfold optionalInts?
    rw [h.has, h.intsAt?]
  unfold sliceBounds?
  simp only [h.opset, h.has, h.intsAt?, h.node, hoptional]

lemma slicedDim_agrees (bounds : Int × Int × Int) (d d' : Dim) (h : d.Describes σ d') :
    RunsAgree (Dim.Describes σ) (slicedDim bounds d) (slicedDim bounds d') := by
  cases d with
  | known n =>
    rw [Dim.describes_known.mp h]
    rfl
  | param name => exact Dim.unknown_agrees _
  | unknown => exact Dim.unknown_agrees _

lemma sliceDims_agrees (rank : Nat) (bounds : List (Nat × Int × Int × Int)) {dims dims' : List Dim}
    (h : List.Forall₂ (Dim.Describes σ) dims dims') :
    RunsAgree (List.Forall₂ (Dim.Describes σ)) (sliceDims rank bounds dims)
      (sliceDims rank bounds dims') := by
  induction bounds generalizing dims dims' with
  | nil => exact h
  | cons first rest ih =>
    obtain ⟨axis, start, stop, step⟩ := first
    by_cases hstep : step = 0
    · simp [sliceDims, hstep]
    · rw [sliceDims_cons hstep, sliceDims_cons hstep]
      exact (updateDims_agrees slicedDim_agrees rank _ h).bind fun _ _ hd => ih hd

lemma slice_sound : SoundRule slice := by
  intro σ c c' h
  refine (h.shapeAt 0).bind fun s s' hs => ?_
  rw [sliceBounds?_eq h, hs.rank_eq]
  cases sliceBounds? c with
  | none => exact runsAgree_single (h.withElem 0 (Shape.describes_ofRank _))
  | some b =>
    refine Agrees.bind_same fun axes _ => ?_
    dsimp only
    split_ifs
    · trivial
    · refine (sliceDims_agrees s.rank _ hs.describes).bind fun dims dims' hd => ?_
      exact runsAgree_single (h.withElem 0 hd)

lemma shapeInfer_sound : SoundRule shapeInfer := by
  intro σ c c' h
  refine (h.shapeAt 0).bind fun s s' hs => ?_
  have hrange : shapeRange c' s.rank = shapeRange c s.rank := by
    unfold shapeRange
    simp only [h.int]
  rw [hs.rank_eq, hrange]
  exact runsAgree_single (TensorType.describes_of.mpr (Shape.describes_ofExtents _))

lemma gatherInfer_sound : SoundRule gatherInfer := by
  intro σ c c' h
  refine (h.shapeAt 0).bind fun data data' hdata => ?_
  refine (h.shapeAt 1).bind fun indices indices' hindices => ?_
  rw [h.int, hdata.rank_eq]
  refine Agrees.bind_same fun axis _ => runsAgree_single (h.withElem 0 ?_)
  have hdims := hdata.describes
  exact List.rel_append (List.rel_append (List.forall₂_take _ hdims) hindices.describes)
    (List.forall₂_drop _ hdims)

lemma constant_sound : SoundRule constant.infer := by
  intro σ c c' h
  unfold constant
  dsimp only
  rw [h.node]
  cases constantValue? c.node with
  | none => trivial
  | some t =>
    exact runsAgree_single (TensorType.describes_mk_some.mpr ⟨rfl, Shape.describes_ofExtents _⟩)

lemma constantOfShape_sound : SoundRule constantOfShape := by
  intro σ c c' h
  unfold constantOfShape
  dsimp only
  rw [h.node, h.intsAt?]
  cases c.intsAt? 0 with
  | some extents =>
    refine (extentsOf_agrees σ "input" extents).bind fun dims dims' hd => runsAgree_single ?_
    have hshape : (Shape.mk dims).Instantiates σ ⟨dims'⟩ := hd
    exact TensorType.describes_of.mpr hshape.describes
  | none =>
    refine (h.shapeAt 0).bind fun s s' hs => ?_
    obtain ⟨dims⟩ := s
    obtain ⟨dims'⟩ := s'
    unfold Shape.Instantiates at hs
    dsimp only at hs ⊢
    cases hs with
    | nil => trivial
    | @cons d d' _ _ hd _ =>
      cases d with
      | known rank =>
        rw [Dim.instantiates_known.mp hd]
        refine Agrees.bind_same fun s hs => ?_
        rw [declaredShape_eq_ok hs]
        exact runsAgree_single (TensorType.describes_of.mpr (Shape.describes_ofRank rank))
      | param name => exact Agrees.error_left (by simp [RuleError.IsShape]) _
      | unknown => exact Agrees.error_left (by simp [RuleError.IsShape]) _

lemma expand_sound : SoundRule expand := by
  intro σ c c' h
  refine (h.shapeAt 0).bind fun s s' hs => ?_
  rw [h.intsAt?]
  cases c.intsAt? 1 with
  | none => trivial
  | some extents =>
    refine (extentsOf_agrees σ "shape" extents).bind fun dims dims' hd => ?_
    have hshape : (Shape.mk dims).Instantiates σ ⟨dims'⟩ := hd
    refine (hs.broadcast hshape).runs.bind fun r r' hr => ?_
    exact runsAgree_single (h.withElem 0 hr.describes)

end TensorGraph.Rule
