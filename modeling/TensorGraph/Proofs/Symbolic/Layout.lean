import TensorGraph.Proofs.Symbolic.Sound
import TensorGraph.Rule.Layout

/-!
# Operators that rearrange extents are sound
-/

namespace TensorGraph.Rule

variable {σ : Valuation} {c c' : Context}

lemma reshapeTarget?_eq (h : c.Instantiates σ c') : reshapeTarget? c' = reshapeTarget? c := by
  unfold reshapeTarget?
  rw [h.opset, h.has, h.intsAt?, h.node]

lemma reshapeEntry_agrees {data? data?' : Option Shape}
    (hdata : Option.Rel (Shape.Instantiates σ) data? data?') (zeroCopies : Bool)
    (target : List Int) (entry : Int × Nat) :
    RunsAgree (Dim.Describes σ) (reshapeEntry zeroCopies data? target entry)
      (reshapeEntry zeroCopies data?' target entry) := by
  unfold reshapeEntry extentOf
  dsimp only
  split_ifs
  · trivial
  · trivial
  · cases hdata with
    | none => trivial
    | @some s s' hs =>
      dsimp only
      obtain ⟨hd, hd'⟩ | ⟨d, d', hd, hd', hrel⟩ :=
        none_or_some_of_rel (forall₂_getElem? hs entry.2)
      · rw [hd, hd']
        trivial
      · rw [hd, hd']
        exact hrel.describes
  · trivial
  · rfl

/-- The extent that a target leaves open is unknown until it is found. -/
lemma unknown_of_open {zeroCopies : Bool} {data? : Option Shape} {target : List Int}
    {dims : List Dim} (h : target.zipIdx.mapM (reshapeEntry zeroCopies data? target) = .ok dims)
    {i : Nat} (hi : target.idxOf? (-1) = some i) : dims[i]? = some .unknown := by
  obtain ⟨hlt, ht, _⟩ := List.idxOf?_eq_some_iff.mp hi
  have hrel := forall₂_getElem? (mapM_eq_ok_iff.mp h) i
  have hentry : target.zipIdx[i]? = some (-1, i) := by simp [hlt, ht]
  rw [hentry] at hrel
  cases hd : dims[i]? with
  | none => simp [hd] at hrel
  | some d =>
    rw [hd, Option.rel_some_some] at hrel
    unfold reshapeEntry at hrel
    simp only [if_true] at hrel
    split_ifs at hrel
    exact congrArg some (Except.ok.inj hrel).symm

lemma closeReshape_agrees {data? data?' : Option Shape} {target : List Int} {dims dims' : List Dim}
    (hdata : Option.Rel (Shape.Instantiates σ) data? data?')
    (hdims : List.Forall₂ (Dim.Describes σ) dims dims')
    (hopen : ∀ i, target.idxOf? (-1) = some i → dims[i]? = some .unknown) :
    RunsAgree (List.Forall₂ (Dim.Describes σ)) (closeReshape data? target dims)
      (closeReshape data?' target dims') := by
  have htotal {total} (h : data?.bind Shape.numElements? = some total) :
      data?'.bind Shape.numElements? = some total := by
    cases hdata with
    | none => simp at h
    | some hs => exact hs.numElements?_eq h
  unfold closeReshape
  cases hidx : target.idxOf? (-1) with
  | none => exact hdims
  | some i =>
    have hset (d : Dim) : List.Forall₂ (Dim.Describes σ) dims (dims'.set i d) :=
      forall₂_set_right hdims (hopen i hidx) Dim.describes_unknown
    have hrest := productDim_of_describes (forall₂_eraseIdx hdims i)
    dsimp only
    split
    · rename_i total rest hs hr
      rw [hr, Dim.describes_known] at hrest
      rw [htotal hs, hrest]
      dsimp only
      split_ifs
      · trivial
      · exact forall₂_set hdims (Dim.describes_known.mpr rfl) i
    · split
      · split_ifs
        · trivial
        · exact hset _
      · exact hdims

lemma reshapeDims_agrees {data? data?' : Option Shape}
    (hdata : Option.Rel (Shape.Instantiates σ) data? data?') (zeroCopies : Bool)
    (target : List Int) :
    RunsAgree (List.Forall₂ (Dim.Describes σ)) (reshapeDims zeroCopies data? target)
      (reshapeDims zeroCopies data?' target) := by
  have hentries : List.Forall₂ Eq target.zipIdx target.zipIdx :=
    List.forall₂_same.mpr fun _ _ => rfl
  have hdims : RunsAgree (List.Forall₂ (Dim.Describes σ))
      (target.zipIdx.mapM (reshapeEntry zeroCopies data? target))
      (target.zipIdx.mapM (reshapeEntry zeroCopies data?' target)) :=
    Agrees.mapM hentries fun entry _ he => he ▸ reshapeEntry_agrees hdata zeroCopies target entry
  exact hdims.and_left.bind fun dims dims' ⟨hx, hd⟩ =>
    closeReshape_agrees hdata hd fun i => unknown_of_open hx

lemma reshape_sound : SoundRule reshape := by
  intro σ c c' h
  refine (h.typeAt 0).bind fun t t' ht => ?_
  rw [reshapeTarget?_eq h, h.int]
  cases reshapeTarget? c with
  | some target =>
    refine (reshapeDims_agrees ht.2 _ target).bind fun dims dims' hd => ?_
    exact runsAgree_single (h.withElem 0 hd)
  | none =>
    have hshape := h.operandShape? 1
    dsimp only
    revert hshape
    generalize (c.operand? 1).bind (fun o => o.type.shape?) = s?
    generalize (c'.operand? 1).bind (fun o => o.type.shape?) = s?'
    rintro (hs | _)
    · split
      · rename_i s s' _ rank hrank
        unfold Shape.Instantiates at hs
        rw [Option.some.inj hrank] at hs
        obtain ⟨d, ds, hd, hds, hdims⟩ := List.forall₂_cons_left_iff.mp hs
        rw [List.forall₂_nil_left_iff.mp hds, Dim.instantiates_known.mp hd] at hdims
        rw [Option.map_some, hdims]
        refine Agrees.bind_same fun s hs => ?_
        rw [declaredShape_eq_ok hs]
        exact runsAgree_single (h.withElem 0 (Shape.describes_ofRank rank))
      · exact Agrees.error_left (by simp [RuleError.IsShape]) _
    · trivial

lemma flatten_sound : SoundRule flatten := by
  intro σ c c' h
  refine (h.shapeAt 0).bind fun s s' hs => ?_
  dsimp only
  rw [h.int, hs.rank_eq]
  generalize (if c.int "axis" 1 < 0 then c.int "axis" 1 + s.rank else c.int "axis" 1) = position
  split_ifs
  · trivial
  · have hdims : List.Forall₂ (Dim.Describes σ) s.dims s'.dims := hs.describes
    refine runsAgree_single (h.withElem 0 (.cons ?_ (.cons ?_ .nil)))
    · exact productDim_of_describes (List.forall₂_take _ hdims)
    · exact productDim_of_describes (List.forall₂_drop _ hdims)

lemma squeezeAxes_agrees (h : c.Instantiates σ c') {s s' : Shape} (hs : s.Instantiates σ s') :
    RunsAgree Eq (squeezeAxes c s) (squeezeAxes c' s') := by
  unfold squeezeAxes
  rw [h.intsOperand, hs.rank_eq]
  refine Agrees.bind_same fun axes? _ => ?_
  cases axes? with
  | some axes => exact Agrees.self fun _ _ => rfl
  | none =>
    dsimp only
    by_cases hknown : s.isFullyKnown = true
    · rw [hs.eq_of_isFullyKnown hknown]
      exact Agrees.self fun _ _ => rfl
    · rw [if_neg hknown]
      exact Agrees.error_left (by simp [RuleError.IsShape]) _

lemma checkDroppable_agrees (s s' : Shape) (i : Nat) :
    RunsAgree Eq (checkDroppable s i) (checkDroppable s' i) := by
  have hfinal (e : RuleError) (he : checkDroppable s i = .error e) : ¬e.IsShape := by
    unfold checkDroppable at he
    split at he
    · split_ifs at he
      rw [← Except.error.inj he]
      exact id
    · exact absurd he nofun
  cases hx : checkDroppable s i with
  | error e => exact Agrees.error_left (hfinal e hx) _
  | ok _ =>
    cases checkDroppable s' i with
    | error e' => trivial
    | ok _ => rfl

lemma dropPositions_describes {dims dims' : List Dim}
    (h : List.Forall₂ (Dim.Instantiates σ) dims dims') (positions : List Nat) :
    List.Forall₂ (Dim.Describes σ) (dropPositions dims positions)
      (dropPositions dims' positions) := by
  unfold dropPositions
  refine List.rel_filterMap ?_ (forall₂_zipIdx h 0)
  rintro ⟨d, i⟩ ⟨d', _⟩ ⟨hd, rfl⟩
  dsimp only
  split_ifs
  · exact .none
  · exact .some hd.describes

lemma squeeze_sound : SoundRule squeeze := by
  intro σ c c' h
  refine (h.shapeAt 0).bind fun s s' hs => ?_
  refine (squeezeAxes_agrees h hs).bind ?_
  rintro positions _ rfl
  refine (Agrees.forM (checkDroppable_agrees s s') positions).bind fun _ _ _ => ?_
  exact runsAgree_single (h.withElem 0 (dropPositions_describes hs positions))

lemma insertOnes_describes (positions : List Nat) (count i : Nat) {dims dims' : List Dim}
    (h : List.Forall₂ (Dim.Describes σ) dims dims') :
    List.Forall₂ (Dim.Describes σ) (insertOnes positions count i dims)
      (insertOnes positions count i dims') := by
  induction count generalizing i dims dims' with
  | zero => exact .nil
  | succ count ih =>
    unfold insertOnes
    split_ifs
    · exact .cons (Dim.describes_known.mpr rfl) (ih (i + 1) h)
    · cases h with
      | nil => exact .cons Dim.describes_unknown (ih (i + 1) .nil)
      | cons hd hds => exact .cons hd (ih (i + 1) hds)

lemma unsqueeze_sound : SoundRule unsqueeze := by
  intro σ c c' h
  refine (h.shapeAt 0).bind fun s s' hs => ?_
  rw [h.intsOperand, hs.rank_eq]
  refine Agrees.bind_same fun axes? _ => ?_
  cases axes? with
  | none => trivial
  | some axes =>
    refine Agrees.bind_same fun positions _ => ?_
    dsimp only
    split_ifs
    · trivial
    · exact runsAgree_single (h.withElem 0 (insertOnes_describes positions _ 0 hs.describes))

lemma permutation_eq (h : c.Instantiates σ c') (rank : Nat) :
    permutation c' rank = permutation c rank := by
  unfold permutation
  rw [h.node]

lemma transpose_sound : SoundRule transpose := by
  intro σ c c' h
  refine (h.shapeAt 0).bind fun s s' hs => ?_
  rw [permutation_eq h, hs.rank_eq]
  refine Agrees.bind_same fun positions _ => runsAgree_single (h.withElem 0 ?_)
  have hpositions : List.Forall₂ Eq positions positions := List.forall₂_same.mpr fun _ _ => rfl
  refine List.rel_filterMap ?_ hpositions
  rintro p _ rfl
  exact forall₂_getElem? hs.describes p

end TensorGraph.Rule
