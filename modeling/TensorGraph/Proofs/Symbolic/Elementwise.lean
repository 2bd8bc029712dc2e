import TensorGraph.Proofs.Symbolic.Sound
import TensorGraph.Rule.Reduction

/-!
# Elementwise operators and reductions are sound
-/

namespace TensorGraph.Rule

variable {σ : Valuation} {c c' : Context}

lemma sameType_sound : SoundRule sameType := by
  intro σ c c' h
  exact (h.typeAt 0).bind fun t t' ht => runsAgree_single ht.describes

lemma broadcastShape_agrees (h : c.Instantiates σ c') (inputs : List Nat) :
    RunsAgree (Shape.Instantiates σ) (broadcastShape c inputs) (broadcastShape c' inputs) := by
  have hinputs : List.Forall₂ Eq inputs inputs := List.forall₂_same.mpr fun _ _ => rfl
  have hshapes : RunsAgree (List.Forall₂ (Shape.Instantiates σ)) (inputs.mapM c.shapeAt)
      (inputs.mapM c'.shapeAt) := Agrees.mapM hinputs fun i _ hi => hi ▸ h.shapeAt i
  exact hshapes.bind fun shapes shapes' hs => (Shape.broadcastAll_agrees hs).runs

lemma firstElem?_eq (h : c.Instantiates σ c') (inputs : List Nat) :
    firstElem? c' inputs = firstElem? c inputs := by
  have helem : c'.elemAt? = c.elemAt? := funext h.elemAt?
  unfold firstElem?
  rw [helem]

lemma map_fst_present (h : c.Instantiates σ c') :
    c'.present.map Prod.fst = c.present.map Prod.fst := by
  have hfst := List.Forall₂.imp (fun _ _ hp => hp.1.symm) h.present
  rw [← List.forall₂_eq_eq_eq, List.forall₂_map_left_iff, List.forall₂_map_right_iff]
  exact (List.Forall₂.imp (fun _ _ => Eq.symm) hfst).flip

lemma broadcast_sound : SoundRule broadcast := by
  intro σ c c' h
  unfold broadcast
  simp only [map_fst_present h, h.elemAt?, firstElem?_eq h]
  split_ifs
  · trivial
  · refine (broadcastShape_agrees h _).bind fun s s' hs => runsAgree_single ?_
    simpa using hs.describes

lemma comparison_sound : SoundRule comparison := by
  intro σ c c' h
  refine (broadcastShape_agrees h _).bind fun s s' hs => runsAgree_single ?_
  simpa using hs.describes

lemma predicate_sound : SoundRule predicate := by
  intro σ c c' h
  refine (h.shapeAt 0).bind fun s s' hs => runsAgree_single ?_
  simpa using hs.describes

lemma select_sound : SoundRule select := by
  intro σ c c' h
  refine (broadcastShape_agrees h _).bind fun s s' hs => runsAgree_single ?_
  simpa [firstElem?_eq h] using hs.describes

lemma cast_sound : SoundRule cast := by
  intro σ c c' h
  unfold cast
  rw [h.node]
  cases c.node.int? "to" with
  | none => trivial
  | some code =>
    dsimp only
    split_ifs
    · trivial
    · cases ElemType.ofCode? code with
      | none => trivial
      | some elem =>
        exact (h.typeAt 0).bind fun t t' ht => runsAgree_single (ht.describes.withElem _)

lemma castLike_sound : SoundRule castLike := by
  intro σ c c' h
  unfold castLike
  rw [h.elemAt?]
  exact (h.typeAt 0).bind fun t t' ht => runsAgree_single (ht.describes.withElem _)

lemma dropout_sound : SoundRule dropout := by
  intro σ c c' h
  refine (h.typeAt 0).bind fun t t' ht => ?_
  exact .cons ht.describes (.cons (ht.describes.withElem _) .nil)

lemma quantize_sound : SoundRule quantize := by
  intro σ c c' h
  refine (h.typeAt 0).bind fun t t' ht => ?_
  have htype elem? := runsAgree_single (ht.describes.withElem elem?)
  dsimp only
  rw [h.elemAt?, h.has, h.int]
  cases c.elemAt? 2 with
  | some elem => exact htype _
  | none =>
    dsimp only
    split_ifs
    · exact htype _
    · exact htype _
    · cases elemOfCode? (c.int "output_dtype" 0) with
      | none => trivial
      | some elem => exact htype _

lemma dequantize_sound : SoundRule dequantize := by
  intro σ c c' h
  unfold dequantize
  rw [h.elemAt?, h.opset]
  exact (h.typeAt 0).bind fun t t' ht => runsAgree_single (ht.describes.withElem _)

lemma reducedDims_describes {dims dims' : List Dim}
    (h : List.Forall₂ (Dim.Instantiates σ) dims dims') (axes : List Nat) (keep : Bool) :
    List.Forall₂ (Dim.Describes σ) (reducedDims dims axes keep) (reducedDims dims' axes keep) := by
  unfold reducedDims
  refine List.rel_filterMap ?_ (forall₂_zipIdx h 0)
  rintro ⟨d, i⟩ ⟨d', _⟩ ⟨hd, rfl⟩
  dsimp only
  split_ifs
  · exact .some rfl
  · exact .none
  · exact .some hd.describes

lemma reduce_sound : SoundRule reduce := by
  intro σ c c' h
  refine (h.shapeAt 0).bind fun s s' hs => ?_
  have hdims axes keep := runsAgree_single (h.withElem 0 (reducedDims_describes hs axes keep))
  dsimp only
  rw [h.int, h.int, h.node, h.intsOperand, hs.rank_eq]
  cases c.intsOperand "axes" 1 (reduceOperandVersion c.node.op) with
  | error e =>
    dsimp only
    split_ifs
    · exact runsAgree_single (h.withElem 0 (Shape.describes_ofRank _))
    · trivial
  | ok axes? =>
    dsimp only
    cases axes?.filter fun axes => !axes.isEmpty with
    | some axes => exact Agrees.bind_same fun positions _ => hdims positions _
    | none =>
      dsimp only
      split_ifs
      · exact sameType_sound σ c c' h
      · exact hdims _ _

lemma argReduce_sound : SoundRule argReduce := by
  intro σ c c' h
  refine (h.shapeAt 0).bind fun s s' hs => ?_
  dsimp only
  rw [h.int, h.int, hs.rank_eq]
  refine Agrees.bind_same fun axis _ => runsAgree_single ?_
  exact TensorType.describes_of.mpr (reducedDims_describes hs _ _)

end TensorGraph.Rule
