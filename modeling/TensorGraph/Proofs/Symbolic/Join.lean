import TensorGraph.Proofs.Symbolic.Sound
import TensorGraph.Rule.Join
import TensorGraph.Rule.MatrixProduct

/-!
# Joining, splitting and matrix products are sound
-/

namespace TensorGraph.Rule

variable {σ : Valuation} {c c' : Context}

lemma sumDim_describes {d d' e e' : Dim} (hd : d.Describes σ d') (he : e.Describes σ e') :
    (sumDim d e).Describes σ (sumDim d' e') := by
  cases d with
  | known m =>
    cases e with
    | known n =>
      rw [Dim.describes_known.mp hd, Dim.describes_known.mp he]
      exact wordDim_describes (m + n)
    | param name => exact Dim.describes_unknown
    | unknown => exact Dim.describes_unknown
  | param name => exact Dim.describes_unknown
  | unknown => exact Dim.describes_unknown

lemma joinDims_agrees (axis : Nat) {a a' b b' : List Dim}
    (ha : List.Forall₂ (Dim.Describes σ) a a') (hb : List.Forall₂ (Dim.Instantiates σ) b b') :
    OptionsAgree (List.Forall₂ (Dim.Describes σ)) (joinDims axis a b) (joinDims axis a' b') := by
  unfold joinDims
  refine OptionsAgree.mapM (forall₂_zipIdx (forall₂_zip_zip ha hb) 0) ?_
  rintro ⟨⟨x, y⟩, i⟩ ⟨⟨x', y'⟩, _⟩ ⟨⟨hx, hy⟩, rfl⟩
  dsimp only at hx hy ⊢
  split_ifs
  · exact sumDim_describes hx hy.describes
  · exact hx.merge hy

lemma joinNext_agrees (axis : Nat) {first first' next next' : Shape} {dims dims' : List Dim}
    (hfirst : first.Instantiates σ first') (hdims : List.Forall₂ (Dim.Describes σ) dims dims')
    (hnext : next.Instantiates σ next') :
    RunsAgree (List.Forall₂ (Dim.Describes σ)) (joinNext axis first dims next)
      (joinNext axis first' dims' next') := by
  unfold joinNext
  rw [hfirst.rank_eq, hnext.rank_eq]
  split_ifs
  · trivial
  · obtain hnone | ⟨r, r', hr, hr', hrel⟩ := (joinDims_agrees axis hdims hnext).none_or_some
    · simp [hnone]
    · simpa [hr, hr'] using hrel

lemma presentShapes_agree (h : c.Instantiates σ c') :
    RunsAgree (List.Forall₂ (Shape.Instantiates σ))
      (c.present.mapM fun (i, _) => c.shapeAt i) (c'.present.mapM fun (i, _) => c'.shapeAt i) :=
  Agrees.mapM h.present fun p p' hp => by
    dsimp only
    rw [hp.1]
    exact h.shapeAt p.1

lemma presentElem?_eq (h : c.Instantiates σ c') :
    (c'.present.findSome? fun (_, o) => o.type.elem?) =
      c.present.findSome? fun (_, o) => o.type.elem? :=
  findSome?_eq_of_forall₂ h.present fun _ _ hp => hp.2.1.1

lemma concatInfer_sound : SoundRule concatInfer := by
  intro σ c c' h
  have hshapes := presentShapes_agree h
  have helem := presentElem?_eq h
  unfold concatInfer
  rw [h.node]
  cases c.node.int? "axis" with
  | none => trivial
  | some axis =>
    refine hshapes.bind fun shapes shapes' hs => ?_
    cases hs with
    | nil => trivial
    | @cons first first' rest rest' hfirst hrest =>
      dsimp only
      rw [hfirst.rank_eq, helem]
      refine Agrees.bind_same fun position _ => ?_
      have hdims : RunsAgree (List.Forall₂ (Dim.Describes σ))
          (rest.foldlM (joinNext position first) first.dims)
          (rest'.foldlM (joinNext position first') first'.dims) :=
        Agrees.foldlM hrest (fun _ _ _ _ hd hnext => joinNext_agrees position hfirst hd hnext)
          hfirst.describes
      exact hdims.bind fun dims dims' hd =>
        runsAgree_single (TensorType.describes_mk_some.mpr ⟨rfl, hd⟩)

lemma splitParts_agrees (h : c.Instantiates σ c') {d d' : Dim} (hd : d.Describes σ d')
    (count : Nat) :
    RunsAgree (List.Forall₂ (Dim.Describes σ)) (splitParts c d count) (splitParts c' d' count) := by
  have hself (parts : List Nat) :
      List.Forall₂ (Dim.Describes σ) (parts.map .known) (parts.map .known) := by
    refine List.forall₂_same.mpr fun d hd => ?_
    obtain ⟨n, -, rfl⟩ := List.mem_map.mp hd
    exact Dim.describes_known.mpr rfl
  have hopen (dims : List Dim) (hlength : dims.length = count) :
      List.Forall₂ (Dim.Describes σ) (List.replicate count .unknown) dims :=
    hlength ▸ forall₂_replicate_left (fun _ => Dim.describes_unknown) dims
  have heven (extent : Nat) :
      RunsAgree (List.Forall₂ (Dim.Describes σ)) (.ok (List.replicate count .unknown))
        ((evenParts extent count).map (List.map Dim.known)) := by
    cases hparts : evenParts extent count with
    | error e => exact Agrees.error_right _ e
    | ok parts => exact hopen _ (by simpa using (mapM_eq_ok_iff.mp hparts).length_eq.symm)
  unfold splitParts
  rw [h.intsOperand]
  cases c.intsOperand "split" 1 splitOperandVersion with
  | error e => exact forall₂_replicate Dim.describes_unknown count
  | ok sizes? =>
    cases sizes? with
    | some sizes =>
      dsimp only
      split_ifs
      · trivial
      · have hsizes := extentsOf_agrees σ "split" sizes
        exact hsizes.mono fun dims dims' hd => hd.imp fun _ _ => Dim.Instantiates.describes
    | none =>
      cases d with
      | known extent =>
        rw [Dim.describes_known.mp hd]
        exact (Agrees.self fun _ _ => rfl).map fun parts _ hparts => hparts ▸ hself parts
      | param name =>
        rw [Dim.describes_param.mp hd]
        exact heven _
      | unknown =>
        cases d' with
        | known extent => exact heven extent
        | param name => exact hopen _ (by simp)
        | unknown => exact hopen _ (by simp)

lemma split_sound : SoundRule split := by
  intro σ c c' h
  refine (h.shapeAt 0).bind fun s s' hs => ?_
  rw [h.int, h.node, hs.rank_eq]
  refine Agrees.bind_same fun axis _ => ?_
  split_ifs
  · exact .nil
  · have hdim := getD_describes (forall₂_getElem? hs.describes axis)
    refine (splitParts_agrees h hdim _).bind fun parts parts' hparts => ?_
    refine List.forall₂_map_left_iff.mpr (List.forall₂_map_right_iff.mpr ?_)
    exact hparts.imp fun d d' hd => h.withElem 0 (forall₂_set hs.describes hd axis)

lemma contraction_agrees {α α' : Type} {R : α → α' → Prop} {k k' l l' : Dim}
    (hk : k.Instantiates σ k') (hl : l.Instantiates σ l') {e e' : RuleError}
    {x : Except RuleError α} {x' : Except RuleError α'} (hx : RunsAgree R x x') :
    RunsAgree R (if (k.merge l).isNone then .error e else x)
      (if (k'.merge l').isNone then .error e' else x') := by
  obtain hnone | ⟨d, d', hd, hd', _⟩ := (hk.describes.merge hl).none_or_some
  · simp [hnone]
  · simpa [hd, hd'] using hx

lemma rows_instantiate {a a' : Shape} (ha : a.Instantiates σ a') :
    List.Forall₂ (Dim.Instantiates σ) (if a.rank = 1 then .known 1 :: a.dims else a.dims)
      (if a.rank = 1 then .known 1 :: a'.dims else a'.dims) := by
  split_ifs
  · exact .cons (Dim.instantiates_known.mpr rfl) ha
  · exact ha

lemma columns_instantiate {b b' : Shape} (hb : b.Instantiates σ b') :
    List.Forall₂ (Dim.Instantiates σ) (if b.rank = 1 then b.dims ++ [.known 1] else b.dims)
      (if b.rank = 1 then b'.dims ++ [.known 1] else b'.dims) := by
  split_ifs
  · exact List.rel_append hb (.cons (Dim.instantiates_known.mpr rfl) .nil)
  · exact hb

lemma productShape_agrees {a a' b b' : Shape} (ha : a.Instantiates σ a')
    (hb : b.Instantiates σ b') :
    RunsAgree (Shape.Describes σ) (productShape a b) (productShape a' b') := by
  have hrows := rows_instantiate ha
  have hcolumns := columns_instantiate hb
  unfold productShape
  rw [ha.rank_eq, hb.rank_eq]
  revert hrows hcolumns
  generalize (if a.rank = 1 then .known 1 :: a.dims else a.dims) = rows
  generalize (if a.rank = 1 then .known 1 :: a'.dims else a'.dims) = rows'
  generalize (if b.rank = 1 then b.dims ++ [.known 1] else b.dims) = columns
  generalize (if b.rank = 1 then b'.dims ++ [.known 1] else b'.dims) = columns'
  intro hrows hcolumns
  dsimp only
  rw [← hrows.length_eq, ← hcolumns.length_eq]
  have hbatch : ShapesAgree (Shape.Instantiates σ)
      ((Shape.mk (rows.take (rows.length - 2))).broadcast ⟨columns.take (columns.length - 2)⟩)
      ((Shape.mk (rows'.take (rows.length - 2))).broadcast ⟨columns'.take (columns.length - 2)⟩) :=
    Shape.Instantiates.broadcast (List.forall₂_take _ hrows) (List.forall₂_take _ hcolumns)
  have hleft := List.forall₂_drop (rows.length - 2) hrows
  have hright := List.forall₂_drop (columns.length - 2) hcolumns
  revert hleft hright
  generalize rows.drop (rows.length - 2) = left
  generalize rows'.drop (rows.length - 2) = left'
  generalize columns.drop (columns.length - 2) = right
  generalize columns'.drop (columns.length - 2) = right'
  rintro (_ | ⟨hm, _ | ⟨hk, _ | _⟩⟩)
  · exact fun _ => trivial
  · exact fun _ => trivial
  · rintro (_ | ⟨hl, _ | ⟨hn, _ | _⟩⟩)
    · trivial
    · trivial
    · refine contraction_agrees hk hl (hbatch.runs.map fun s s' hs => ?_)
      refine List.rel_append (List.rel_append hs.describes ?_) ?_
      · split_ifs
        · exact .nil
        · exact .cons hm.describes .nil
      · split_ifs
        · exact .nil
        · exact .cons hn.describes .nil
    · trivial
  · exact fun _ => trivial

lemma matmul_sound : SoundRule matmul := by
  intro σ c c' h
  refine (h.shapeAt 0).bind fun a a' ha => (h.shapeAt 1).bind fun b b' hb => ?_
  rw [h.elemAt?, h.elemAt?]
  refine (productShape_agrees ha hb).bind fun s s' hs => runsAgree_single ?_
  exact TensorType.describes_mk_some.mpr ⟨rfl, hs⟩

lemma matrixDims_instantiates (transposed : Bool) {s s' : Shape} (hs : s.Instantiates σ s') :
    Option.Rel (fun p p' => p.1.Instantiates σ p'.1 ∧ p.2.Instantiates σ p'.2)
      (matrixDims transposed s) (matrixDims transposed s') := by
  obtain ⟨dims⟩ := s
  obtain ⟨dims'⟩ := s'
  unfold matrixDims
  rcases hs with _ | ⟨hrows, _ | ⟨hcolumns, _ | _⟩⟩
  · exact .none
  · exact .none
  · cases transposed
    · exact .some ⟨hrows, hcolumns⟩
    · exact .some ⟨hcolumns, hrows⟩
  · exact .none

lemma gemm_sound : SoundRule gemm := by
  intro σ c c' h
  refine (h.shapeAt 0).bind fun a a' ha => (h.shapeAt 1).bind fun b b' hb => ?_
  rw [h.int, h.int]
  have hleft := matrixDims_instantiates (c.int "transA" 0 != 0) ha
  have hright := matrixDims_instantiates (c.int "transB" 0 != 0) hb
  revert hleft hright
  generalize matrixDims (c.int "transA" 0 != 0) a = left
  generalize matrixDims (c.int "transA" 0 != 0) a' = left'
  generalize matrixDims (c.int "transB" 0 != 0) b = right
  generalize matrixDims (c.int "transB" 0 != 0) b' = right'
  rintro (⟨hm, hk⟩ | _) (⟨hl, hn⟩ | _)
  · refine contraction_agrees hk hl (runsAgree_single (h.withElem 0 ?_))
    exact .cons hm.describes (.cons hn.describes .nil)
  · trivial
  · trivial
  · trivial

end TensorGraph.Rule
