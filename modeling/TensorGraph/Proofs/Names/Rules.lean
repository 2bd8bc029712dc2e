import TensorGraph.Proofs.Names.Types
import TensorGraph.Rule.Registry

/-!
# Rules invent no names

A name for an extent that is in the answer of a rule is in the type of an operand as well: a rule
copies extents, finds numbers for them or forgets them.
-/

namespace TensorGraph

variable {α : Type} {P : String → Prop}

/-! ### Operands -/

/-- Operands whose types have no names but some that have the property. -/
def Context.NamedBy (P : String → Prop) (c : Context) : Prop :=
  ∀ o, some o ∈ c.operands → o.type.NamedBy P

/-- Types with no names but some that have the property. -/
abbrev TypesNamedBy (P : String → Prop) (types : List TensorType) : Prop :=
  ∀ t ∈ types, t.NamedBy P

/-- A rule that invents no names. -/
def KeepsNames (infer : Context → Typing) : Prop :=
  ∀ P c, c.NamedBy P → Ensures (TypesNamedBy P) (infer c)

lemma ensures_single {t : TensorType} (ht : t.NamedBy P) :
    Ensures (TypesNamedBy P) (.ok [t] : Typing) :=
  Ensures.ok_iff.mpr (List.forall_mem_singleton.mpr ht)

namespace Context

variable {c : Context}

lemma NamedBy.operand? (hc : c.NamedBy P) {i : Nat} {o : Operand} (ho : c.operand? i = some o) :
    o.type.NamedBy P := by
  unfold Context.operand? at ho
  exact hc o (List.mem_of_getElem? (Option.join_eq_some_iff.mp ho))

lemma NamedBy.typeAt (hc : c.NamedBy P) (i : Nat) :
    Ensures (TensorType.NamedBy P) (c.typeAt i) := by
  unfold Context.typeAt
  cases ho : c.operand? i with
  | none => exact .error _
  | some o => exact Ensures.ok_iff.mpr (hc.operand? ho)

lemma NamedBy.shapeAt (hc : c.NamedBy P) (i : Nat) :
    Ensures (Shape.NamedBy P) (c.shapeAt i) := by
  unfold Context.shapeAt
  cases ho : c.operand? i with
  | none => exact .error _
  | some o =>
    dsimp only
    cases hs : o.type.shape? with
    | none => exact .error _
    | some s => exact Ensures.ok_iff.mpr (hc.operand? ho s hs)

lemma ensures_withElem {i : Nat} {dims : List Dim} (h : DimsNamedBy P dims) :
    Ensures (TypesNamedBy P) (.ok [c.withElem i ⟨dims⟩] : Typing) :=
  ensures_single (TensorType.namedBy_some h)

end Context

lemma ensures_extentOf (name : String) (v : Int) : Ensures (Dim.NamedBy P) (extentOf name v) := by
  unfold extentOf
  split_ifs
  · exact .error _
  · exact Ensures.ok_iff.mpr True.intro

lemma ensures_mapM_extentOf (P : String → Prop) (name : String) (vs : List Int) :
    Ensures (DimsNamedBy P) (vs.mapM (extentOf name)) :=
  Ensures.mapM fun v _ => ensures_extentOf name v

namespace Rule

open Context

/-! ### Elementwise operators and reductions -/

lemma sameType_keepsNames : KeepsNames sameType := fun _ _ hc =>
  (hc.typeAt 0).bind fun _ ht => ensures_single ht

lemma ensures_broadcastShape {c : Context} (hc : c.NamedBy P) (inputs : List Nat) :
    Ensures (Shape.NamedBy P) (broadcastShape c inputs) :=
  (Ensures.mapM fun i _ => hc.shapeAt i).bind fun _ hs => (Shape.ensures_broadcastAll hs).mapError

lemma broadcast_keepsNames : KeepsNames broadcast := by
  intro P c hc
  unfold broadcast
  dsimp only
  split_ifs
  · exact .error _
  · exact (ensures_broadcastShape hc _).bind fun _ hs => ensures_single (TensorType.namedBy_some hs)

lemma comparison_keepsNames : KeepsNames comparison := fun _ _ hc =>
  (ensures_broadcastShape hc _).bind fun _ hs => ensures_single (TensorType.namedBy_some hs)

lemma predicate_keepsNames : KeepsNames predicate := fun _ _ hc =>
  (hc.shapeAt 0).bind fun _ hs => ensures_single (TensorType.namedBy_some hs)

lemma select_keepsNames : KeepsNames select := fun _ _ hc =>
  (ensures_broadcastShape hc _).bind fun _ hs => ensures_single (TensorType.namedBy_some hs)

lemma cast_keepsNames : KeepsNames cast := by
  intro P c hc
  unfold cast
  split
  · exact .error _
  · split_ifs
    · exact .error _
    · split
      · exact .error _
      · exact (hc.typeAt 0).bind fun _ ht => ensures_single ht

lemma castLike_keepsNames : KeepsNames castLike := fun _ _ hc =>
  (hc.typeAt 0).bind fun _ ht => ensures_single ht

lemma dropout_keepsNames : KeepsNames dropout := fun _ _ hc =>
  (hc.typeAt 0).bind fun _ ht =>
    Ensures.ok_iff.mpr (List.forall_mem_cons.mpr ⟨ht, List.forall_mem_singleton.mpr ht⟩)

lemma quantize_keepsNames : KeepsNames quantize := by
  intro P c hc
  refine (hc.typeAt 0).bind fun t ht => ?_
  have hshape (elem? : Option ElemType) := ensures_single (t := ⟨elem?, t.shape?⟩) (P := P) ht
  dsimp only
  split
  · exact hshape _
  · split_ifs
    · exact hshape _
    · exact hshape _
    · split
      · exact hshape _
      · exact .error _

lemma dequantize_keepsNames : KeepsNames dequantize := fun _ _ hc =>
  (hc.typeAt 0).bind fun _ ht => ensures_single ht

lemma namedBy_reducedDims {dims : List Dim} (h : DimsNamedBy P dims) (axes : List Nat)
    (keep : Bool) : DimsNamedBy P (reducedDims dims axes keep) := by
  intro d hd
  obtain ⟨⟨d', i⟩, hmem, heq⟩ := List.mem_filterMap.mp hd
  dsimp only at heq
  split_ifs at heq
  · exact Option.some.inj heq ▸ True.intro
  · exact Option.some.inj heq ▸ h d' (List.fst_mem_of_mem_zipIdx hmem)

lemma reduce_keepsNames : KeepsNames reduce := by
  intro P c hc
  refine (hc.shapeAt 0).bind fun s hs => ?_
  dsimp only
  split
  · split_ifs
    · exact ensures_single (TensorType.namedBy_some (Shape.namedBy_ofRank _))
    · exact .error _
  · split
    · exact Ensures.after fun _ => ensures_withElem (namedBy_reducedDims hs _ _)
    · split_ifs
      · exact sameType_keepsNames P c hc
      · exact ensures_withElem (namedBy_reducedDims hs _ _)

lemma argReduce_keepsNames : KeepsNames argReduce := fun _ _ hc =>
  (hc.shapeAt 0).bind fun _ hs => Ensures.after fun _ =>
    ensures_single (TensorType.namedBy_some (namedBy_reducedDims hs _ _))

/-! ### Operators that rearrange extents -/

lemma ensures_reshapeDims {data? : Option Shape} (hdata : ∀ s, data? = some s → s.NamedBy P)
    (zeroCopies : Bool) (target : List Int) :
    Ensures (DimsNamedBy P) (reshapeDims zeroCopies data? target) := by
  refine (Ensures.mapM (R := Dim.NamedBy P) fun entry _ => ?_).bind fun dims hdims => ?_
  · unfold reshapeEntry
    dsimp only
    split_ifs
    · exact .error _
    · simp
    · split
      · simp
      · rename_i s
        split
        · rename_i d hd
          exact Ensures.ok_iff.mpr (DimsNamedBy.getElem? (hdata s rfl) hd)
        · exact .error _
    · exact ensures_extentOf _ _
  · unfold closeReshape
    split
    · exact Ensures.ok_iff.mpr hdims
    · split
      · split_ifs
        · exact .error _
        · exact Ensures.ok_iff.mpr (DimsNamedBy.set hdims (Dim.namedBy_known _) _)
      · exact Ensures.ok_iff.mpr hdims

lemma ensures_declaredShape (P : String → Prop) (rank : Nat) :
    Ensures (Shape.NamedBy P) (declaredShape rank) := fun s hs => by
  rw [declaredShape_eq_ok hs]
  exact Shape.namedBy_ofRank rank

lemma reshape_keepsNames : KeepsNames reshape := by
  intro P c hc
  refine (hc.typeAt 0).bind fun t ht => ?_
  split
  · exact (ensures_reshapeDims ht _ _).bind fun _ hdims => ensures_withElem hdims
  · split
    · exact (ensures_declaredShape P _).bind fun _ hs => ensures_withElem hs
    · exact .error _

lemma flatten_keepsNames : KeepsNames flatten := by
  intro P c hc
  refine (hc.shapeAt 0).bind fun s hs => ?_
  dsimp only
  generalize (if c.int "axis" 1 < 0 then c.int "axis" 1 + s.rank else c.int "axis" 1) = position
  split_ifs
  · exact .error _
  · exact ensures_withElem
      (.cons (Dim.namedBy_productDim _) (.cons (Dim.namedBy_productDim _) nofun))

lemma squeeze_keepsNames : KeepsNames squeeze := by
  intro P c hc
  refine (hc.shapeAt 0).bind fun s hs => Ensures.after fun positions => Ensures.after fun _ => ?_
  refine ensures_withElem fun d hd => ?_
  obtain ⟨⟨d', i⟩, hmem, heq⟩ := List.mem_filterMap.mp hd
  dsimp only at heq
  split_ifs at heq
  exact Option.some.inj heq ▸ hs d' (List.fst_mem_of_mem_zipIdx hmem)

lemma namedBy_insertOnes {dims : List Dim} (h : DimsNamedBy P dims) (positions : List Nat)
    (count i : Nat) : DimsNamedBy P (insertOnes positions count i dims) := by
  induction count generalizing i dims with
  | zero => exact nofun
  | succ count ih =>
    unfold insertOnes
    split_ifs
    · exact .cons (Dim.namedBy_known 1) (ih h _)
    · cases dims with
      | nil => exact .cons Dim.namedBy_unknown (ih h _)
      | cons d dims =>
        obtain ⟨hd, hrest⟩ := List.forall_mem_cons.mp h
        exact .cons hd (ih hrest _)

lemma unsqueeze_keepsNames : KeepsNames unsqueeze := by
  intro P c hc
  refine (hc.shapeAt 0).bind fun s hs => Ensures.after fun axes? => ?_
  cases axes? with
  | none => exact .error _
  | some axes =>
    refine Ensures.after fun positions => ?_
    dsimp only
    split_ifs
    · exact .error _
    · exact ensures_withElem (namedBy_insertOnes hs _ _ _)

lemma transpose_keepsNames : KeepsNames transpose := by
  intro P c hc
  refine (hc.shapeAt 0).bind fun s hs => Ensures.after fun positions => ?_
  refine ensures_withElem fun d hd => ?_
  obtain ⟨p, _, hp⟩ := List.mem_filterMap.mp hd
  exact DimsNamedBy.getElem? hs hp

/-! ### Joining, splitting and products -/

lemma namedBy_sumDim (a b : Dim) : (sumDim a b).NamedBy P := by
  unfold sumDim
  split
  · exact Dim.namedBy_wordDim _
  · simp

lemma ensures_joinNext {axis : Nat} {first next : Shape} {dims : List Dim}
    (hdims : DimsNamedBy P dims) (hnext : next.NamedBy P) :
    Ensures (DimsNamedBy P) (joinNext axis first dims next) := by
  unfold joinNext
  split_ifs
  · exact .error _
  · split
    · rename_i joined hjoined
      refine Ensures.ok_iff.mpr (forall_mem_of_mapM_eq_some hjoined ?_)
      rintro ⟨⟨x, y⟩, i⟩ hmem d hd
      obtain ⟨hx, hy⟩ := List.of_mem_zip (List.fst_mem_of_mem_zipIdx hmem)
      dsimp only at hd
      split_ifs at hd
      · exact Option.some.inj hd ▸ namedBy_sumDim x y
      · exact Dim.namedBy_merge (hdims x hx) (hnext y hy) hd
    · exact .error _

lemma concatInfer_keepsNames : KeepsNames concatInfer := by
  intro P c hc
  unfold concatInfer
  split
  · exact .error _
  · refine (Ensures.mapM fun p _ => hc.shapeAt p.1).bind fun shapes hshapes => ?_
    cases shapes with
    | nil => exact .error _
    | cons first rest =>
      obtain ⟨hfirst, hrest⟩ := List.forall_mem_cons.mp hshapes
      refine Ensures.after fun position => ?_
      refine (Ensures.foldlM (R := DimsNamedBy P) (fun dims hdims next hnext => ?_) hfirst).bind
        fun _ hdims => ensures_single (TensorType.namedBy_some hdims)
      exact ensures_joinNext hdims (hrest next hnext)

lemma ensures_splitParts (P : String → Prop) (c : Context) (d : Dim) (count : Nat) :
    Ensures (DimsNamedBy P) (splitParts c d count) := by
  unfold splitParts
  split
  · exact Ensures.ok_iff.mpr (.replicate Dim.namedBy_unknown _)
  · split_ifs
    · exact .error _
    · exact ensures_mapM_extentOf P _ _
  · split
    · exact (Ensures.trivial _).map fun parts _ => .map_known parts
    · exact Ensures.ok_iff.mpr (.replicate Dim.namedBy_unknown _)

lemma split_keepsNames : KeepsNames split := by
  intro P c hc
  refine (hc.shapeAt 0).bind fun s hs => Ensures.after fun axis => ?_
  split_ifs
  · exact Ensures.ok_iff.mpr nofun
  · refine (ensures_splitParts P c _ _).bind fun parts hparts => Ensures.ok_iff.mpr ?_
    exact List.forall_mem_map.mpr fun d hd =>
      TensorType.namedBy_some (DimsNamedBy.set hs (hparts d hd) axis)

lemma ensures_productShape {a b : Shape} (ha : a.NamedBy P) (hb : b.NamedBy P) :
    Ensures (Shape.NamedBy P) (productShape a b) := by
  have hrows : DimsNamedBy P (if a.rank = 1 then .known 1 :: a.dims else a.dims) := by
    split_ifs
    · exact .cons (Dim.namedBy_known 1) ha
    · exact ha
  have hcolumns : DimsNamedBy P (if b.rank = 1 then b.dims ++ [.known 1] else b.dims) := by
    split_ifs
    · exact DimsNamedBy.append hb (.cons (Dim.namedBy_known 1) nofun)
    · exact hb
  unfold productShape
  dsimp only
  generalize (if a.rank = 1 then .known 1 :: a.dims else a.dims) = rows at hrows
  generalize (if b.rank = 1 then b.dims ++ [.known 1] else b.dims) = columns at hcolumns
  split
  · rename_i m k l n hm hn
    have hmk : DimsNamedBy P [m, k] := hm ▸ hrows.drop _
    have hln : DimsNamedBy P [l, n] := hn ▸ hcolumns.drop _
    split
    · exact .error _
    · refine (Shape.ensures_broadcast (hrows.take _) (hcolumns.take _)).mapError.map fun s hs => ?_
      refine DimsNamedBy.append (DimsNamedBy.append hs ?_) ?_
      · split_ifs
        · exact nofun
        · exact .cons (hmk m (by simp)) nofun
      · split_ifs
        · exact nofun
        · exact .cons (hln n (by simp)) nofun
  · exact .error _

lemma matmul_keepsNames : KeepsNames matmul := fun _ _ hc =>
  (hc.shapeAt 0).bind fun _ ha => (hc.shapeAt 1).bind fun _ hb =>
    (ensures_productShape ha hb).bind fun _ hs => ensures_single (TensorType.namedBy_some hs)

lemma namedBy_matrixDims {transposed : Bool} {s : Shape} (hs : s.NamedBy P) {m k : Dim}
    (h : matrixDims transposed s = some (m, k)) : m.NamedBy P ∧ k.NamedBy P := by
  unfold matrixDims at h
  split at h
  · rename_i rows columns hdims
    have hrows : rows.NamedBy P := hs rows (by simp [hdims])
    have hcolumns : columns.NamedBy P := hs columns (by simp [hdims])
    split_ifs at h
    · obtain ⟨rfl, rfl⟩ := Prod.mk.inj (Option.some.inj h)
      exact ⟨hcolumns, hrows⟩
    · obtain ⟨rfl, rfl⟩ := Prod.mk.inj (Option.some.inj h)
      exact ⟨hrows, hcolumns⟩
  · cases h

lemma gemm_keepsNames : KeepsNames gemm := by
  intro P c hc
  refine (hc.shapeAt 0).bind fun a ha => (hc.shapeAt 1).bind fun b hb => ?_
  split
  · rename_i m k l n hm hn
    dsimp only
    split_ifs
    · exact .error _
    · exact ensures_withElem (.cons (namedBy_matrixDims ha hm).1
        (.cons (namedBy_matrixDims hb hn).2 nofun))
  · exact .error _

/-! ### Shapes as data -/

lemma shapeInfer_keepsNames : KeepsNames shapeInfer := fun _ _ _ =>
  Ensures.after fun _ => ensures_single (TensorType.namedBy_some (Shape.namedBy_ofExtents _))

lemma gatherInfer_keepsNames : KeepsNames gatherInfer := fun _ _ hc =>
  (hc.shapeAt 0).bind fun _ hdata => (hc.shapeAt 1).bind fun _ hindices =>
    Ensures.after fun axis => ensures_withElem
      (((hdata.take axis).append hindices).append (hdata.drop (axis + 1)))

lemma constant_keepsNames : KeepsNames constant.infer := by
  intro P c _
  unfold constant
  dsimp only
  split
  · exact ensures_single (TensorType.namedBy_some (Shape.namedBy_ofExtents _))
  · exact .error _

lemma constantOfShape_keepsNames : KeepsNames constantOfShape := by
  intro P c hc
  unfold constantOfShape
  dsimp only
  split
  · exact (ensures_mapM_extentOf P _ _).bind fun _ hdims =>
      ensures_single (TensorType.namedBy_some hdims)
  · refine Ensures.after fun s => ?_
    split
    · exact (ensures_declaredShape P _).bind fun _ hs => ensures_single (TensorType.namedBy_some hs)
    · exact .error _

lemma expand_keepsNames : KeepsNames expand := by
  intro P c hc
  refine (hc.shapeAt 0).bind fun s hs => ?_
  split
  · exact .error _
  · refine (ensures_mapM_extentOf P _ _).bind fun dims hdims => ?_
    exact (Shape.ensures_broadcast (b := ⟨dims⟩) hs hdims).mapError.bind fun _ hresult =>
      ensures_single (TensorType.namedBy_some hresult)

/-! ### Operators that change extents -/

lemma ensures_updateDims {change : α → Dim → Except RuleError Dim}
    (hchange : ∀ a d, d.NamedBy P → Ensures (Dim.NamedBy P) (change a d)) {rank : Nat}
    {changes : List (Nat × α)} {dims : List Dim} (hdims : DimsNamedBy P dims) :
    Ensures (DimsNamedBy P) (updateDims rank change changes dims) := by
  induction changes generalizing dims with
  | nil => exact Ensures.ok_iff.mpr hdims
  | cons first rest ih =>
    obtain ⟨axis, a⟩ := first
    cases hd : dims[axis]? with
    | none =>
      rw [updateDims, hd]
      exact .error _
    | some d =>
      rw [updateDims_cons hd]
      exact (hchange a d (hdims.getElem? hd)).bind fun d' hd' => ih (hdims.set hd' axis)

lemma ensures_paddedDim (delta : Int) {d : Dim} (hd : d.NamedBy P) :
    Ensures (Dim.NamedBy P) (paddedDim delta d) := by
  unfold paddedDim
  split
  · split_ifs
    · exact .error _
    · exact Ensures.ok_iff.mpr (Dim.namedBy_wordDim _)
  · split_ifs
    · exact Ensures.ok_iff.mpr hd
    · simp

lemma pad_keepsNames : KeepsNames pad := by
  intro P c hc
  refine (hc.shapeAt 0).bind fun s hs => ?_
  have hfinish (pads : List Int) : Ensures (TypesNamedBy P) (do
      let axes ← axesOrAll s.rank (c.intsAt? 3)
      let dims ← padDims s axes pads
      return [c.withElem 0 ⟨dims⟩]) := by
    refine Ensures.after fun axes => ?_
    have hdims : Ensures (DimsNamedBy P) (padDims s axes pads) := by
      unfold padDims
      split_ifs
      · exact .error _
      · exact ensures_updateDims (fun delta d hd => ensures_paddedDim delta hd) hs
    exact hdims.bind fun _ hdims => ensures_withElem hdims
  dsimp only
  split
  · exact ensures_withElem (Shape.namedBy_ofRank _)
  · exact hfinish _
  · split
    · exact hfinish _
    · exact .error _

lemma namedBy_scaledDim (scale : UInt32) {d : Dim} (hd : d.NamedBy P) :
    (scaledDim scale d).NamedBy P := by
  unfold scaledDim
  split
  · simp
  · split_ifs
    · exact hd
    · simp

lemma resize_keepsNames : KeepsNames resize := by
  intro P c hc
  refine (hc.shapeAt 0).bind fun s hs => Ensures.after fun axes => ?_
  split
  · split_ifs
    · exact .error _
    · exact (ensures_updateDims (fun v _ _ => ensures_extentOf _ v) hs).bind fun _ hdims =>
        ensures_withElem hdims
  · split_ifs
    · exact .error _
    · refine (ensures_updateDims (fun scale d hd => ?_) hs).bind fun _ hdims =>
        ensures_withElem hdims
      exact Ensures.ok_iff.mpr (namedBy_scaledDim scale hd)
  · exact ensures_withElem (Shape.namedBy_ofRank _)

lemma ensures_slicedDim (bounds : Int × Int × Int) (d : Dim) :
    Ensures (Dim.NamedBy P) (slicedDim bounds d) := by
  unfold slicedDim
  dsimp only
  split <;> simp

lemma ensures_sliceDims {rank : Nat} {bounds : List (Nat × Int × Int × Int)} {dims : List Dim}
    (hdims : DimsNamedBy P dims) : Ensures (DimsNamedBy P) (sliceDims rank bounds dims) := by
  induction bounds generalizing dims with
  | nil => exact Ensures.ok_iff.mpr hdims
  | cons first rest ih =>
    obtain ⟨axis, start, stop, step⟩ := first
    by_cases hstep : step = 0
    · rw [sliceDims, if_pos hstep]
      exact .error _
    · rw [sliceDims_cons hstep]
      exact (ensures_updateDims (fun b d _ => ensures_slicedDim b d) hdims).bind fun _ h => ih h

lemma slice_keepsNames : KeepsNames slice := by
  intro P c hc
  refine (hc.shapeAt 0).bind fun s hs => ?_
  split
  · exact ensures_withElem (Shape.namedBy_ofRank _)
  · refine Ensures.after fun axes => ?_
    dsimp only
    split_ifs
    · exact .error _
    · exact (ensures_sliceDims hs).bind fun _ hdims => ensures_withElem hdims

/-! ### Sliding windows -/

lemma ensures_imageOf {s : Shape} (hs : s.NamedBy P) :
    Ensures (fun image : Image => image.batch.NamedBy P ∧ image.channels.NamedBy P)
      (imageOf s) := by
  unfold imageOf
  split
  · rename_i batch channels d ds hdims
    exact Ensures.ok_iff.mpr ⟨hs batch (by simp [hdims]), hs channels (by simp [hdims])⟩
  · exact .error _

lemma ensures_imageAndWeights {c : Context} (hc : c.NamedBy P) :
    Ensures (fun p : Image × Shape => p.1.batch.NamedBy P ∧ p.2.NamedBy P)
      (imageAndWeights c) := by
  refine (hc.shapeAt 0).bind fun x hx => (ensures_imageOf hx).bind fun image himage => ?_
  refine (hc.shapeAt 1).bind fun w hw => ?_
  split_ifs
  · exact .error _
  · exact Ensures.ok_iff.mpr ⟨himage.1, hw⟩

lemma ensures_forwardAll (P : String → Prop) (w : Window) (ceiling : Bool)
    (spatial : List Dim) :
    Ensures (DimsNamedBy P) (forwardAll w ceiling spatial) := by
  refine Ensures.mapM fun p _ => ?_
  unfold AxisWindow.forward
  dsimp only
  split
  · split_ifs
    · exact .error _
    · exact Ensures.ok_iff.mpr (Dim.namedBy_wordDim _)
  · simp

lemma conv_keepsNames : KeepsNames conv := by
  intro P c hc
  refine (ensures_imageAndWeights hc).bind fun p hp => Ensures.after fun kernels =>
    Ensures.after fun window =>
      (ensures_forwardAll P window false _).bind fun spatial hspatial => ?_
  refine ensures_withElem (.cons hp.1 (.cons ?_ hspatial))
  cases hhead : p.2.dims.head? with
  | none => simp
  | some d => exact hp.2 d (List.mem_of_head? hhead)

lemma ensures_transposedDims (P : String → Prop) (c : Context) (image : Image) (weights : Shape) :
    Ensures (DimsNamedBy P) (transposedDims c image weights) := by
  unfold transposedDims
  dsimp only
  split
  · split_ifs
    · exact .error _
    · refine Ensures.mapM fun e _ => ?_
      split_ifs
      · exact .error _
      · simp
  · refine Ensures.after fun kernels => Ensures.after fun window => Ensures.mapM fun q _ => ?_
    unfold AxisWindow.backward
    split
    · refine Ensures.after fun size => ?_
      split_ifs
      · exact .error _
      · exact Ensures.ok_iff.mpr (Dim.namedBy_wordDim _)
    · simp

lemma convTranspose_keepsNames : KeepsNames convTranspose := by
  intro P c hc
  refine (ensures_imageAndWeights hc).bind fun p hp =>
    (ensures_transposedDims P c _ _).bind fun spatial hspatial => ?_
  refine ensures_withElem (.cons hp.1 (.cons ?_ hspatial))
  unfold transposedChannels
  split
  · exact Dim.namedBy_wordDim _
  · simp

lemma pool_keepsNames : KeepsNames pool := by
  intro P c hc
  refine (hc.shapeAt 0).bind fun x hx => (ensures_imageOf hx).bind fun image himage => ?_
  refine Ensures.after fun kernels? => ?_
  cases kernels? with
  | none => exact .error _
  | some kernels =>
    dsimp only
    by_cases hlength : kernels.length ≠ image.spatial.length
    · rw [if_pos hlength]
      exact .error _
    · rw [if_neg hlength]
      refine Ensures.after fun window =>
        (ensures_forwardAll P window _ _).bind fun spatial hspatial => ?_
      have hdims : DimsNamedBy P (image.batch :: image.channels :: spatial) :=
        .cons himage.1 (.cons himage.2 hspatial)
      split_ifs
      · exact Ensures.ok_iff.mpr (List.forall_mem_cons.mpr ⟨TensorType.namedBy_some hdims,
          List.forall_mem_singleton.mpr (TensorType.namedBy_some hdims)⟩)
      · exact ensures_withElem hdims

lemma globalPool_keepsNames : KeepsNames globalPool := by
  intro P c hc
  refine (hc.shapeAt 0).bind fun x hx => (ensures_imageOf hx).bind fun image himage => ?_
  refine ensures_withElem (.cons himage.1 (.cons himage.2 ?_))
  exact List.forall_mem_map.mpr fun _ _ => True.intro

end Rule

namespace Registry

open Rule

/-- No built-in rule invents a name. -/
lemma builtin_keepsNames : ∀ p ∈ builtin.rules, KeepsNames p.2.infer := by
  simp only [builtin, List.forall_mem_append, List.forall_mem_cons, forall_mem_sharing]
  simp [relayout, concat, gather, shapeOf, sameType_keepsNames, broadcast_keepsNames,
    comparison_keepsNames, predicate_keepsNames, select_keepsNames, cast_keepsNames,
    castLike_keepsNames, dropout_keepsNames, quantize_keepsNames, dequantize_keepsNames,
    reshape_keepsNames, flatten_keepsNames, squeeze_keepsNames, unsqueeze_keepsNames,
    transpose_keepsNames, concatInfer_keepsNames, gatherInfer_keepsNames, shapeInfer_keepsNames,
    constant_keepsNames, constantOfShape_keepsNames, expand_keepsNames, pad_keepsNames,
    resize_keepsNames, slice_keepsNames, split_keepsNames, reduce_keepsNames,
    argReduce_keepsNames, matmul_keepsNames, gemm_keepsNames, conv_keepsNames,
    convTranspose_keepsNames, pool_keepsNames, globalPool_keepsNames]

end Registry

end TensorGraph
