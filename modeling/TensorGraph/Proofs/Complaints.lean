import Mathlib.Tactic.Lemma
import Mathlib.Tactic.SplitIfs
import TensorGraph.Proofs.Results
import TensorGraph.Rule.Registry

/-!
# What rules complain about

A rule that gives no answer says why. If it says that an operand is missing, the operand is missing
indeed, and it is one of the first operands of the node; `operandsNeeded` says how many there are to
ask for. All rules but those of `abortingOps` do not give up: they compute with all integers, are
asked for no more extents than operands or attributes have, and take axes from the range of the rank
or resolve them against it.
-/

namespace TensorGraph

variable {α β : Type} {P Q : RuleError → Prop}

/-- If there is no result, it is for a reason with the property `P`. -/
def FailsOnly (P : RuleError → Prop) (x : Except RuleError α) : Prop := ∀ e, x = .error e → P e

namespace FailsOnly

@[simp] lemma ok (a : α) : FailsOnly P (.ok a) := nofun

@[simp] lemma pure (a : α) : FailsOnly P (pure a) := nofun

@[simp] lemma error_iff {e : RuleError} : FailsOnly P (.error e : Except RuleError α) ↔ P e := by
  simp [FailsOnly]

lemma mono {x : Except RuleError α} (hx : FailsOnly P x) (hPQ : ∀ e, P e → Q e) :
    FailsOnly Q x :=
  fun e he => hPQ e (hx e he)

lemma bind {x : Except RuleError α} {f : α → Except RuleError β} (hx : FailsOnly P x)
    (hf : ∀ a, x = .ok a → FailsOnly P (f a)) : FailsOnly P (x >>= f) := by
  cases x with
  | error e => exact error_iff.mpr (hx e rfl)
  | ok a => exact hf a rfl

lemma map {x : Except RuleError α} (hx : FailsOnly P x) (f : α → β) : FailsOnly P (x.map f) := by
  cases x with
  | error e => exact error_iff.mpr (hx e rfl)
  | ok a => exact ok (f a)

lemma mapM {f : α → Except RuleError β} {as : List α} (hf : ∀ a ∈ as, FailsOnly P (f a)) :
    FailsOnly P (as.mapM f) := by
  induction as with
  | nil => exact ok []
  | cons a as ih =>
    rw [List.mapM_cons]
    refine (hf a List.mem_cons_self).bind fun b _ => ?_
    exact (ih fun a' ha' => hf a' (List.mem_cons_of_mem a ha')).bind fun bs _ => ok (b :: bs)

lemma foldlM {f : β → α → Except RuleError β} {as : List α}
    (hf : ∀ b, ∀ a ∈ as, FailsOnly P (f b a)) (b : β) : FailsOnly P (as.foldlM f b) := by
  induction as generalizing b with
  | nil => exact ok b
  | cons a as ih =>
    rw [List.foldlM_cons]
    refine (hf b a List.mem_cons_self).bind fun b' _ => ?_
    exact ih (fun b a' ha' => hf b a' (List.mem_cons_of_mem a ha')) b'

lemma forM {f : α → Except RuleError Unit} {as : List α} (hf : ∀ a ∈ as, FailsOnly P (f a)) :
    FailsOnly P (as.forM f) := by
  induction as with
  | nil => exact ok ()
  | cons a as ih =>
    exact (hf a List.mem_cons_self).bind fun _ _ =>
      ih fun a' ha' => hf a' (List.mem_cons_of_mem a ha')

end FailsOnly

/-- An operand that is said to be missing is one of the first `needed`, and it is missing. -/
@[simp] def RuleError.MissingIn (c : Context) (needed : Nat) (e : RuleError) : Prop :=
  ∀ i, e = .missingInput i → i < needed ∧ c.operand? i = none

/-- The reason is right about missing operands, and it is not that a rule gave up. -/
@[simp] def RuleError.JustifiedIn (c : Context) (needed : Nat) (e : RuleError) : Prop :=
  e.MissingIn c needed ∧ ∀ a, e ≠ .abort a

/-- If there is no result, it is for a reason that the context bears out. -/
abbrev Justified (c : Context) (needed : Nat) (x : Except RuleError α) : Prop :=
  FailsOnly (RuleError.JustifiedIn c needed) x

variable {c : Context} {needed : Nat}

lemma Justified.missing {x : Except RuleError α} (h : Justified c needed x) :
    FailsOnly (RuleError.MissingIn c needed) x :=
  h.mono fun _ he => he.1

@[simp] lemma mapError_shape_justified (x : Except ShapeError α) :
    Justified c needed (x.mapError .shape) := by
  cases x <;> simp [Except.mapError]

namespace Context

lemma operand?_eq_some_iff {i : Nat} {o : Operand} :
    c.operand? i = some o ↔ c.operands[i]? = some (some o) := by
  unfold operand?
  rw [Option.join_eq_some_iff]

lemma operand?_of_mem_present {i : Nat} {o : Operand} (h : (i, o) ∈ c.present) :
    c.operand? i = some o := by
  obtain ⟨⟨o?, j⟩, hmem, heq⟩ := List.mem_filterMap.mp h
  obtain ⟨o', ho', hpair⟩ := Option.map_eq_some_iff.mp heq
  obtain ⟨rfl, rfl⟩ := Prod.mk.inj hpair
  rw [operand?_eq_some_iff, ← ho']
  exact List.mk_mem_zipIdx_iff_getElem?.mp hmem

lemma mem_present {i : Nat} {o : Operand} (h : c.operand? i = some o) : (i, o) ∈ c.present := by
  refine List.mem_filterMap.mpr ⟨(some o, i), ?_, rfl⟩
  exact List.mk_mem_zipIdx_iff_getElem?.mpr (operand?_eq_some_iff.mp h)

lemma operand?_of_present_eq_nil (h : c.present = []) (i : Nat) : c.operand? i = none := by
  refine Option.eq_none_iff_forall_ne_some.mpr fun o ho => ?_
  have hmem := mem_present ho
  rw [h] at hmem
  exact absurd hmem List.not_mem_nil

lemma typeAt_justified {i : Nat} (hi : i < needed) : Justified c needed (c.typeAt i) := by
  unfold typeAt
  split
  · simp
  · rename_i hnone
    simp [hi, hnone]

lemma shapeAt_justified {i : Nat} (hi : i < needed) : Justified c needed (c.shapeAt i) := by
  unfold shapeAt
  split
  · rename_i hnone
    simp [hi, hnone]
  · split <;> simp

lemma shapeAt_justified_of_mem_present {i : Nat} {o : Operand} (h : (i, o) ∈ c.present) :
    Justified c needed (c.shapeAt i) := by
  unfold shapeAt
  rw [operand?_of_mem_present h]
  dsimp only
  split <;> simp

@[simp] lemma intsOperand_justified (name : String) (input : Nat)
    (since : Int) : Justified c needed (c.intsOperand name input since) := by
  unfold intsOperand
  split_ifs
  · split <;> simp
  · simp
  · simp

end Context

@[simp] lemma axisIn_justified (rank : Nat) (axis : Int) : Justified c needed (axisIn rank axis) :=
  mapError_shape_justified _

@[simp] lemma extentOf_justified (name : String) (v : Int) :
    Justified c needed (extentOf name v) := by
  unfold extentOf
  split_ifs <;> simp

lemma axesIn_justified (rank : Nat) (axes : List Int) :
    Justified c needed (axes.mapM (axisIn rank)) :=
  FailsOnly.mapM fun axis _ => axisIn_justified rank axis

lemma extentsOf_justified (name : String) (vs : List Int) :
    Justified c needed (vs.mapM (extentOf name)) :=
  FailsOnly.mapM fun v _ => extentOf_justified name v

namespace Rule

open Context

/-! ### Elementwise operators and reductions -/

lemma sameType_justified : Justified c 1 (sameType c) :=
  (typeAt_justified Nat.one_pos).bind fun _ _ => .ok _

lemma broadcastShape_justified {inputs : List Nat}
    (h : ∀ i ∈ inputs, Justified c needed (c.shapeAt i)) :
    Justified c needed (broadcastShape c inputs) :=
  (FailsOnly.mapM h).bind fun _ _ => mapError_shape_justified _

lemma broadcast_justified : Justified c 1 (broadcast c) := by
  unfold broadcast
  dsimp only
  split_ifs with hempty
  · rw [List.isEmpty_iff, List.map_eq_nil_iff] at hempty
    simp [bind, Except.bind, operand?_of_present_eq_nil hempty]
  · have hpresent : ∀ i ∈ c.present.map Prod.fst, Justified c 1 (c.shapeAt i) :=
      List.forall_mem_map.mpr fun _ hp => shapeAt_justified_of_mem_present hp
    exact (broadcastShape_justified hpresent).bind fun _ _ => .ok _

lemma comparison_justified : Justified c 2 (comparison c) :=
  (broadcastShape_justified fun i hi => shapeAt_justified (by simp at hi; omega)).bind fun _ _ =>
    .ok _

lemma predicate_justified : Justified c 1 (predicate c) :=
  (shapeAt_justified Nat.one_pos).bind fun _ _ => .ok _

lemma select_justified : Justified c 3 (select c) :=
  (broadcastShape_justified fun i hi => shapeAt_justified (by simp at hi; omega)).bind fun _ _ =>
    .ok _

lemma cast_justified : Justified c 1 (cast c) := by
  unfold cast
  split
  · simp
  · split_ifs
    · simp
    · split
      · simp
      · exact (typeAt_justified Nat.one_pos).bind fun _ _ => .ok _

lemma castLike_justified : Justified c 1 (castLike c) :=
  (typeAt_justified Nat.one_pos).bind fun _ _ => .ok _

lemma dropout_justified : Justified c 1 (dropout c) :=
  (typeAt_justified Nat.one_pos).bind fun _ _ => .ok _

lemma quantize_justified : Justified c 1 (quantize c) := by
  refine (typeAt_justified Nat.one_pos).bind fun type _ => ?_
  dsimp only
  split
  · simp
  · split_ifs
    · simp
    · simp
    · split <;> simp

lemma dequantize_justified : Justified c 1 (dequantize c) :=
  (typeAt_justified Nat.one_pos).bind fun _ _ => .ok _

lemma reduce_justified : Justified c 1 (reduce c) := by
  refine (shapeAt_justified Nat.one_pos).bind fun s _ => ?_
  have hoperand : Justified c 1 (c.intsOperand "axes" 1 (reduceOperandVersion c.node.op)) :=
    intsOperand_justified _ _ _
  dsimp only
  cases haxes : c.intsOperand "axes" 1 (reduceOperandVersion c.node.op) with
  | error e =>
    rw [haxes] at hoperand
    dsimp only
    split_ifs
    · simp
    · exact FailsOnly.error_iff.mpr (hoperand e rfl)
  | ok axes? =>
    dsimp only
    split
    · exact (axesIn_justified _ _).bind fun _ _ => .ok _
    · split_ifs
      · exact sameType_justified
      · simp

lemma argReduce_justified : Justified c 1 (argReduce c) :=
  (shapeAt_justified Nat.one_pos).bind fun _ _ => (axisIn_justified _ _).bind fun _ _ => .ok _

/-! ### Operators that rearrange extents -/

lemma reshapeDims_justified (zeroCopies : Bool) (data? : Option Shape) (target : List Int) :
    Justified c needed (reshapeDims zeroCopies data? target) := by
  refine (FailsOnly.mapM fun entry _ => ?_).bind fun dims _ => ?_
  · unfold reshapeEntry
    dsimp only
    split_ifs
    · simp
    · simp
    · split
      · simp
      · split <;> simp
    · exact extentOf_justified _ _
  · unfold closeReshape
    split
    · simp
    · split
      · split_ifs <;> simp
      · simp

lemma declaredShape_missing (rank : Nat) :
    FailsOnly (RuleError.MissingIn c needed) (declaredShape rank) := by
  unfold declaredShape
  split_ifs <;> simp

lemma reshape_missing : FailsOnly (RuleError.MissingIn c 1) (reshape c) := by
  refine (typeAt_justified Nat.one_pos).missing.bind fun data _ => ?_
  split
  · exact (reshapeDims_justified _ _ _).missing.bind fun _ _ => .ok _
  · split
    · exact (declaredShape_missing _).bind fun _ _ => .ok _
    · simp

lemma flatten_justified : Justified c 1 (flatten c) := by
  refine (shapeAt_justified Nat.one_pos).bind fun s _ => ?_
  dsimp only
  split_ifs <;> simp [bind, Except.bind]

lemma squeeze_justified : Justified c 1 (squeeze c) := by
  refine (shapeAt_justified Nat.one_pos).bind fun s _ => ?_
  have haxes : Justified c 1 (squeezeAxes c s) := by
    refine (intsOperand_justified _ _ _).bind fun axes? _ => ?_
    cases axes? with
    | some axes => exact axesIn_justified _ _
    | none =>
      dsimp only
      split_ifs <;> simp
  refine haxes.bind fun positions _ => (FailsOnly.forM fun i _ => ?_).bind fun _ _ => .ok _
  unfold checkDroppable
  split
  · split_ifs <;> simp
  · simp

lemma unsqueeze_justified : Justified c 1 (unsqueeze c) := by
  refine (shapeAt_justified Nat.one_pos).bind fun s _ => ?_
  refine (intsOperand_justified _ _ _).bind fun axes? _ => ?_
  cases axes? with
  | none => simp
  | some axes =>
    refine (axesIn_justified _ _).bind fun positions _ => ?_
    dsimp only
    split_ifs
    · simp [bind, Except.bind]
    · simp

lemma transpose_justified : Justified c 1 (transpose c) := by
  refine (shapeAt_justified Nat.one_pos).bind fun s _ => ?_
  have hpositions : Justified c 1 (permutation c s.rank) := by
    unfold permutation
    split
    · simp
    · refine (axesIn_justified _ _).bind fun positions _ => ?_
      dsimp only
      split_ifs <;> simp [bind, Except.bind]
  exact hpositions.bind fun _ _ => .ok _

/-! ### Joining, splitting and products -/

lemma concatInfer_justified : Justified c 1 (concatInfer c) := by
  unfold concatInfer
  split
  · simp
  · refine (FailsOnly.mapM fun _ hp => shapeAt_justified_of_mem_present hp).bind fun shapes h => ?_
    split
    · have hempty : c.present = [] := List.length_eq_zero_iff.mp (mapM_eq_ok_iff.mp h).length_eq
      simp [operand?_of_present_eq_nil hempty]
    · refine (axisIn_justified _ _).bind fun position _ => ?_
      refine (FailsOnly.foldlM (fun dims next _ => ?_) _).bind fun _ _ => .ok _
      unfold joinNext
      split_ifs
      · simp
      · split <;> simp

lemma evenParts_missing (extent count : Nat) :
    FailsOnly (RuleError.MissingIn c needed) (evenParts extent count) := by
  refine FailsOnly.mapM fun i _ => FailsOnly.bind ?_ fun _ _ => .ok _
  unfold wordProduct
  split_ifs <;> simp

lemma split_missing : FailsOnly (RuleError.MissingIn c 1) (split c) := by
  refine (shapeAt_justified Nat.one_pos).missing.bind fun s _ => ?_
  refine (axisIn_justified _ _).missing.bind fun axis _ => ?_
  have hparts (d : Dim) (parts : Nat) :
      FailsOnly (RuleError.MissingIn c 1) (splitParts c d parts) := by
    unfold splitParts
    split
    · simp
    · split_ifs
      · simp
      · exact (extentsOf_justified _ _).missing
    · split
      · exact (evenParts_missing _ _).map _
      · simp
  split_ifs
  · simp
  · exact (hparts _ _).bind fun _ _ => .ok _

lemma matmul_justified : Justified c 2 (matmul c) := by
  refine (shapeAt_justified Nat.two_pos).bind fun a _ => ?_
  refine (shapeAt_justified Nat.one_lt_two).bind fun b _ => ?_
  have hproduct : Justified c 2 (productShape a b) := by
    unfold productShape
    dsimp only
    generalize (if a.rank = 1 then .known 1 :: a.dims else a.dims) = rows
    generalize (if b.rank = 1 then b.dims ++ [.known 1] else b.dims) = columns
    split
    · split
      · simp [contractionError]
      · exact (mapError_shape_justified _).map _
    · simp [contractionError]
  exact hproduct.bind fun _ _ => .ok _

lemma gemm_justified : Justified c 2 (gemm c) := by
  refine (shapeAt_justified Nat.two_pos).bind fun a _ => ?_
  refine (shapeAt_justified Nat.one_lt_two).bind fun b _ => ?_
  split
  · dsimp only
    split_ifs
    · simp [contractionError, bind, Except.bind]
    · simp
  · simp [contractionError]

/-! ### Shapes as data -/

lemma shapeInfer_justified : Justified c 1 (shapeInfer c) :=
  (shapeAt_justified Nat.one_pos).bind fun _ _ => .ok _

lemma gatherInfer_justified : Justified c 2 (gatherInfer c) :=
  (shapeAt_justified Nat.two_pos).bind fun _ _ => (shapeAt_justified Nat.one_lt_two).bind fun _ _ =>
    (axisIn_justified _ _).bind fun _ _ => .ok _

lemma constant_justified : Justified c 0 (constant.infer c) := by
  unfold constant
  dsimp only
  split <;> simp

lemma constantOfShape_missing : FailsOnly (RuleError.MissingIn c 1) (constantOfShape c) := by
  unfold constantOfShape
  dsimp only
  split
  · exact (extentsOf_justified _ _).missing.bind fun _ _ => .ok _
  · refine (shapeAt_justified Nat.one_pos).missing.bind fun s _ => ?_
    split
    · exact (declaredShape_missing _).bind fun _ _ => .ok _
    · simp

lemma expand_justified : Justified c 1 (expand c) := by
  refine (shapeAt_justified Nat.one_pos).bind fun s _ => ?_
  split
  · simp
  · refine (extentsOf_justified _ _).bind fun dims _ => ?_
    exact (mapError_shape_justified _).bind fun _ _ => .ok _

/-! ### Operators that change extents -/

lemma axisIn_lt {rank position : Nat} {axis : Int} (h : axisIn rank axis = .ok position) :
    position < rank := by
  unfold axisIn resolveAxis at h
  rw [mapError_eq_ok_iff] at h
  dsimp only at h
  split_ifs at h with _ hposition hposition
  all_goals
    have hvalue := Except.ok.inj h
    omega

lemma axesOrAll_justified (rank : Nat) (axes? : Option (List Int)) :
    Justified c needed (axesOrAll rank axes?) := by
  unfold axesOrAll
  split
  · simp
  · exact axesIn_justified _ _

lemma lt_of_mem_axesOrAll {rank : Nat} {axes? : Option (List Int)} {axes : List Nat}
    (h : axesOrAll rank axes? = .ok axes) : ∀ axis ∈ axes, axis < rank := by
  cases axes? with
  | none =>
    obtain rfl := Except.ok.inj h
    exact fun axis haxis => List.mem_range.mp haxis
  | some given =>
    intro axis haxis
    obtain ⟨i, hlt, hi⟩ := List.mem_iff_getElem.mp haxis
    have hrel := mapM_eq_ok_iff.mp h
    have hget := hrel.get (i := i) (hrel.length_eq ▸ hlt) hlt
    rw [List.get_eq_getElem, List.get_eq_getElem, hi] at hget
    exact axisIn_lt hget

lemma updateDims_justified {change : α → Dim → Except RuleError Dim}
    (hchange : ∀ a d, Justified c needed (change a d)) {rank : Nat} {changes : List (Nat × α)}
    {dims : List Dim} (hchanges : ∀ p ∈ changes, p.1 < dims.length) :
    Justified c needed (updateDims rank change changes dims) := by
  induction changes generalizing dims with
  | nil => exact .ok dims
  | cons first rest ih =>
    obtain ⟨axis, a⟩ := first
    rw [List.forall_mem_cons] at hchanges
    rw [updateDims_cons (List.getElem?_eq_getElem hchanges.1)]
    refine (hchange a _).bind fun d _ => ih ?_
    simpa using hchanges.2

lemma lt_of_mem_zip {axes : List Nat} {as : List α} {rank : Nat}
    (h : ∀ axis ∈ axes, axis < rank) : ∀ p ∈ List.zip axes as, p.1 < rank :=
  fun _ hp => h _ (List.of_mem_zip hp).1

lemma padDims_justified {s : Shape} {axes : List Nat} (pads : List Int)
    (h : ∀ axis ∈ axes, axis < s.rank) : Justified c needed (padDims s axes pads) := by
  unfold padDims
  split_ifs
  · simp
  · refine updateDims_justified (fun delta d => ?_) (lt_of_mem_zip h)
    unfold paddedDim
    split
    · split_ifs <;> simp
    · simp

lemma pad_justified : Justified c 1 (pad c) := by
  refine (shapeAt_justified Nat.one_pos).bind fun s _ => ?_
  have hfinish (pads : List Int) : Justified c 1 (do
      let axes ← axesOrAll s.rank (c.intsAt? 3)
      let dims ← padDims s axes pads
      return [c.withElem 0 ⟨dims⟩]) := by
    refine (axesOrAll_justified _ _).bind fun axes haxes => ?_
    exact (padDims_justified pads (lt_of_mem_axesOrAll haxes)).bind fun _ _ => .ok _
  dsimp only
  split
  · simp
  · exact hfinish _
  · split
    · exact hfinish _
    · simp

lemma resize_justified : Justified c 1 (resize c) := by
  refine (shapeAt_justified Nat.one_pos).bind fun s _ => ?_
  refine (axesOrAll_justified _ _).bind fun axes haxes => ?_
  have hupdate {α : Type} (change : α → Dim → Except RuleError Dim) (as : List α)
      (hchange : ∀ a d, Justified c 1 (change a d)) :
      Justified c 1 (updateDims s.rank change (List.zip axes as) s.dims) :=
    updateDims_justified hchange (lt_of_mem_zip (lt_of_mem_axesOrAll haxes))
  split
  · split_ifs
    · simp [bind, Except.bind]
    · exact (hupdate _ _ fun v _ => extentOf_justified _ v).bind fun _ _ => .ok _
  · split_ifs
    · simp [bind, Except.bind]
    · exact (hupdate _ _ fun _ _ => .ok _).bind fun _ _ => .ok _
  · simp

lemma sliceDims_missing {rank : Nat} (bounds : List (Nat × Int × Int × Int)) (dims : List Dim) :
    FailsOnly (RuleError.MissingIn c needed) (sliceDims rank bounds dims) := by
  induction bounds generalizing dims with
  | nil => exact .ok dims
  | cons p bounds ih =>
    obtain ⟨axis, start, stop, step⟩ := p
    by_cases hstep : step = 0
    · rw [sliceDims, if_pos hstep]
      simp
    · rw [sliceDims_cons hstep]
      refine FailsOnly.bind ?_ fun dims _ => ih dims
      unfold updateDims
      split
      · simp
      · rename_i d _
        cases d <;> simp [slicedDim, updateDims]

lemma slice_missing : FailsOnly (RuleError.MissingIn c 1) (slice c) := by
  refine (shapeAt_justified Nat.one_pos).missing.bind fun shape _ => ?_
  split
  · simp
  · rename_i b _
    have haxes : Justified c 1 (b.axes shape.rank) := by
      unfold SliceBounds.axes
      split
      · exact axesIn_justified _ _
      · simp
    refine haxes.missing.bind fun axes _ => ?_
    dsimp only
    split_ifs
    · simp [bind, Except.bind]
    · exact (sliceDims_missing _ _).bind fun _ _ => .ok _

/-! ### Sliding windows -/

lemma imageOf_justified (s : Shape) : Justified c needed (imageOf s) := by
  unfold imageOf
  split <;> simp

lemma imageAndWeights_justified : Justified c 2 (imageAndWeights c) := by
  refine (shapeAt_justified Nat.two_pos).bind fun x _ => ?_
  refine (imageOf_justified x).bind fun image _ => ?_
  refine (shapeAt_justified Nat.one_lt_two).bind fun w _ => ?_
  split_ifs
  · simp [bind, Except.bind]
  · simp

lemma perAxis_justified (n : Node) (name : String) (count : Nat) :
    Justified c needed (perAxis n name count) := by
  unfold perAxis
  split
  · simp
  · split_ifs <;> simp

lemma ofNode_justified (n : Node) (kernels : List Nat) :
    Justified c needed (Window.ofNode n kernels) := by
  refine (perAxis_justified _ _ _).bind fun strides _ => ?_
  refine (perAxis_justified _ _ _).bind fun dilations _ => ?_
  have hpads : Justified c needed (windowPads n kernels.length) := by
    unfold windowPads
    split
    · simp
    · split_ifs <;> simp
  have hautoPad : Justified c needed (autoPadOf n) := by
    unfold autoPadOf
    split <;> simp
  exact hpads.bind fun _ _ => hautoPad.bind fun _ _ => .ok _

lemma kernelSetting_justified (n : Node) : Justified c needed (kernelSetting n) := by
  unfold kernelSetting
  split
  · simp
  · split_ifs <;> simp

lemma kernelsOf_justified (n : Node) (weights : Shape) (spatial : Nat) :
    Justified c needed (kernelsOf n weights spatial) := by
  refine (kernelSetting_justified n).bind fun kernels? _ => ?_
  have hcount (kernels : List Nat) : Justified c needed (do
      if kernels.length ≠ spatial then
        .error (.invalid "kernel_shape" (.axesForSpatial kernels.length spatial))
      return kernels) := by
    split_ifs <;> simp [bind, Except.bind]
  cases kernels? with
  | some kernels => exact hcount kernels
  | none =>
    dsimp only
    split
    · exact hcount _
    · simp [bind, Except.bind]

lemma forwardAll_justified (w : Window) (ceiling : Bool) (spatial : List Dim) :
    Justified c needed (forwardAll w ceiling spatial) := by
  refine FailsOnly.mapM fun p _ => ?_
  unfold AxisWindow.forward
  dsimp only
  split
  · split_ifs <;> simp
  · simp

lemma conv_justified : Justified c 2 (conv c) := by
  refine (imageAndWeights_justified).bind fun p _ => ?_
  refine (kernelsOf_justified _ _ _).bind fun kernels _ => ?_
  refine (ofNode_justified _ _).bind fun window _ => ?_
  exact (forwardAll_justified _ _ _).bind fun _ _ => .ok _

lemma backward_missing (w : AxisWindow) (autoPad : AutoPad) (extra : Int) (axis : Nat) (d : Dim) :
    FailsOnly (RuleError.MissingIn c needed) (w.backward autoPad extra axis d) := by
  have hheld (operation : Operation) (v : Int) :
      FailsOnly (RuleError.MissingIn c needed) (held operation v) := by
    unfold held
    split_ifs <;> simp
  unfold AxisWindow.backward
  split
  · refine FailsOnly.bind ?_ fun extent _ => ?_
    · unfold AxisWindow.spread
      split
      · simp
      · exact (hheld _ _).bind fun _ _ => hheld _ _
    · split_ifs <;> simp
  · simp

lemma convTranspose_missing : FailsOnly (RuleError.MissingIn c 2) (convTranspose c) := by
  refine imageAndWeights_justified.missing.bind fun p _ => ?_
  have hdims : FailsOnly (RuleError.MissingIn c 2) (transposedDims c p.1 p.2) := by
    unfold transposedDims
    dsimp only
    split
    · split_ifs
      · simp [bind, Except.bind]
      · refine FailsOnly.mapM fun e _ => ?_
        split_ifs <;> simp
    · refine (kernelsOf_justified _ _ _).missing.bind fun kernels _ => ?_
      refine (ofNode_justified _ _).missing.bind fun window _ => FailsOnly.mapM fun q _ => ?_
      exact backward_missing _ _ _ _ _
  exact hdims.bind fun _ _ => .ok _

lemma pool_justified : Justified c 1 (pool c) := by
  refine (shapeAt_justified Nat.one_pos).bind fun x _ => ?_
  refine (imageOf_justified x).bind fun image _ => ?_
  refine (kernelSetting_justified _).bind fun kernels? _ => ?_
  cases kernels? with
  | none => simp
  | some kernels =>
    dsimp only
    by_cases hlength : kernels.length ≠ image.spatial.length
    · simp [hlength, bind, Except.bind]
    · rw [if_neg hlength]
      refine (ofNode_justified _ _).bind fun window _ => ?_
      refine (forwardAll_justified _ _ _).bind fun spatial _ => ?_
      split_ifs <;> simp

lemma globalPool_justified : Justified c 1 (globalPool c) :=
  (shapeAt_justified Nat.one_pos).bind fun x _ => (imageOf_justified x).bind fun _ _ => .ok _

end Rule

namespace Registry

open Rule

/-- How many operands, from the first one on, the built-in rule for an operator asks for. -/
def operandsNeeded (op : String) : Nat :=
  if op = "Constant" then 0
  else if op = "Where" then 3
  else if op ∈ ["Equal", "Greater", "GreaterOrEqual", "Less", "LessOrEqual", "Gather", "MatMul",
    "Gemm", "Conv", "ConvTranspose"] then 2
  else 1

/-- The operators whose built-in rules may give up. -/
def abortingOps : List String := ["Reshape", "ConstantOfShape", "Slice", "Split", "ConvTranspose"]

lemma builtin_justified : ∀ p ∈ builtin.rules, p.1 ∉ abortingOps →
    ∀ c, Justified c (operandsNeeded p.1) (p.2.infer c) := by
  simp only [builtin, List.forall_mem_append, List.forall_mem_cons, forall_mem_sharing]
  -- What is left is a goal for each operator; its name decides how many operands it needs.
  simp [operandsNeeded, abortingOps, sameTypeOps, broadcastOps, reduceOps, relayout, concat, gather,
    shapeOf, sameType_justified, broadcast_justified, comparison_justified, predicate_justified,
    select_justified, cast_justified, castLike_justified, dropout_justified, quantize_justified,
    dequantize_justified, flatten_justified, squeeze_justified, unsqueeze_justified,
    transpose_justified, concatInfer_justified, gatherInfer_justified, shapeInfer_justified,
    constant_justified, expand_justified, pad_justified, resize_justified, reduce_justified,
    argReduce_justified, matmul_justified, gemm_justified, conv_justified, pool_justified,
    globalPool_justified]

/-- A built-in rule that says that an operand is missing is right about it, and the operand is one
of those that the operator needs. -/
lemma missing_of_builtin {op : String} {rule : Rule} (hrule : builtin.rule? op = some rule)
    (c : Context) : FailsOnly (RuleError.MissingIn c (operandsNeeded op)) (rule.infer c) := by
  by_cases hop : op ∈ abortingOps
  · simp only [abortingOps, List.mem_cons, List.not_mem_nil, or_false] at hop
    rcases hop with rfl | rfl | rfl | rfl | rfl <;> obtain rfl := Option.some.inj hrule
    · exact reshape_missing
    · exact constantOfShape_missing
    · exact slice_missing
    · exact split_missing
    · exact convTranspose_missing
  · exact (builtin_justified _ (mem_of_rule? hrule) hop c).missing

end Registry

end TensorGraph
