import TensorGraph.Proofs.Operators.TransposedWindows
import TensorGraph.Proofs.SliceOverrun

/-!
# Where rules give up

Five rules may give up: a slice that runs over, an operand that is declared to list more extents
than a shape can have, equal parts so many that one begins behind all machine words, and transposed
windows that cover more than 128 bits hold. This module says exactly when they do.
-/

namespace TensorGraph

variable {c : Context} {a : Abort}

namespace Rule

/-! ### Declared ranks -/

lemma declaredShape_eq_abort_iff {rank : Nat} :
    declaredShape rank = .error (.abort a) ↔ greatestRank < rank ∧ a = .tooLong rank := by
  unfold declaredShape
  split_ifs with hrank
  · exact iff_of_false nofun fun h => Nat.not_le.mpr h.1 hrank
  · rw [and_iff_right (Nat.not_le.mp hrank)]
    simp [eq_comm]

/-- The target of a reshape is not constant, but it is declared to have so many entries. -/
structure ReshapesTo (c : Context) (rank : Nat) : Prop where
  data : c.has 0 = true
  target : reshapeTarget? c = none
  declared : ((c.operand? 1).bind fun o => o.type.shape?) = some ⟨[.known rank]⟩

lemma reshape_eq_abort_iff :
    reshape c = .error (.abort a) ↔
      ∃ rank, ReshapesTo c rank ∧ greatestRank < rank ∧ a = .tooLong rank := by
  unfold reshape
  rw [(c.typeAt_neverAborts 0).bind_eq_abort_iff]
  constructor
  · rintro ⟨data, hdata, hrun⟩
    split at hrun
    · rename_i target htarget
      have hdims : Justified c 0 (reshapeDims (c.int "allowzero" 0 == 0) data.shape? target) :=
        reshapeDims_justified _ _ _
      exact absurd hrun (hdims.neverAborts.bind (fun dims _ => .ok _) a)
    · rename_i htarget
      split at hrun
      · rename_i rank hrank
        obtain ⟨⟨dims⟩, hshape, rfl⟩ := Option.map_eq_some_iff.mp hrank
        rw [bind_pure_eq_error_iff, declaredShape_eq_abort_iff] at hrun
        exact ⟨rank, ⟨Context.has_of_typeAt_eq_ok hdata, htarget, hshape⟩, hrun⟩
      · cases hrun
  · rintro ⟨rank, h, hlong⟩
    obtain ⟨o, ho⟩ := Option.isSome_iff_exists.mp h.data
    refine ⟨o.type, by rw [Context.typeAt, ho], ?_⟩
    rw [h.target]
    dsimp only
    rw [h.declared]
    exact bind_pure_eq_error_iff.mpr (declaredShape_eq_abort_iff.mpr hlong)

/-- The extents of a constant are not known, but they are declared to be so many. -/
structure FillsRank (c : Context) (rank : Nat) : Prop where
  extents : c.intsAt? 0 = none
  declared : ∃ dims, c.shapeAt 0 = .ok ⟨.known rank :: dims⟩

lemma constantOfShape_eq_abort_iff :
    constantOfShape c = .error (.abort a) ↔
      ∃ rank, FillsRank c rank ∧ greatestRank < rank ∧ a = .tooLong rank := by
  unfold constantOfShape
  dsimp only
  cases hextents : c.intsAt? 0 with
  | some extents =>
    have hdims : Justified c 0 (extents.mapM (extentOf "input")) := extentsOf_justified _ _
    refine iff_of_false (hdims.neverAborts.bind (fun dims _ => .ok _) a) ?_
    rintro ⟨rank, h, -⟩
    simpa [hextents] using h.extents
  | none =>
    dsimp only
    rw [(c.shapeAt_neverAborts 0).bind_eq_abort_iff]
    constructor
    · rintro ⟨shape, hshape, hrun⟩
      split at hrun
      · rename_i rank hrank
        obtain ⟨dims, hdims⟩ := List.head?_eq_some_iff.mp hrank
        rw [bind_pure_eq_error_iff, declaredShape_eq_abort_iff] at hrun
        exact ⟨rank, ⟨hextents, dims, by rw [hshape, ← hdims]⟩, hrun⟩
      · cases hrun
    · rintro ⟨rank, h, hlong⟩
      obtain ⟨dims, hshape⟩ := h.declared
      exact ⟨_, hshape, bind_pure_eq_error_iff.mpr (declaredShape_eq_abort_iff.mpr hlong)⟩

/-! ### Equal parts -/

/-- How large equal parts are, up to the last ones, which may be smaller. -/
def chunkOf (extent count : Nat) : Nat := (extent + count - 1) / count

lemma evenParts_eq_ok_iff {extent count : Nat} {parts : List Nat} :
    evenParts extent count = .ok parts ↔
      (∀ i < count, i * chunkOf extent count < wordLimit) ∧
        parts = (List.range count).map fun i =>
          min (chunkOf extent count) (extent - i * chunkOf extent count) := by
  have hpart (i n : Nat) : (do
      let start ← wordProduct i (chunkOf extent count)
      return min (chunkOf extent count) (extent - start)) = Except.ok n ↔
        i * chunkOf extent count < wordLimit ∧
          n = min (chunkOf extent count) (extent - i * chunkOf extent count) := by
    unfold wordProduct
    split_ifs with hword
    · rw [and_iff_right hword]
      exact ⟨fun h => (Except.ok.inj h).symm, fun h => h ▸ rfl⟩
    · exact iff_of_false nofun fun h => hword h.1
  unfold evenParts
  rw [mapM_eq_ok_iff]
  change List.Forall₂ (fun i n => (do
    let start ← wordProduct i (chunkOf extent count)
    return min (chunkOf extent count) (extent - start)) = Except.ok n) _ _ ↔ _
  simp only [hpart, forall₂_and_eq_iff, List.mem_range]

lemma evenParts_eq_abort_iff {extent count : Nat} :
    evenParts extent count = .error (.abort a) ↔
      wordLimit ≤ (count - 1) * chunkOf extent count ∧ a = .overflow .multiplication := by
  have hfails : FailsOnly (· = .abort (.overflow .multiplication)) (evenParts extent count) := by
    refine FailsOnly.mapM fun i _ => FailsOnly.bind ?_ fun _ _ => .ok _
    unfold wordProduct
    split_ifs <;> simp
  have hlast (hplaces : wordLimit ≤ (count - 1) * chunkOf extent count) : count - 1 < count := by
    rcases Nat.eq_zero_or_pos count with rfl | hcount
    · exact absurd (Nat.le_trans hplaces (Nat.zero_mul _).le) (by decide)
    · omega
  cases hparts : evenParts extent count with
  | ok parts =>
    obtain ⟨hplaces, -⟩ := evenParts_eq_ok_iff.mp hparts
    refine iff_of_false nofun fun h => ?_
    exact Nat.not_le.mpr (hplaces _ (hlast h.1)) h.1
  | error e =>
    obtain rfl := hfails e hparts
    have hplaces : wordLimit ≤ (count - 1) * chunkOf extent count := by
      by_contra hword
      have hall : ∀ i < count, i * chunkOf extent count < wordLimit := fun i hi =>
        Nat.lt_of_le_of_lt (Nat.mul_le_mul_right _ (Nat.le_sub_one_of_lt hi))
          (Nat.not_le.mp hword)
      rw [evenParts_eq_ok_iff.mpr ⟨hall, rfl⟩] at hparts
      cases hparts
    rw [and_iff_right hplaces]
    simp [eq_comm]

/-- A split cuts an axis of known extent into equal parts, and the last one begins at no machine
word. -/
structure SplitsTooOften (c : Context) : Prop where
  equal : c.intsOperand "split" 1 splitOperandVersion = .ok none
  places : ∃ shape position extent, c.shapeAt 0 = .ok shape ∧
    axisIn shape.rank (c.int "axis" 0) = .ok position ∧
    shape.dims[position]? = some (.known extent) ∧
    wordLimit ≤ (c.node.outputs.length - 1) * chunkOf extent c.node.outputs.length

lemma splitParts_eq_abort_iff {d : Dim} {count : Nat} :
    splitParts c d count = .error (.abort a) ↔
      c.intsOperand "split" 1 splitOperandVersion = .ok none ∧
        (∃ extent, d = .known extent ∧ wordLimit ≤ (count - 1) * chunkOf extent count) ∧
          a = .overflow .multiplication := by
  unfold splitParts
  rcases c.intsOperand "split" 1 splitOperandVersion with e | _ | sizes
  · exact iff_of_false nofun fun h => by cases h.1
  · cases d with
    | known extent =>
      dsimp only
      rw [map_eq_error_iff, evenParts_eq_abort_iff]
      simp
    | _ => exact iff_of_false nofun fun ⟨_, ⟨_, h, _⟩, _⟩ => by cases h
  · have hsizes : Justified c 0 (sizes.mapM (extentOf "split")) := extentsOf_justified _ _
    refine iff_of_false ?_ fun h => by cases h.1
    dsimp only
    split_ifs
    · exact nofun
    · exact hsizes.neverAborts a

lemma split_eq_abort_iff :
    split c = .error (.abort a) ↔ SplitsTooOften c ∧ a = .overflow .multiplication := by
  unfold split
  rw [(c.shapeAt_neverAborts 0).bind_eq_abort_iff]
  constructor
  · rintro ⟨shape, hshape, h⟩
    obtain ⟨position, hposition, h⟩ := (axisIn_neverAborts _ _).bind_eq_abort_iff.mp h
    split_ifs at h
    · cases h
    · obtain ⟨hequal, ⟨extent, hextent, hplaces⟩, ha⟩ :=
        splitParts_eq_abort_iff.mp (bind_pure_eq_error_iff.mp h)
      refine ⟨⟨hequal, shape, position, extent, hshape, hposition, ?_, hplaces⟩, ha⟩
      cases hd : shape.dims[position]? with
      | none =>
        rw [hd] at hextent
        cases hextent
      | some d =>
        rw [hd] at hextent
        exact congrArg some hextent
  · rintro ⟨⟨hequal, shape, position, extent, hshape, hposition, hextent, hplaces⟩, ha⟩
    refine ⟨shape, hshape, (axisIn_neverAborts _ _).bind_eq_abort_iff.mpr ⟨position, hposition, ?_⟩⟩
    have houtputs : ¬c.node.outputs.isEmpty = true := by
      intro hempty
      rw [List.isEmpty_iff.mp hempty, List.length_nil, Nat.zero_sub, Nat.zero_mul] at hplaces
      exact absurd hplaces (by decide)
    rw [if_neg houtputs, bind_pure_eq_error_iff, splitParts_eq_abort_iff, hextent]
    exact ⟨hequal, ⟨extent, rfl, hplaces⟩, ha⟩

/-! ### Transposed windows -/

namespace AxisWindow

variable {w : AxisWindow} {autoPad : AutoPad} {extra : Int} {size : Nat}

/-- Of the two sums that make up the extent over `size` positions, this operation leaves the numbers
of 128 bits. -/
inductive Overflows (w : AxisWindow) (autoPad : AutoPad) (extra : Int) (size : Nat) :
    Operation → Prop
  | addition (hautoPad : autoPad ≠ .same) (h : ¬HeldWide (w.covered extra size)) :
    Overflows w autoPad extra size .addition
  | subtraction (hautoPad : autoPad ≠ .same) (hcovered : HeldWide (w.covered extra size))
      (h : ¬HeldWide (w.covered extra size - (w.before + w.behind))) :
    Overflows w autoPad extra size .subtraction

/-- The sums that make up the extent over `size` positions are held, and the extent is positive. -/
def HasExtent (w : AxisWindow) (autoPad : AutoPad) (extra : Int) (size : Nat) : Prop :=
  if autoPad = .same then 1 ≤ size * w.stride
  else HeldWide (w.covered extra size) ∧ HeldWide (w.covered extra size - (w.before + w.behind)) ∧
    1 ≤ w.covered extra size - (w.before + w.behind)

lemma spread_of_ne_same (hautoPad : autoPad ≠ .same) :
    w.spread autoPad extra size = (do
      let covered ← held .addition (w.covered extra size)
      held .subtraction (covered - (w.before + w.behind))) := by
  cases autoPad with
  | same => exact absurd rfl hautoPad
  | _ => rfl

lemma spread_eq_ok_iff {v : Int} :
    w.spread autoPad extra size = .ok v ↔
      if autoPad = .same then v = size * w.stride
      else HeldWide (w.covered extra size) ∧
        HeldWide (w.covered extra size - (w.before + w.behind)) ∧
        v = w.covered extra size - (w.before + w.behind) := by
  split_ifs with hautoPad
  · subst hautoPad
    exact (Except.ok.injEq _ _).to_iff.trans eq_comm
  · rw [spread_of_ne_same hautoPad, bind_eq_ok_iff]
    simp only [held_eq_ok_iff]
    constructor
    · rintro ⟨_, ⟨hcovered, rfl⟩, hextent, rfl⟩
      exact ⟨hcovered, hextent, rfl⟩
    · rintro ⟨hcovered, hextent, rfl⟩
      exact ⟨_, ⟨hcovered, rfl⟩, hextent, rfl⟩

lemma spread_eq_error_iff {e : RuleError} :
    w.spread autoPad extra size = .error e ↔
      ∃ operation, w.Overflows autoPad extra size operation ∧
        e = .abort (.overflow operation) := by
  by_cases hautoPad : autoPad = .same
  · subst hautoPad
    refine iff_of_false nofun ?_
    rintro ⟨_, ⟨h, -⟩ | ⟨h, -⟩, -⟩ <;> exact h rfl
  rw [spread_of_ne_same hautoPad, bind_eq_error_iff]
  simp only [held_eq_ok_iff, held_eq_error_iff]
  constructor
  · rintro (⟨hcovered, rfl⟩ | ⟨_, ⟨hcovered, rfl⟩, hextent, rfl⟩)
    · exact ⟨_, .addition hautoPad hcovered, rfl⟩
    · exact ⟨_, .subtraction hautoPad hcovered hextent, rfl⟩
  · rintro ⟨_, ⟨-, hcovered⟩ | ⟨-, hcovered, hextent⟩, rfl⟩
    · exact .inl ⟨hcovered, rfl⟩
    · exact .inr ⟨_, ⟨hcovered, rfl⟩, hextent, rfl⟩

lemma backward_eq_abort_iff {axis : Nat} :
    w.backward autoPad extra axis (.known size) = .error (.abort a) ↔
      ∃ operation, w.Overflows autoPad extra size operation ∧ a = .overflow operation := by
  unfold backward
  dsimp only
  rw [bind_eq_error_iff, spread_eq_error_iff, or_iff_left]
  · simp only [RuleError.abort.injEq]
  · rintro ⟨v, -, h⟩
    split_ifs at h
    cases h

lemma exists_backward_iff {axis : Nat} :
    (∃ d, w.backward autoPad extra axis (.known size) = .ok d) ↔
      w.HasExtent autoPad extra size := by
  have hfinish (v : Int) : (∃ d, (if v < 1 then .error (.invalid "pads" (.outputExtent v axis))
      else .ok (wordDim v.toNat) : Except RuleError Dim) = .ok d) ↔ 1 ≤ v := by
    split_ifs with hv
    · exact iff_of_false nofun (Int.not_le.mpr hv)
    · exact iff_of_true ⟨_, rfl⟩ (Int.not_lt.mp hv)
  unfold backward HasExtent
  dsimp only
  simp only [bind_eq_ok_iff]
  rw [exists_comm]
  simp only [exists_and_left, hfinish, spread_eq_ok_iff]
  split_ifs with hautoPad
  · rw [exists_eq_left]
    exact_mod_cast Iff.rfl
  · simp only [and_assoc, exists_and_left, exists_eq_left]

end AxisWindow

lemma windowOf_neverAborts (c : Context) (spatial : Nat) : NeverAborts (windowOf c spatial) := by
  have hwindow : Justified c 2 (windowOf c spatial) :=
    (Context.shapeAt_justified Nat.one_lt_two).bind fun weights _ =>
      (kernelsOf_justified _ _ _).bind fun kernels _ => ofNode_justified _ _
  exact hwindow.neverAborts

/-- By how much an axis is to be longer than its window makes it. -/
def outputPadding (c : Context) (axis : Nat) : Int :=
  (((c.node.ints? "output_padding").getD [])[axis]?).getD 0

/-- A transposed convolution moves a window over an image to find the extents of its result. -/
structure Transposes (c : Context) (image : Image) (window : Window) : Prop where
  unnamed : c.node.ints? "output_shape" = none
  operands : ∃ weights, imageAndWeights c = .ok (image, weights)
  moves : windowOf c image.spatial.length = .ok window

/-- On one axis an operation leaves the numbers of 128 bits, and all axes before have their
extents. -/
def TransposeOverflows (c : Context) (operation : Operation) : Prop :=
  ∃ (image : Image) (window : Window) (axis : Nat) (w : AxisWindow) (size : Nat),
    Transposes c image window ∧
    window.axes[axis]? = some w ∧ image.spatial[axis]? = some (.known size) ∧
    w.Overflows window.autoPad (outputPadding c axis) size operation ∧
    ∀ i < axis, ∀ w n, window.axes[i]? = some w → image.spatial[i]? = some (.known n) →
      w.HasExtent window.autoPad (outputPadding c i) n

lemma mapM_backward_eq_abort_iff {window : Window} {spatial : List Dim} :
    (List.zip window.axes spatial).zipIdx.mapM (fun ((w, d), axis) =>
        w.backward window.autoPad (outputPadding c axis) axis d) = .error (.abort a) ↔
      ∃ operation, a = .overflow operation ∧ ∃ (axis : Nat) (w : AxisWindow) (size : Nat),
        window.axes[axis]? = some w ∧ spatial[axis]? = some (.known size) ∧
        w.Overflows window.autoPad (outputPadding c axis) size operation ∧
        ∀ i < axis, ∀ w n, window.axes[i]? = some w → spatial[i]? = some (.known n) →
          w.HasExtent window.autoPad (outputPadding c i) n := by
  rw [mapM_eq_error_iff]
  simp only [getElem?_zipIdx_zip_eq_some_iff]
  constructor
  · rintro ⟨axis, ⟨⟨w, d⟩, _⟩, ⟨rfl, hw, hd⟩, habort, hbefore⟩
    cases d with
    | known size =>
      obtain ⟨operation, hoverflows, rfl⟩ := AxisWindow.backward_eq_abort_iff.mp habort
      refine ⟨operation, rfl, _, w, size, hw, hd, hoverflows, fun i hi w' n hw' hn => ?_⟩
      exact AxisWindow.exists_backward_iff.mp (hbefore i hi ((w', .known n), i) ⟨rfl, hw', hn⟩)
    | _ => cases habort
  · rintro ⟨operation, rfl, axis, w, size, hw, hd, hoverflows, hbefore⟩
    refine ⟨axis, ((w, .known size), axis), ⟨rfl, hw, hd⟩, ?_, ?_⟩
    · exact AxisWindow.backward_eq_abort_iff.mpr ⟨operation, hoverflows, rfl⟩
    · rintro i hi ⟨⟨w', d⟩, _⟩ ⟨rfl, hw', hd'⟩
      cases d with
      | known n => exact AxisWindow.exists_backward_iff.mpr (hbefore _ hi w' n hw' hd')
      | _ => exact ⟨_, rfl⟩

lemma transposedDims_neverAborts {image : Image} {weights : Shape} {extents : List Int}
    (hextents : c.node.ints? "output_shape" = some extents) :
    NeverAborts (transposedDims c image weights) := by
  have hdims : Justified c 0 (transposedDims c image weights) := by
    unfold transposedDims
    rw [hextents]
    dsimp only
    split_ifs
    · simp [bind, Except.bind]
    · refine FailsOnly.mapM fun e _ => ?_
      split_ifs <;> simp
  exact hdims.neverAborts

lemma convTranspose_eq_abort_iff :
    convTranspose c = .error (.abort a) ↔
      ∃ operation, TransposeOverflows c operation ∧ a = .overflow operation := by
  have himage : NeverAborts (imageAndWeights c) := imageAndWeights_justified.neverAborts
  unfold convTranspose
  rw [himage.bind_eq_abort_iff]
  constructor
  · rintro ⟨⟨image, weights⟩, hweights, h⟩
    rw [bind_pure_eq_error_iff] at h
    cases hextents : c.node.ints? "output_shape" with
    | some extents => exact absurd h (transposedDims_neverAborts hextents a)
    | none =>
      rw [transposedDims_eq hweights hextents, (windowOf_neverAborts _ _).bind_eq_abort_iff] at h
      obtain ⟨window, hwindow, h⟩ := h
      obtain ⟨operation, rfl, axis, w, size, hw, hsize, hoverflows, hbefore⟩ :=
        mapM_backward_eq_abort_iff.mp h
      exact ⟨operation, ⟨image, window, axis, w, size, ⟨hextents, ⟨weights, hweights⟩, hwindow⟩,
        hw, hsize, hoverflows, hbefore⟩, rfl⟩
  · rintro ⟨operation, ⟨image, window, axis, w, size, ⟨hextents, ⟨weights, hweights⟩, hwindow⟩, hw,
      hsize, hoverflows, hbefore⟩, rfl⟩
    refine ⟨(image, weights), hweights, bind_pure_eq_error_iff.mpr ?_⟩
    rw [transposedDims_eq hweights hextents, (windowOf_neverAborts _ _).bind_eq_abort_iff]
    exact ⟨window, hwindow, mapM_backward_eq_abort_iff.mpr
      ⟨operation, rfl, axis, w, size, hw, hsize, hoverflows, hbefore⟩⟩

end Rule

/-! ### All rules -/

namespace Registry

open Rule

/-- Where the built-in rule for an operator gives up, and how. -/
def GivesUp (c : Context) (a : Abort) : (op : String) → Prop
  | "Reshape" => ∃ rank, ReshapesTo c rank ∧ greatestRank < rank ∧ a = .tooLong rank
  | "ConstantOfShape" => ∃ rank, FillsRank c rank ∧ greatestRank < rank ∧ a = .tooLong rank
  | "Slice" => ∃ rank, SliceOverruns c rank ∧ a = .outOfBounds rank rank
  | "Split" => SplitsTooOften c ∧ a = .overflow .multiplication
  | "ConvTranspose" => ∃ operation, TransposeOverflows c operation ∧ a = .overflow operation
  | _ => False

lemma mem_abortingOps_of_givesUp {op : String} (h : GivesUp c a op) : op ∈ abortingOps := by
  unfold GivesUp at h
  split at h <;> simp [abortingOps] at h ⊢

lemma exists_rule?_of_givesUp {op : String} (h : GivesUp c a op) : builtin.rule? op ≠ none := by
  have hop := mem_abortingOps_of_givesUp h
  simp only [abortingOps, List.mem_cons, List.not_mem_nil, or_false] at hop
  rcases hop with rfl | rfl | rfl | rfl | rfl <;> exact Option.some_ne_none _

lemma infer_eq_abort_iff {op : String} {rule : Rule} (hrule : builtin.rule? op = some rule) :
    rule.infer c = .error (.abort a) ↔ GivesUp c a op := by
  by_cases hop : op ∈ abortingOps
  · simp only [abortingOps, List.mem_cons, List.not_mem_nil, or_false] at hop
    rcases hop with rfl | rfl | rfl | rfl | rfl <;> obtain rfl := Option.some.inj hrule
    · exact reshape_eq_abort_iff
    · exact constantOfShape_eq_abort_iff
    · exact slice_eq_abort_iff
    · exact split_eq_abort_iff
    · exact convTranspose_eq_abort_iff
  · refine iff_of_false (builtin_neverAborts _ (mem_of_rule? hrule) hop c a) fun h => hop ?_
    exact mem_abortingOps_of_givesUp h

end Registry

end TensorGraph
