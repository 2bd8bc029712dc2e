import TensorGraph.Proofs.Aborts
import TensorGraph.Proofs.Strict.Basic

/-!
# Strict rules that change extents

Extents are changed in place, axis by axis, by values that are read from lists of their own. These
lists were compared in length with the axes, and the axes were resolved, but for those of a slice
without a list of axes: they are counted, and a strict run is at fault as soon as the count passes
the rank.
-/

namespace TensorGraph

namespace Strict

/-! ### Padding -/

def padAt (count : Nat) (pads : List Int) (dims : List Dim) (next : Nat × Nat) :
    Strict (List Dim) := do
  let (axis, k) := next
  let before ← read pads k
  let behind ← read pads (k + count)
  let d ← read dims axis
  write dims axis (← lift (Rule.paddedDim (before + behind) d))

def padDims (shape : Shape) (axes : List Nat) (pads : List Int) : Strict (List Dim) :=
  if pads.length ≠ 2 * axes.length then
    halt (.invalid "pads" (.wrongCount (2 * axes.length) pads.length))
  else axes.zipIdx.foldlM (padAt axes.length pads) shape.dims

def padWith (c : Context) (shape : Shape) (pads : List Int) : Strict (List TensorType) := do
  let axes ← lift (Rule.axesOrAll shape.rank (c.intsAt? 3))
  return [c.withElem 0 ⟨← padDims shape axes pads⟩]

def pad (c : Context) : Strict (List TensorType) := do
  let shape ← lift (c.shapeAt 0)
  match c.intsOperand "pads" 1 Rule.padOperandVersion with
  | .error _ => return [c.withElem 0 (.ofRank shape.rank)]
  | .ok (some pads) => padWith c shape pads
  | .ok none =>
    match c.node.ints? "paddings" with
    | some pads => padWith c shape pads
    | none => halt (.missingAttribute "pads")

/-! ### Resizing -/

def sizeAt (dims : List Dim) (next : Nat × Int) : Strict (List Dim) := do
  let (axis, size) := next
  write dims axis (← lift (extentOf "sizes" size))

def scaleAt (dims : List Dim) (next : Nat × UInt32) : Strict (List Dim) := do
  let (axis, scale) := next
  write dims axis (Rule.scaledDim scale (← read dims axis))

def resize (c : Context) : Strict (List TensorType) := do
  let shape ← lift (c.shapeAt 0)
  let axes ← lift (Rule.axesOrAll shape.rank (c.node.ints? "axes"))
  match Rule.resizeSizes? c, Rule.resizeScales? c with
  | some sizes, _ =>
    if sizes.length ≠ axes.length then
      halt (.invalid "sizes" (.valuesForAxes sizes.length axes.length))
    else return [c.withElem 0 ⟨← (List.zip axes sizes).foldlM sizeAt shape.dims⟩]
  | none, some scales =>
    if scales.length ≠ axes.length then
      halt (.invalid "scales" (.valuesForAxes scales.length axes.length))
    else return [c.withElem 0 ⟨← (List.zip axes scales).foldlM scaleAt shape.dims⟩]
  | none, none => return [c.withElem 0 (.ofRank shape.rank)]

/-! ### Slicing -/

def sliceLength (extent : Nat) (start stop step : Int) : Strict Int :=
  let wrap (v : Int) : Int := if v < 0 then v + extent else v
  let clamp (low high v : Int) : Int := max low (min high v)
  if 0 < step then
    let s := clamp 0 extent (wrap start)
    let e := clamp 0 extent (wrap stop)
    divideInt (e - s + step - 1) step
  else
    let s := clamp 0 (extent - 1) (wrap start)
    let e := clamp (-1) (extent - 1) (wrap stop)
    divideInt (s - e - step - 1) (-step)

def sliceExtent (extent : Nat) (start stop step : Int) : Strict Nat :=
  if extent = 0 then .ok 0
  else do return Rule.nearestWord (← sliceLength extent start stop step)

def sliceAt (starts stops steps : List Int) (dims : List Dim) (next : Nat × Nat) :
    Strict (List Dim) := do
  let (axis, k) := next
  let step ← read steps k
  if step = 0 then halt (.invalid "steps" .zeroStep)
  else
    match ← read dims axis with
    | .known n =>
      let start ← read starts k
      let stop ← read stops k
      write dims axis (.known (← sliceExtent n start stop step))
    | _ => write dims axis .unknown

def slice (c : Context) : Strict (List TensorType) := do
  let shape ← lift (c.shapeAt 0)
  match Rule.sliceBounds? c with
  | none => return [c.withElem 0 (.ofRank shape.rank)]
  | some b =>
    let axes ← lift (b.axes shape.rank)
    let steps := b.steps?.getD (List.replicate axes.length 1)
    if b.starts.length ≠ axes.length ∨ b.stops.length ≠ axes.length ∨
        steps.length ≠ axes.length then
      halt (.invalid "starts" .differentLengths)
    else
      let dims ← axes.zipIdx.foldlM (sliceAt b.starts b.stops steps) shape.dims
      return [c.withElem 0 ⟨dims⟩]

/-! ### Changes in place -/

variable {α β : Type} {rank : Nat} {change : α → Dim → Except RuleError Dim}

lemma updateDims_eq_foldlM (changes : List (Nat × α)) (dims : List Dim) :
    Rule.updateDims rank change changes dims =
      changes.foldlM (fun dims p => Rule.updateDims rank change [p] dims) dims := by
  induction changes generalizing dims with
  | nil => rfl
  | cons p changes ih =>
    obtain ⟨axis, a⟩ := p
    rw [List.foldlM_cons]
    cases hd : dims[axis]? with
    | none =>
      rw [Rule.updateDims, Rule.updateDims, hd]
      rfl
    | some d =>
      rw [Rule.updateDims_cons hd, Rule.updateDims_cons hd, bind_assoc]
      exact congrArg _ (funext fun d' => ih (dims.set axis d'))

lemma length_of_updateDims {changes : List (Nat × α)} {dims dims' : List Dim}
    (h : Rule.updateDims rank change changes dims = .ok dims') : dims'.length = dims.length := by
  induction changes generalizing dims with
  | nil =>
    obtain rfl := Except.ok.inj h
    rfl
  | cons p changes ih =>
    obtain ⟨axis, a⟩ := p
    cases hd : dims[axis]? with
    | none =>
      rw [Rule.updateDims, hd] at h
      cases h
    | some d =>
      rw [Rule.updateDims_cons hd] at h
      obtain ⟨d', _, h⟩ := bind_eq_ok_iff.mp h
      rw [ih h, List.length_set]

lemma change_eq_lift (change : α → Dim → Except RuleError Dim) (axis : Nat) (a : α)
    {dims : List Dim} (hdims : dims.length = rank) :
    (do
      let d ← read dims axis
      write dims axis (← lift (change a d))) =
        lift (Rule.updateDims rank change [(axis, a)] dims) := by
  cases hd : dims[axis]? with
  | none =>
    rw [read_eq_fault hd, Rule.updateDims, hd, hdims]
    rfl
  | some d =>
    rw [read_eq_ok hd, Rule.updateDims_cons hd]
    refine bind_eq_lift fun d' _ => write_eq_ok ?_ d'
    exact (List.getElem?_eq_some_iff.mp hd).1

lemma foldlM_eq_updateDims {step : List Dim → β → Strict (List Dim)} {bs : List β}
    {changes : List (Nat × α)}
    (h : List.Forall₂ (fun b p => ∀ dims : List Dim, dims.length = rank →
      step dims b = lift (Rule.updateDims rank change [p] dims)) bs changes)
    {dims : List Dim} (hdims : dims.length = rank) :
    bs.foldlM step dims = lift (Rule.updateDims rank change changes dims) := by
  rw [updateDims_eq_foldlM]
  refine foldlM_eq_lift (P := fun dims => dims.length = rank) ?_ hdims
  refine h.imp fun b p hstep dims hdims => ⟨hstep dims hdims, fun dims' hdims' => ?_⟩
  rw [length_of_updateDims hdims', hdims]

/-! ### Padding and resizing without fault -/

lemma padAt_eq_lift {count axis k : Nat} {pads : List Int} {delta : Int} {dims : List Dim}
    (hdelta : (List.zipWith (· + ·) pads (pads.drop count))[k]? = some delta)
    (hdims : dims.length = rank) :
    padAt count pads dims (axis, k) =
      lift (Rule.updateDims rank Rule.paddedDim [(axis, delta)] dims) := by
  obtain ⟨before, behind, hbefore, hbehind, rfl⟩ := List.getElem?_zipWith_eq_some.mp hdelta
  rw [List.getElem?_drop, Nat.add_comm] at hbehind
  unfold padAt
  dsimp only
  rw [read_eq_ok hbefore, read_eq_ok hbehind]
  exact change_eq_lift Rule.paddedDim axis (before + behind) hdims

lemma padDims_eq_lift (shape : Shape) (axes : List Nat) (pads : List Int) :
    padDims shape axes pads = lift (Rule.padDims shape axes pads) := by
  unfold padDims Rule.padDims
  split_ifs with hlength
  · rfl
  · have hdeltas : axes.length = (List.zipWith (· + ·) pads (pads.drop axes.length)).length := by
      rw [List.length_zipWith, List.length_drop, not_not.mp hlength]
      omega
    refine foldlM_eq_updateDims ((forall₂_zipIdx_zip hdeltas).imp fun p q hpq dims hdims => ?_) rfl
    obtain ⟨axis, k⟩ := p
    obtain ⟨rfl, hdelta⟩ := hpq
    exact padAt_eq_lift hdelta hdims

lemma padWith_eq_lift (c : Context) (shape : Shape) (pads : List Int) :
    padWith c shape pads = lift (do
      let axes ← Rule.axesOrAll shape.rank (c.intsAt? 3)
      let dims ← Rule.padDims shape axes pads
      return [c.withElem 0 ⟨dims⟩]) := by
  refine bind_eq_lift fun axes _ => ?_
  rw [padDims_eq_lift]
  exact bind_eq_lift fun _ _ => rfl

lemma pad_eq_lift (c : Context) : pad c = lift (Rule.pad c) := by
  refine bind_eq_lift fun shape _ => ?_
  dsimp only
  rcases c.intsOperand "pads" 1 Rule.padOperandVersion with e | _ | pads
  · rfl
  · dsimp only
    cases c.node.ints? "paddings" with
    | none => rfl
    | some pads => exact padWith_eq_lift c shape pads
  · exact padWith_eq_lift c shape pads

lemma sizeAt_eq_lift {axis : Nat} {size : Int} {dims : List Dim} (haxis : axis < dims.length) :
    sizeAt dims (axis, size) =
      lift (Rule.updateDims rank (fun s _ => extentOf "sizes" s) [(axis, size)] dims) := by
  rw [Rule.updateDims_cons (List.getElem?_eq_getElem haxis)]
  exact bind_eq_lift fun d _ => write_eq_ok haxis d

lemma scaleAt_eq_lift (axis : Nat) (scale : UInt32) {dims : List Dim}
    (hdims : dims.length = rank) :
    scaleAt dims (axis, scale) =
      lift (Rule.updateDims rank (fun s d => .ok (Rule.scaledDim s d)) [(axis, scale)] dims) :=
  change_eq_lift (fun s d => .ok (Rule.scaledDim s d)) axis scale hdims

lemma resize_eq_lift (c : Context) : resize c = lift (Rule.resize c) := by
  refine bind_eq_lift fun shape _ => bind_eq_lift fun axes haxes => ?_
  have hlt := Rule.lt_of_mem_axesOrAll haxes
  rcases Rule.resizeSizes? c with _ | sizes
  · rcases Rule.resizeScales? c with _ | scales
    · rfl
    dsimp only
    split_ifs
    · rfl
    · have hloop : (List.zip axes scales).foldlM scaleAt shape.dims = _ :=
        foldlM_eq_updateDims (List.forall₂_same.mpr fun (axis, scale) _ dims hdims =>
          scaleAt_eq_lift axis scale hdims) rfl
      rw [hloop]
      exact bind_eq_lift fun _ _ => rfl
  · dsimp only
    split_ifs
    · rfl
    · have hloop : (List.zip axes sizes).foldlM sizeAt shape.dims = _ :=
        foldlM_eq_updateDims (List.forall₂_same.mpr fun (axis, size) hmem dims hdims =>
          sizeAt_eq_lift (hdims ▸ Rule.lt_of_mem_zip hlt _ hmem)) rfl
      rw [hloop]
      exact bind_eq_lift fun _ _ => rfl

/-! ### Slicing -/

lemma sliceLength_eq_ok (extent : Nat) {start stop step : Int} (hstep : step ≠ 0) :
    sliceLength extent start stop step = .ok (Rule.sliceLength extent start stop step) := by
  unfold sliceLength Rule.sliceLength
  dsimp only
  by_cases hpositive : 0 < step
  · rw [if_pos hpositive, if_pos hpositive, divideInt_eq_ok hstep]
  · rw [if_neg hpositive, if_neg hpositive, divideInt_eq_ok (Int.neg_ne_zero.mpr hstep)]

lemma sliceExtent_eq_ok {extent : Nat} {start stop step : Int} (hstep : step ≠ 0) :
    sliceExtent extent start stop step = .ok (Rule.sliceExtent extent start stop step) := by
  unfold sliceExtent Rule.sliceExtent
  rw [sliceLength_eq_ok extent hstep]
  split_ifs <;> rfl

lemma sliceDims_singleton {p : Nat × Int × Int × Int} (hstep : p.2.2.2 ≠ 0) (dims : List Dim) :
    Rule.sliceDims rank [p] dims = Rule.updateDims rank Rule.slicedDim [p] dims := by
  rw [Rule.sliceDims_cons hstep]
  cases Rule.updateDims rank Rule.slicedDim [p] dims <;> rfl

lemma sliceDims_eq_foldlM (bounds : List (Nat × Int × Int × Int)) (dims : List Dim) :
    Rule.sliceDims rank bounds dims =
      bounds.foldlM (fun dims p => Rule.sliceDims rank [p] dims) dims := by
  induction bounds generalizing dims with
  | nil => rfl
  | cons p bounds ih =>
    by_cases hstep : p.2.2.2 = 0
    · rw [List.foldlM_cons, Rule.sliceDims, Rule.sliceDims, if_pos hstep, if_pos hstep]
      rfl
    · rw [List.foldlM_cons, Rule.sliceDims_cons hstep, sliceDims_singleton hstep]
      exact congrArg _ (funext ih)

lemma sliceAt_eq_lift {starts stops steps : List Int} {axis k : Nat} {start stop step : Int}
    {dims : List Dim} (hstart : starts[k]? = some start) (hstop : stops[k]? = some stop)
    (hstep : steps[k]? = some step) (hdims : dims.length = rank) :
    sliceAt starts stops steps dims (axis, k) =
      lift (Rule.sliceDims rank [(axis, start, stop, step)] dims) := by
  unfold sliceAt
  dsimp only
  rw [read_eq_ok hstep]
  change (if step = 0 then _ else _) = _
  split_ifs with hzero
  · rw [Rule.sliceDims, if_pos hzero]
    rfl
  · rw [sliceDims_singleton hzero, ← change_eq_lift Rule.slicedDim _ _ hdims, read_eq_ok hstart,
      read_eq_ok hstop]
    refine congrArg _ (funext fun d => ?_)
    cases d with
    | known n =>
      change (do write dims axis (.known (← sliceExtent n start stop step))) = _
      rw [sliceExtent_eq_ok hzero]
      rfl
    | _ => rfl

lemma length_of_sliceDims {p : Nat × Int × Int × Int} {dims dims' : List Dim}
    (h : Rule.sliceDims rank [p] dims = .ok dims') : dims'.length = dims.length := by
  by_cases hstep : p.2.2.2 = 0
  · rw [Rule.sliceDims, if_pos hstep] at h
    cases h
  · rw [sliceDims_singleton hstep] at h
    exact length_of_updateDims h

lemma slice_eq_lift (c : Context) : slice c = lift (Rule.slice c) := by
  refine bind_eq_lift fun shape _ => ?_
  cases Rule.sliceBounds? c with
  | none => rfl
  | some b =>
    refine bind_eq_lift fun axes _ => ?_
    dsimp only
    generalize b.steps?.getD (List.replicate axes.length 1) = steps
    split_ifs with hlengths
    · rfl
    · simp only [not_or, not_not] at hlengths
      obtain ⟨hstarts, hstops, hsteps⟩ := hlengths
      have hbounds : axes.length = (List.zip b.starts (List.zip b.stops steps)).length := by
        simp [hstarts, hstops, hsteps]
      have hloop : axes.zipIdx.foldlM (sliceAt b.starts b.stops steps) shape.dims =
          lift (Rule.sliceDims shape.rank
            (List.zip axes (List.zip b.starts (List.zip b.stops steps))) shape.dims) := by
        rw [sliceDims_eq_foldlM]
        refine foldlM_eq_lift (P := fun dims => dims.length = shape.rank) ?_ rfl
        refine (forall₂_zipIdx_zip hbounds).imp fun p q hpq dims hdims => ?_
        obtain ⟨axis, k⟩ := p
        obtain ⟨axis', start, stop, step⟩ := q
        obtain ⟨rfl, hk⟩ := hpq
        obtain ⟨hstart, hk⟩ := List.getElem?_zip_eq_some.mp hk
        obtain ⟨hstop, hstep⟩ := List.getElem?_zip_eq_some.mp hk
        exact ⟨sliceAt_eq_lift hstart hstop hstep hdims,
          fun _ hdims' => (length_of_sliceDims hdims').trans hdims⟩
      rw [hloop]
      exact bind_eq_lift fun _ _ => rfl

end Strict

end TensorGraph
