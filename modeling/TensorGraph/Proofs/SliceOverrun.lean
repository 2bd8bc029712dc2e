import TensorGraph.Proofs.Aborts

/-!
# Slices that run over

A slice without a list of axes takes as many axes, from the first one on, as there are starts. If
there are more starts than axes, the rule asks for an axis that the data does not have, unless it
stops at a step of zero before.
-/

namespace TensorGraph.Rule

/-- A slice runs over data of a given rank: it has no list of axes, but more starts than there are
axes, as many ends, and, if they are given, as many steps, of which the first ones are not zero. -/
structure SliceBounds.RunsOver (b : SliceBounds) (rank : Nat) : Prop where
  axes : b.axes? = none
  starts : rank < b.starts.length
  stops : b.stops.length = b.starts.length
  steps : ∀ steps, b.steps? = some steps →
    steps.length = b.starts.length ∧ ∀ step ∈ steps.take (rank + 1), step ≠ 0

/-- The rule for slices asks for the axis behind the last one of the data. -/
def SliceOverruns (c : Context) (rank : Nat) : Prop :=
  ∃ shape bounds, c.shapeAt 0 = .ok shape ∧ shape.rank = rank ∧ sliceBounds? c = some bounds ∧
    bounds.RunsOver rank

lemma slicedDim_eq_ok (bounds : Int × Int × Int) (d : Dim) :
    ∃ d', slicedDim bounds d = .ok d' := by
  cases d <;> exact ⟨_, rfl⟩

lemma sliceDims_neverAborts {rank : Nat} {bounds : List (Nat × Int × Int × Int)} {dims : List Dim}
    (h : ∀ p ∈ bounds, p.1 < dims.length) : NeverAborts (sliceDims rank bounds dims) := by
  induction bounds generalizing dims with
  | nil => exact .ok dims
  | cons p bounds ih =>
    obtain ⟨axis, start, stop, step⟩ := p
    rw [List.forall_mem_cons] at h
    by_cases hstep : step = 0
    · rw [sliceDims, if_pos hstep]
      simp
    · rw [sliceDims_cons hstep, updateDims_cons (List.getElem?_eq_getElem h.1)]
      obtain ⟨d, hd⟩ := slicedDim_eq_ok (start, stop, step) dims[axis]
      rw [hd]
      exact ih (by simpa using h.2)

/-- Axes that are counted up from `k`: the first one missing is the rank, and all steps up to it
were looked at. -/
lemma sliceDims_eq_abort_iff {bounds : List (Nat × Int × Int × Int)} {dims : List Dim} {k : Nat}
    {a : Abort} (hcount : bounds.map Prod.fst = List.range' k bounds.length)
    (hk : k ≤ dims.length) :
    sliceDims dims.length bounds dims = .error (.abort a) ↔
      a = .outOfBounds dims.length dims.length ∧ dims.length < k + bounds.length ∧
        ∀ p ∈ bounds.take (dims.length - k + 1), p.2.2.2 ≠ 0 := by
  induction bounds generalizing dims k with
  | nil => simp [sliceDims, Nat.not_lt.mpr hk]
  | cons p bounds ih =>
    obtain ⟨axis', start, stop, step⟩ := p
    rw [List.map_cons, List.length_cons, List.range'_succ, List.cons.injEq] at hcount
    obtain ⟨rfl, hcount⟩ := hcount
    rw [List.take_succ_cons, List.forall_mem_cons]
    by_cases hstep : step = 0
    · rw [sliceDims, if_pos hstep]
      simp [hstep]
    rw [sliceDims_cons hstep]
    -- An axis that is there leaves one step less to look at; the next one to count from is `k + 1`.
    rcases Nat.lt_or_ge axis' dims.length with hlt | hge
    · have htake : dims.length - (axis' + 1) + 1 = dims.length - axis' := by omega
      obtain ⟨d, hd⟩ := slicedDim_eq_ok (start, stop, step) dims[axis']
      have hset : axis' + 1 ≤ (dims.set axis' d).length := by rwa [List.length_set]
      have htail := ih hcount hset
      rw [List.length_set, htake] at htail
      rw [updateDims_cons (List.getElem?_eq_getElem hlt), hd, List.length_cons]
      refine htail.trans ?_
      rw [Nat.add_right_comm, Nat.add_assoc axis']
      tauto
    · have hend : axis' = dims.length := Nat.le_antisymm hk hge
      rw [updateDims, List.getElem?_eq_none hge]
      simp [bind, Except.bind, hend, hstep, eq_comm]

/-- The bounds of counted axes, one after the other. -/
def SliceBounds.counted (b : SliceBounds) (steps : List Int) : List (Nat × Int × Int × Int) :=
  List.zip (List.range b.starts.length) (List.zip b.starts (List.zip b.stops steps))

lemma map_counted {b : SliceBounds} {steps : List Int} (hstops : b.stops.length = b.starts.length)
    (hsteps : steps.length = b.starts.length) :
    (b.counted steps).map Prod.fst = List.range b.starts.length ∧
      (b.counted steps).map (fun p => p.2.2.2) = steps := by
  have hbounds : (List.zip b.starts (List.zip b.stops steps)).length = b.starts.length := by
    simp [hstops, hsteps]
  constructor
  · exact List.map_fst_zip (by simp [hbounds])
  · have hfun : (fun p : Nat × Int × Int × Int => p.2.2.2) =
        Prod.snd ∘ Prod.snd ∘ Prod.snd := rfl
    rw [hfun, ← List.map_map, ← List.map_map, SliceBounds.counted,
      List.map_snd_zip (by simp [hbounds]),
      List.map_snd_zip (by simp [hstops, hsteps]), List.map_snd_zip (by simp [hstops, hsteps])]

lemma sliceDims_counted_iff {b : SliceBounds} {steps : List Int} {shape : Shape} {a : Abort}
    (hstops : b.stops.length = b.starts.length) (hsteps : steps.length = b.starts.length) :
    sliceDims shape.rank (b.counted steps) shape.dims = .error (.abort a) ↔
      a = .outOfBounds shape.rank shape.rank ∧ shape.rank < b.starts.length ∧
        ∀ step ∈ steps.take (shape.rank + 1), step ≠ 0 := by
  obtain ⟨haxes, hcounted⟩ := map_counted hstops hsteps
  have hlength : (b.counted steps).length = b.starts.length := by
    rw [← List.length_map, haxes, List.length_range]
  have hcount : (b.counted steps).map Prod.fst = List.range' 0 (b.counted steps).length := by
    rw [haxes, hlength, List.range_eq_range']
  have hnonzero (m : Nat) : (∀ p ∈ (b.counted steps).take m, p.2.2.2 ≠ 0) ↔
      ∀ step ∈ steps.take m, step ≠ 0 := by
    have htake : ((b.counted steps).take m).map (fun p => p.2.2.2) = steps.take m := by
      rw [List.map_take, hcounted]
    rw [← htake, List.forall_mem_map]
  refine (sliceDims_eq_abort_iff hcount (Nat.zero_le _)).trans ?_
  rw [hlength, Nat.zero_add, Nat.sub_zero, hnonzero]
  rfl

/-- What a slice does with its bounds. -/
def sliceBy (c : Context) (shape : Shape) (b : SliceBounds) : Typing := do
  let axes ← b.axes shape.rank
  let steps := b.steps?.getD (List.replicate axes.length 1)
  if b.starts.length ≠ axes.length ∨ b.stops.length ≠ axes.length ∨
      steps.length ≠ axes.length then
    .error (.invalid "starts" .differentLengths)
  let dims ← sliceDims shape.rank (List.zip axes (List.zip b.starts (List.zip b.stops steps)))
    shape.dims
  return [c.withElem 0 ⟨dims⟩]

lemma sliceBy_neverAborts {c : Context} {shape : Shape} {b : SliceBounds} {given : List Int}
    (hgiven : b.axes? = some given) : NeverAborts (sliceBy c shape b) := by
  have haxes : b.axes shape.rank = given.mapM (axisIn shape.rank) := by
    unfold SliceBounds.axes
    rw [hgiven]
  unfold sliceBy
  rw [haxes]
  refine (NeverAborts.mapM fun axis _ => axisIn_neverAborts _ axis).bind fun axes hresolved => ?_
  have hlt : ∀ axis ∈ axes, axis < shape.rank :=
    forall_mem_of_mapM_eq_ok hresolved fun _ _ _ => axisIn_lt
  dsimp only
  split_ifs
  · simp [bind, Except.bind]
  · exact (sliceDims_neverAborts (lt_of_mem_zip hlt)).bind fun _ _ => .ok _

lemma runsOver_iff {b : SliceBounds} {rank : Nat} (hcounted : b.axes? = none) :
    b.RunsOver rank ↔
      (b.stops.length = b.starts.length ∧
        (b.steps?.getD (List.replicate b.starts.length 1)).length = b.starts.length) ∧
      rank < b.starts.length ∧
        ∀ step ∈ (b.steps?.getD (List.replicate b.starts.length 1)).take (rank + 1), step ≠ 0 := by
  cases hsteps : b.steps? with
  | none =>
    have hones : ∀ step ∈ (List.replicate b.starts.length (1 : Int)).take (rank + 1), step ≠ 0 := by
      intro step hstep
      rw [List.eq_of_mem_replicate (List.mem_of_mem_take hstep)]
      decide
    constructor
    · intro h
      exact ⟨⟨h.stops, List.length_replicate⟩, h.starts, hones⟩
    · rintro ⟨⟨hstops, _⟩, hstarts, _⟩
      exact ⟨hcounted, hstarts, hstops, fun steps h => by simp [hsteps] at h⟩
  | some steps =>
    constructor
    · intro h
      obtain ⟨hlength, hnonzero⟩ := h.steps steps hsteps
      exact ⟨⟨h.stops, hlength⟩, h.starts, hnonzero⟩
    · rintro ⟨⟨hstops, hlength⟩, hstarts, hnonzero⟩
      refine ⟨hcounted, hstarts, hstops, fun steps' h => ?_⟩
      obtain rfl := Option.some.inj (hsteps.symm.trans h)
      exact ⟨hlength, hnonzero⟩

lemma sliceBy_eq_abort_iff {c : Context} {shape : Shape} {b : SliceBounds} {a : Abort} :
    sliceBy c shape b = .error (.abort a) ↔
      a = .outOfBounds shape.rank shape.rank ∧ b.RunsOver shape.rank := by
  cases hgiven : b.axes? with
  | some given =>
    refine iff_of_false (sliceBy_neverAborts hgiven a) fun ⟨_, hruns⟩ => ?_
    simp [hruns.axes] at hgiven
  | none =>
    have haxes : b.axes shape.rank = .ok (List.range b.starts.length) := by
      unfold SliceBounds.axes
      rw [hgiven]
    rw [runsOver_iff hgiven]
    unfold sliceBy
    rw [haxes]
    change (if _ then _ else _) = _ ↔ _
    rw [List.length_range]
    generalize b.steps?.getD (List.replicate b.starts.length 1) = steps
    by_cases hlengths : b.stops.length = b.starts.length ∧ steps.length = b.starts.length
    · rw [if_neg (by simp [hlengths]), bind_eq_error_iff]
      refine (or_iff_left ?_).trans ?_
      · rintro ⟨dims, _, h⟩
        cases h
      · refine (sliceDims_counted_iff hlengths.1 hlengths.2).trans ?_
        tauto
    · rw [if_pos (by tauto)]
      refine iff_of_false (fun h => ?_) fun h => hlengths h.2.1
      cases h

lemma slice_eq_abort_iff {c : Context} {a : Abort} :
    slice c = .error (.abort a) ↔ ∃ rank, SliceOverruns c rank ∧ a = .outOfBounds rank rank := by
  unfold slice SliceOverruns
  cases hshape : c.shapeAt 0 with
  | error e =>
    have hbounds := c.shapeAt_neverAborts 0
    rw [hshape, NeverAborts.error_iff] at hbounds
    refine iff_of_false (fun h => hbounds a (Except.error.inj h)) ?_
    rintro ⟨_, ⟨_, _, h, _⟩, _⟩
    cases h
  | ok shape =>
    dsimp only [Bind.bind, Except.bind, Pure.pure, Except.pure]
    cases sliceBounds? c with
    | none => simp
    | some b =>
      change sliceBy c shape b = _ ↔ _
      refine sliceBy_eq_abort_iff.trans ?_
      constructor
      · rintro ⟨rfl, hruns⟩
        exact ⟨_, ⟨shape, b, rfl, rfl, rfl, hruns⟩, rfl⟩
      · rintro ⟨_, ⟨_, _, hshape, rfl, hbounds, hruns⟩, rfl⟩
        obtain rfl := Except.ok.inj hshape
        obtain rfl := Option.some.inj hbounds
        exact ⟨rfl, hruns⟩

end TensorGraph.Rule
