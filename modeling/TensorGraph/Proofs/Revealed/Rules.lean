import TensorGraph.Proofs.Names.Types
import TensorGraph.Proofs.Refinement
import TensorGraph.Proofs.Revealed.Contexts
import TensorGraph.Proofs.Symbolic.Agreement

/-!
# Rules that look at values

Where the value of an operand is not known, a rule gives a shape of which only the rank is known, or
no answer at all. Once the value is known, the answer has that rank. What a rule says of a value it
sees stays the same.

There are values whose absence a rule overlooks: it then takes them for not given. And where a rule
counts the entries of an operand by its first extent, this has to be how many values there are.
-/

namespace TensorGraph

/-- Where both runs have an answer, the second one refines the first one. -/
abbrev RunsRefine : Typing → Typing → Prop :=
  Agrees (fun _ => False) (List.Forall₂ TensorType.RefinedBy)

lemma runsRefine_self (x : Typing) : RunsRefine x x :=
  Agrees.self fun _ _ => List.forall₂_same.mpr fun t _ => .refl t

lemma LooksAtTypes.runsRefine {infer : Context → Typing} (hinfer : LooksAtTypes infer)
    {c c' : Context} (h : c.Reveals c') : RunsRefine (infer c) (infer c') := by
  rw [hinfer c c' h]
  exact runsRefine_self _

/-- One type with the elements of the first operand and a shape of that rank. -/
def Context.HasRank (c : Context) (rank : Nat) (types : List TensorType) : Prop :=
  ∃ s : Shape, types = [c.withElem 0 s] ∧ s.rank = rank

lemma runsRefine_ofRank {c : Context} {rank : Nat} {x : Typing} (hx : Ensures (c.HasRank rank) x) :
    RunsRefine (.ok [c.withElem 0 (.ofRank rank)]) x := by
  cases x with
  | error e => exact Agrees.error_right _ e
  | ok types =>
    obtain ⟨s, rfl, rfl⟩ := hx types rfl
    exact .cons (TensorType.refinedBy_some (Shape.refinedBy_ofRank s)) .nil

lemma runsRefine_declaredShape {f : Shape → TensorType} {rank : Nat} {x : Typing}
    (hx : RunsRefine (.ok [f (.ofRank rank)]) x) :
    RunsRefine (do return [f (← declaredShape rank)]) x := by
  cases hs : declaredShape rank with
  | error e => exact Agrees.error_left id _
  | ok s =>
    obtain rfl := declaredShape_eq_ok hs
    exact hx

lemma Context.shapeAt_eq_ok {c : Context} {i : Nat} {s : Shape}
    (h : ((c.operand? i).bind fun o => o.type.shape?) = some s) : c.shapeAt i = .ok s := by
  obtain ⟨o, ho, hs⟩ := Option.bind_eq_some_iff.mp h
  unfold Context.shapeAt
  rw [ho]
  dsimp only
  rw [hs]

lemma Context.typeAt_of_shapeAt {c : Context} {i : Nat} {s : Shape} (h : c.shapeAt i = .ok s) :
    c.typeAt i = .ok (c.withElem i s) := by
  unfold Context.shapeAt at h
  unfold Context.typeAt Context.withElem Context.elemAt?
  cases ho : c.operand? i with
  | none =>
    rw [ho] at h
    cases h
  | some o =>
    rw [ho] at h
    dsimp only at h ⊢
    cases hs : o.type.shape? with
    | none =>
      rw [hs] at h
      cases h
    | some s' =>
      rw [hs] at h
      obtain rfl := Except.ok.inj h
      rw [Option.bind_some, ← hs]

namespace Rule

variable {c c' : Context}

/-! ### Changes that keep the rank -/

lemma ensures_length_updateDims {α : Type} {rank : Nat}
    {change : α → Dim → Except RuleError Dim} (changes : List (Nat × α)) (dims : List Dim) :
    Ensures (fun dims' => dims'.length = dims.length) (updateDims rank change changes dims) := by
  induction changes generalizing dims with
  | nil => exact Ensures.ok_iff.mpr rfl
  | cons first rest ih =>
    obtain ⟨axis, a⟩ := first
    cases hd : dims[axis]? with
    | none => simp [updateDims, hd]
    | some d =>
      rw [updateDims_cons hd]
      refine Ensures.after fun d' => ?_
      have hlength : (dims.set axis d').length = dims.length := List.length_set
      rw [← hlength]
      exact ih (dims.set axis d')

lemma ensures_length_padDims (s : Shape) (axes : List Nat) (pads : List Int) :
    Ensures (fun dims => dims.length = s.rank) (padDims s axes pads) := by
  unfold padDims
  split_ifs
  · exact .error _
  · exact ensures_length_updateDims _ _

lemma ensures_length_sliceDims {rank : Nat} (bounds : List (Nat × Int × Int × Int))
    (dims : List Dim) :
    Ensures (fun dims' => dims'.length = dims.length) (sliceDims rank bounds dims) := by
  induction bounds generalizing dims with
  | nil => exact Ensures.ok_iff.mpr rfl
  | cons first rest ih =>
    obtain ⟨axis, start, stop, step⟩ := first
    by_cases hstep : step = 0
    · simp [sliceDims, hstep]
    · rw [sliceDims_cons hstep]
      refine (ensures_length_updateDims _ dims).bind fun dims' hlength => ?_
      rw [← hlength]
      exact ih dims'

lemma length_reducedDims (dims : List Dim) (axes : List Nat) :
    (reducedDims dims axes true).length = dims.length := by
  have hmap : reducedDims dims axes true =
      dims.zipIdx.map fun p => if p.2 ∈ axes then .known 1 else p.1 := by
    unfold reducedDims
    rw [← List.filterMap_eq_map]
    refine List.filterMap_congr fun p _ => ?_
    by_cases hi : p.2 ∈ axes
    · simp [hi]
    · simp [hi]
  rw [hmap, List.length_map, List.length_zipIdx]

/-- As many extents as the target has entries. -/
lemma ensures_length_reshapeDims (zeroCopies : Bool) (data? : Option Shape) (target : List Int) :
    Ensures (fun dims => dims.length = target.length) (reshapeDims zeroCopies data? target) := by
  unfold reshapeDims
  have hentries : Ensures (fun dims : List Dim => dims.length = target.length)
      (target.zipIdx.mapM (reshapeEntry zeroCopies data? target)) := by
    intro dims hdims
    have hlength := (mapM_eq_ok_iff.mp hdims).length_eq
    rw [List.length_zipIdx] at hlength
    exact hlength.symm
  refine hentries.bind fun dims hlength => ?_
  unfold closeReshape
  split
  · exact Ensures.ok_iff.mpr hlength
  · split
    · split_ifs
      · exact .error _
      · exact Ensures.ok_iff.mpr (List.length_set.trans hlength)
    · exact Ensures.ok_iff.mpr hlength

lemma ensures_length_extents (name : String) (extents : List Int) :
    Ensures (fun dims => dims.length = extents.length) (extents.mapM (extentOf name)) :=
  fun _ hdims => (mapM_eq_ok_iff.mp hdims).length_eq.symm

/-! ### Lists of integers -/

lemma intsOperand_agrees (h : c.Reveals c') (name : String) (input : Nat) (since : Int) :
    Agrees (fun _ => False) Eq (c.intsOperand name input since)
      (c'.intsOperand name input since) := by
  cases hvs : c.intsOperand name input since with
  | error e => exact Agrees.error_left id _
  | ok vs? =>
    rw [h.intsOperand_eq_ok hvs]
    rfl

lemma squeeze_runsRefine (h : c.Reveals c') : RunsRefine (squeeze c) (squeeze c') := by
  unfold squeeze
  rw [h.shapeAt]
  refine Agrees.bind_same fun s _ => ?_
  have haxes : Agrees (fun _ => False) Eq (squeezeAxes c s) (squeezeAxes c' s) := by
    refine (intsOperand_agrees h _ _ _).bind fun axes? _ heq => ?_
    rw [heq]
    exact Agrees.self fun _ _ => rfl
  refine haxes.bind fun positions _ heq => ?_
  rw [← heq, h.withElem]
  exact runsRefine_self _

lemma unsqueeze_runsRefine (h : c.Reveals c') : RunsRefine (unsqueeze c) (unsqueeze c') := by
  unfold unsqueeze
  rw [h.shapeAt]
  refine Agrees.bind_same fun s _ => ?_
  refine (intsOperand_agrees h _ _ _).bind fun axes? _ heq => ?_
  simp only [← heq, h.withElem]
  exact runsRefine_self _

lemma expand_runsRefine (h : c.Reveals c') : RunsRefine (expand c) (expand c') := by
  unfold expand
  rw [h.shapeAt]
  refine Agrees.bind_same fun s _ => ?_
  cases hextents : c.intsAt? 1 with
  | none => exact Agrees.error_left id _
  | some extents =>
    simp only [h.intsAt?_eq_some hextents, h.withElem]
    exact runsRefine_self _

/-- Without the axes only the rank is known, or nothing if axes are dropped. -/
lemma reduce_runsRefine (h : c.Reveals c') : RunsRefine (reduce c) (reduce c') := by
  unfold reduce
  rw [h.shapeAt, h.node]
  refine Agrees.bind_same fun s hs => ?_
  have hs' : c'.shapeAt 0 = .ok s := (h.shapeAt 0).trans hs
  dsimp only
  rw [h.int]
  cases haxes : c.intsOperand "axes" 1 (reduceOperandVersion c.node.op) with
  | ok axes? =>
    simp only [h.intsOperand_eq_ok haxes, h.int, h.withElem, sameType_looksAtTypes c c' h]
    exact runsRefine_self _
  | error e =>
    dsimp only
    cases hkeep : c.int "keepdims" 1 != 0 with
    | false => exact Agrees.error_left id _
    | true =>
      rw [if_pos rfl, ← h.withElem]
      refine runsRefine_ofRank ?_
      split
      · exact Ensures.ok_iff.mpr ⟨_, rfl, List.length_replicate⟩
      · split
        · exact Ensures.after fun positions =>
            Ensures.ok_iff.mpr ⟨_, rfl, length_reducedDims _ _⟩
        · split_ifs
          · unfold sameType
            rw [Context.typeAt_of_shapeAt hs']
            exact Ensures.ok_iff.mpr ⟨s, rfl, rfl⟩
          · exact Ensures.ok_iff.mpr ⟨_, rfl, length_reducedDims _ _⟩

lemma sliceBounds?_eq_some (h : c.Reveals c') {b : SliceBounds} (hb : sliceBounds? c = some b) :
    sliceBounds? c' = some b := by
  have hoptional {i : Nat} {vs? : Option (List Int)} (hvs : optionalInts? c i = some vs?) :
      optionalInts? c' i = some vs? := by
    unfold optionalInts? at hvs ⊢
    rw [h.has]
    split_ifs at hvs ⊢
    · obtain ⟨vs, hints, rfl⟩ := Option.map_eq_some_iff.mp hvs
      rw [h.intsAt?_eq_some hints]
      rfl
    · exact hvs
  unfold sliceBounds? at hb ⊢
  rw [h.opset, h.has, h.node]
  split_ifs at hb ⊢
  · simp only [Option.bind_eq_bind, Option.bind_eq_some_iff] at hb ⊢
    obtain ⟨starts, hstarts, stops, hstops, axes?, haxes, steps?, hsteps, heq⟩ := hb
    exact ⟨starts, h.intsAt?_eq_some hstarts, stops, h.intsAt?_eq_some hstops, axes?,
      hoptional haxes, steps?, hoptional hsteps, heq⟩
  · exact hb

lemma slice_runsRefine (h : c.Reveals c') : RunsRefine (slice c) (slice c') := by
  unfold slice
  rw [h.shapeAt]
  refine Agrees.bind_same fun s _ => ?_
  cases hb : sliceBounds? c with
  | some b =>
    simp only [sliceBounds?_eq_some h hb, h.withElem]
    exact runsRefine_self _
  | none =>
    dsimp only
    rw [← h.withElem]
    refine runsRefine_ofRank ?_
    split
    · exact Ensures.ok_iff.mpr ⟨_, rfl, List.length_replicate⟩
    · refine Ensures.after fun axes => ?_
      split_ifs
      · exact .error _
      · refine (ensures_length_sliceDims _ _).bind fun dims hlength => ?_
        exact Ensures.ok_iff.mpr ⟨_, rfl, hlength⟩

lemma ensures_length_splitParts (c : Context) (d : Dim) (count : Nat) :
    Ensures (fun parts => parts.length = count) (splitParts c d count) := by
  unfold splitParts
  split
  · exact Ensures.ok_iff.mpr List.length_replicate
  · rename_i sizes _
    split_ifs with hcount
    · exact .error _
    · rw [← not_not.mp hcount]
      exact ensures_length_extents "split" sizes
  · split
    · rename_i extent
      refine Ensures.map (Q := fun parts => parts.length = count) (fun parts hparts => ?_)
        fun parts hlength => by rw [List.length_map, hlength]
      simpa using (mapM_eq_ok_iff.mp hparts).length_eq.symm
    · exact Ensures.ok_iff.mpr List.length_replicate

lemma splitParts_refines (h : c.Reveals c') (d : Dim) (count : Nat) :
    Agrees (fun _ => False) (List.Forall₂ Dim.RefinedBy) (splitParts c d count)
      (splitParts c' d count) := by
  cases hsizes : c.intsOperand "split" 1 splitOperandVersion with
  | ok sizes? =>
    have heq : splitParts c' d count = splitParts c d count := by
      unfold splitParts
      rw [h.intsOperand_eq_ok hsizes, hsizes]
    rw [heq]
    exact Agrees.self fun dims _ => List.forall₂_same.mpr fun d _ => .refl d
  | error e =>
    have hunknown : splitParts c d count = .ok (List.replicate count .unknown) := by
      unfold splitParts
      rw [hsizes]
    rw [hunknown]
    cases hparts : splitParts c' d count with
    | error e => exact Agrees.error_right _ e
    | ok parts =>
      obtain rfl := ensures_length_splitParts c' d count parts hparts
      exact forall₂_replicate_left Dim.refinedBy_unknown parts

lemma split_runsRefine (h : c.Reveals c') : RunsRefine (split c) (split c') := by
  unfold split
  rw [h.shapeAt, h.int, h.node]
  refine Agrees.bind_same fun s _ => Agrees.bind_same fun axis _ => ?_
  split_ifs
  · exact runsRefine_self _
  · refine (splitParts_refines h _ _).bind fun parts parts' hparts => ?_
    refine Agrees.ok_iff.mpr ?_
    rw [List.forall₂_map_left_iff, List.forall₂_map_right_iff]
    refine hparts.imp fun d d' hd => ?_
    rw [h.withElem]
    have hdims : List.Forall₂ Dim.RefinedBy s.dims s.dims :=
      List.forall₂_same.mpr fun d _ => .refl d
    exact TensorType.refinedBy_some (forall₂_set hdims hd axis)

/-! ### Values whose absence is overlooked -/

/-- The paddings are known, but not the axes they are for, which are then taken to be all axes. -/
structure OverlooksAxes (c c' : Context) : Prop where
  pads : ∃ pads?, c.intsOperand "pads" 1 padOperandVersion = .ok pads?
  unread : c.intsAt? 3 = none
  revealed : c'.intsAt? 3 ≠ none

lemma pad_runsRefine (h : c.Reveals c') (haxes : ¬OverlooksAxes c c') :
    RunsRefine (pad c) (pad c') := by
  unfold pad
  rw [h.shapeAt]
  refine Agrees.bind_same fun s _ => ?_
  dsimp only
  cases hpads : c.intsOperand "pads" 1 padOperandVersion with
  | ok pads? =>
    have hsame : c'.intsAt? 3 = c.intsAt? 3 := by
      cases hthree : c.intsAt? 3 with
      | some axes => exact h.intsAt?_eq_some hthree
      | none =>
        by_contra hrevealed
        exact haxes ⟨⟨_, hpads⟩, hthree, hrevealed⟩
    rw [h.intsOperand_eq_ok hpads, h.node, h.withElem, hsame]
    simp only [h.withElem]
    exact runsRefine_self _
  | error e =>
    have hfinish (pads : List Int) : Ensures (c'.HasRank s.rank) (do
        let axes ← axesOrAll s.rank (c'.intsAt? 3)
        let dims ← padDims s axes pads
        return [c'.withElem 0 ⟨dims⟩]) := by
      refine Ensures.after fun axes => ?_
      exact (ensures_length_padDims s axes pads).bind fun dims hlength =>
        Ensures.ok_iff.mpr ⟨_, rfl, hlength⟩
    dsimp only
    rw [← h.withElem]
    refine runsRefine_ofRank ?_
    split
    · exact Ensures.ok_iff.mpr ⟨_, rfl, List.length_replicate⟩
    · exact hfinish _
    · split
      · exact hfinish _
      · exact .error _

/-- The scales are known, but not the sizes, which would outweigh them. -/
structure OverlooksSizes (c c' : Context) : Prop where
  scales : resizeScales? c ≠ none
  unread : resizeSizes? c = none
  revealed : resizeSizes? c' ≠ none

lemma resizeOperands_eq (h : c.Reveals c') : resizeOperands c' = resizeOperands c := by
  unfold resizeOperands
  rw [h.node, h.opset]

lemma resizeSizes?_eq_some (h : c.Reveals c') {sizes : List Int}
    (hsizes : resizeSizes? c = some sizes) : resizeSizes? c' = some sizes := by
  unfold resizeSizes? at hsizes ⊢
  obtain ⟨hsome, hfull⟩ := Option.filter_eq_some_iff.mp hsizes
  obtain ⟨i, hi, hints⟩ := Option.bind_eq_some_iff.mp hsome
  rw [resizeOperands_eq h, hi, Option.bind_some, h.intsAt?_eq_some hints]
  exact Option.filter_eq_some_iff.mpr ⟨rfl, hfull⟩

lemma resizeScales?_eq_some (h : c.Reveals c') {scales : List UInt32}
    (hscales : resizeScales? c = some scales) : resizeScales? c' = some scales := by
  unfold resizeScales? at hscales ⊢
  rw [resizeOperands_eq h, h.node, h.opset]
  dsimp only at hscales ⊢
  split_ifs at hscales ⊢
  · exact hscales
  · obtain ⟨hsome, hfull⟩ := Option.filter_eq_some_iff.mp hscales
    exact Option.filter_eq_some_iff.mpr ⟨h.singlesAt?_eq_some hsome, hfull⟩

lemma resize_runsRefine (h : c.Reveals c') (hsizes : ¬OverlooksSizes c c') :
    RunsRefine (resize c) (resize c') := by
  unfold resize
  rw [h.shapeAt, h.node]
  refine Agrees.bind_same fun s _ => Agrees.bind_same fun axes _ => ?_
  cases hc : resizeSizes? c with
  | some sizes =>
    simp only [resizeSizes?_eq_some h hc, h.withElem]
    exact runsRefine_self _
  | none =>
    cases hscales : resizeScales? c with
    | some scales =>
      have hnone : resizeSizes? c' = none := by
        by_contra hrevealed
        exact hsizes ⟨by simp [hscales], hc, hrevealed⟩
      simp only [hnone, resizeScales?_eq_some h hscales, h.withElem]
      exact runsRefine_self _
    | none =>
      dsimp only
      rw [← h.withElem]
      refine runsRefine_ofRank ?_
      split
      · split_ifs
        · exact .error _
        · exact (ensures_length_updateDims _ s.dims).bind fun dims hlength =>
            Ensures.ok_iff.mpr ⟨_, rfl, hlength⟩
      · split_ifs
        · exact .error _
        · exact (ensures_length_updateDims _ s.dims).bind fun dims hlength =>
            Ensures.ok_iff.mpr ⟨_, rfl, hlength⟩
      · exact Ensures.ok_iff.mpr ⟨_, rfl, List.length_replicate⟩

/-! ### Values that are counted -/

/-- The first extent of an operand is not how many integers it turns out to have. -/
structure Miscounts (i : Nat) (c c' : Context) : Prop where
  unread : c.intsAt? i = none
  revealed : ∃ vs rank s, c'.intsAt? i = some vs ∧ c.shapeAt i = .ok s ∧
    s.dims.head? = some (.known rank) ∧ vs.length ≠ rank

/-- A list of as many values as its type says is counted right. -/
lemma not_miscounts_of_vector {i : Nat} {o' : Operand} {t : Tensor} {n : Nat}
    (h : c.Reveals c') (ho : c'.operand? i = some o') (ht : o'.constant? = some t)
    (htype : t.type = o'.type) (hextents : t.extents = [n])
    (hwhole : ∀ vs, t.ints? = some vs → vs.length = n) : ¬Miscounts i c c' := by
  rintro ⟨_, vs, rank, s, hvs, hs, hhead, hne⟩
  have hshape : c'.shapeAt i = .ok (.ofExtents [n]) := by
    have hsome : o'.type.shape? = some t.shape := by rw [← htype]; rfl
    unfold Context.shapeAt
    rw [ho]
    dsimp only
    rw [hsome, Tensor.shape, hextents]
  rw [h.shapeAt, hs] at hshape
  obtain rfl := Except.ok.inj hshape
  obtain rfl : n = rank := by simpa [Shape.ofExtents] using hhead
  unfold Context.intsAt? Context.constantAt? at hvs
  rw [ho, Option.bind_some, ht, Option.bind_some] at hvs
  obtain ⟨words, hwords, rfl⟩ := Option.map_eq_some_iff.mp hvs
  exact hne ((List.length_map _).trans (hwhole words hwords))

lemma reshapeTarget?_eq_some (h : c.Reveals c') {target : List Int}
    (htarget : reshapeTarget? c = some target) : reshapeTarget? c' = some target := by
  unfold reshapeTarget? at htarget ⊢
  rw [h.opset, h.has, h.node]
  split_ifs at htarget ⊢
  · exact h.intsAt?_eq_some htarget
  · exact htarget

lemma intsAt?_of_reshapeTarget? (h : c.Reveals c') {target : List Int}
    (hnone : reshapeTarget? c = none) (htarget : reshapeTarget? c' = some target) :
    c.intsAt? 1 = none ∧ c'.intsAt? 1 = some target := by
  unfold reshapeTarget? at hnone htarget
  rw [h.opset, h.has, h.node] at htarget
  split_ifs at hnone htarget
  · exact ⟨hnone, htarget⟩
  · rw [hnone] at htarget
    cases htarget

lemma reshape_runsRefine (h : c.Reveals c') (hcount : ¬Miscounts 1 c c') :
    RunsRefine (reshape c) (reshape c') := by
  unfold reshape
  rw [h.typeAt]
  refine Agrees.bind_same fun data _ => ?_
  cases htarget : reshapeTarget? c with
  | some target =>
    simp only [reshapeTarget?_eq_some h htarget, h.int, h.withElem]
    exact runsRefine_self _
  | none =>
    cases htarget' : reshapeTarget? c' with
    | none =>
      simp only [h.operandShape?, h.withElem]
      exact runsRefine_self _
    | some target =>
      obtain ⟨hunread, hrevealed⟩ := intsAt?_of_reshapeTarget? h htarget htarget'
      dsimp only
      split
      -- The only extent of the target's operand is taken for the rank of the result.
      · rename_i rank hdims
        obtain ⟨s, hs, hsdims⟩ := Option.map_eq_some_iff.mp hdims
        have hlength : target.length = rank := by
          by_contra hne
          refine hcount ⟨hunread, target, rank, s, hrevealed, Context.shapeAt_eq_ok hs, ?_, hne⟩
          rw [hsdims, List.head?_cons]
        refine runsRefine_declaredShape ?_
        rw [← h.withElem]
        refine runsRefine_ofRank ?_
        refine (ensures_length_reshapeDims _ _ target).bind fun dims hdims => ?_
        exact Ensures.ok_iff.mpr ⟨_, rfl, hdims.trans hlength⟩
      · exact Agrees.error_left id _

lemma constantOfShape_runsRefine (h : c.Reveals c') (hcount : ¬Miscounts 0 c c') :
    RunsRefine (constantOfShape c) (constantOfShape c') := by
  unfold constantOfShape
  rw [h.node, h.shapeAt]
  cases hextents : c.intsAt? 0 with
  | some extents =>
    rw [h.intsAt?_eq_some hextents]
    exact runsRefine_self _
  | none =>
    cases hextents' : c'.intsAt? 0 with
    | none => exact runsRefine_self _
    | some extents =>
      dsimp only
      cases hs : c.shapeAt 0 with
      | error e => exact Agrees.error_left id _
      | ok s =>
        dsimp only [Bind.bind, Except.bind]
        split
        · rename_i rank hhead
          have hlength : extents.length = rank := by
            by_contra hne
            exact hcount ⟨hextents, extents, rank, s, hextents', hs, hhead, hne⟩
          refine runsRefine_declaredShape (f := .of _) ?_
          cases hdims : extents.mapM (extentOf "input") with
          | error e => exact Agrees.error_right _ e
          | ok dims =>
            obtain rfl : dims.length = rank :=
              (ensures_length_extents "input" extents dims hdims).trans hlength
            exact .cons (TensorType.refinedBy_some (Shape.refinedBy_ofRank ⟨dims⟩)) .nil
        · exact Agrees.error_left id _

end Rule

end TensorGraph
