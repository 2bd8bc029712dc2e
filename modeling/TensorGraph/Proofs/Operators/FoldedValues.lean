import Mathlib.Algebra.Group.Nat.Defs
import TensorGraph.Proofs.Aborts
import TensorGraph.Proofs.Names.Types
import TensorGraph.Rule.Registry

/-!
# Types of computed results

Some rules compute the results of a node along with their types. They find the extents of a result
twice, and by different routes. Both agree, as long as the type of a constant operand is the one of
its value and the value has as many integers as its extents call for.
-/

namespace TensorGraph

/-- The value of an operand has the type of the operand, and as many integers as its extents call
for. -/
structure Operand.Whole (o : Operand) : Prop where
  type : ∀ t, o.constant? = some t → o.type = t.type
  count : ∀ t, o.constant? = some t → ∀ vs, t.ints? = some vs → vs.length = t.extents.prod

namespace Context

variable {c : Context}

/-- All operands are whole. -/
def Whole (c : Context) : Prop := ∀ o, some o ∈ c.operands → o.Whole

lemma Whole.operand? (h : c.Whole) {i : Nat} {t : Tensor} (ht : c.constantAt? i = some t) :
    c.operand? i = some ⟨t.type, some t⟩ := by
  obtain ⟨o, ho, hvalue⟩ := Option.bind_eq_some_iff.mp ht
  have hmem : some o ∈ c.operands := List.mem_of_getElem? (operand?_eq_some_iff.mp ho)
  obtain ⟨type, constant?⟩ := o
  have htype : type = t.type := (h _ hmem).type t hvalue
  have hconstant : constant? = some t := hvalue
  rw [ho, htype, hconstant]

lemma Whole.length_ints? (h : c.Whole) {i : Nat} {t : Tensor} (ht : c.constantAt? i = some t)
    {vs : List Int64} (hvs : t.ints? = some vs) : vs.length = t.extents.prod := by
  have hmem := List.mem_of_getElem? (operand?_eq_some_iff.mp (h.operand? ht))
  exact (h _ hmem).count t rfl vs hvs

lemma Whole.shapeAt (h : c.Whole) {i : Nat} {t : Tensor} (ht : c.constantAt? i = some t) :
    c.shapeAt i = .ok t.shape := by
  unfold Context.shapeAt
  rw [h.operand? ht]
  rfl

lemma Whole.elemAt? (h : c.Whole) {i : Nat} {t : Tensor} (ht : c.constantAt? i = some t) :
    c.elemAt? i = t.elem? := by
  unfold Context.elemAt?
  rw [h.operand? ht]
  rfl

lemma int64sAt?_eq_some_iff {i : Nat} {vs : List Int64} :
    c.int64sAt? i = some vs ↔
      ∃ t, c.constantAt? i = some t ∧ t.elem? = some .int64 ∧ t.ints? = some vs := by
  simp [int64sAt?, Option.bind_eq_some_iff]

end Context

namespace Rule

variable {c : Context} {values : List (Option Tensor)} {types : List TensorType}

/-- If the rule both gives types and computes results, there is one result, and it has the type. The
extents of the results are taken to be machine words. -/
def TypesItsFold (rule : Rule) : Prop :=
  ∀ c values types, c.Whole → rule.infer c = .ok types → rule.fold c = some values →
    (∀ t, some t ∈ values → ∀ n ∈ t.extents, n < wordLimit) →
    ∃ t, values = [some t] ∧ types = [t.type]

lemma typesItsFold_of_infer (infer : Context → Typing) : TypesItsFold { infer } :=
  fun _ _ _ _ _ hfold _ => nomatch hfold

lemma type_ofIntegers (extents : List Nat) (ints : List Int64) :
    (Tensor.ofIntegers "" extents ints).type = .of .int64 (.ofExtents extents) := rfl

/-! ### Changes of shape -/

lemma extents?_eq_some_iff {s : Shape} {extents : List Nat} :
    s.extents? = some extents ↔ s = .ofExtents extents := by
  have hdim : ∀ (d : Dim) (n : Nat), d.extent? = some n ↔ d = .known n := by
    intro d n
    cases d <;> simp [Dim.extent?]
  unfold Shape.extents? Shape.ofExtents
  rw [mapM_eq_some_iff]
  simp only [hdim]
  rw [← List.forall₂_map_right_iff, List.forall₂_eq_eq_eq]
  cases s
  simp

/-- The rule gives one type, with the elements of the first operand. -/
def KeepsElem (infer : Context → Typing) : Prop :=
  ∀ c, Ensures (fun types => ∃ shape?, types = [⟨c.elemAt? 0, shape?⟩]) (infer c)

lemma ensures_elem_withElem (c : Context) (s : Shape) :
    Ensures (fun types => ∃ shape?, types = [⟨c.elemAt? 0, shape?⟩])
      (.ok [c.withElem 0 s] : Typing) :=
  Ensures.ok_iff.mpr ⟨some s, rfl⟩

lemma reshape_keepsElem : KeepsElem reshape := by
  intro c
  refine Ensures.after fun data => ?_
  split
  · exact Ensures.after fun dims => ensures_elem_withElem c _
  · split
    · exact Ensures.after fun s => ensures_elem_withElem c s
    · exact .error _

lemma flatten_keepsElem : KeepsElem flatten := by
  intro c
  refine Ensures.after fun shape => ?_
  dsimp only
  generalize (if c.int "axis" 1 < 0 then c.int "axis" 1 + shape.rank else c.int "axis" 1) = position
  split_ifs
  · exact .error _
  · exact ensures_elem_withElem c _

lemma squeeze_keepsElem : KeepsElem squeeze := fun c =>
  Ensures.after fun _ => Ensures.after fun _ => Ensures.after fun _ => ensures_elem_withElem c _

lemma unsqueeze_keepsElem : KeepsElem unsqueeze := by
  intro c
  refine Ensures.after fun shape => Ensures.after fun axes? => ?_
  cases axes? with
  | none => exact .error _
  | some axes =>
    refine Ensures.after fun positions => ?_
    dsimp only
    split_ifs
    · exact .error _
    · exact ensures_elem_withElem c _

lemma sameType_keepsElem : KeepsElem sameType := by
  intro c types htypes
  unfold sameType Context.typeAt at htypes
  unfold Context.elemAt?
  cases ho : c.operand? 0 with
  | none =>
    rw [ho] at htypes
    cases htypes
  | some o =>
    rw [ho] at htypes
    exact ⟨o.type.shape?, (Except.ok.inj htypes).symm⟩

lemma exists_of_relayout_fold {infer : Context → Typing}
    (h : (relayout infer).fold c = some values) :
    ∃ ints type rest extents, c.int64sAt? 0 = some ints ∧ infer c = .ok (type :: rest) ∧
      type.shape? = some (.ofExtents extents) ∧
      values = [some (.ofIntegers "" extents ints)] := by
  obtain ⟨ints, hints, h⟩ := Option.bind_eq_some_iff.mp h
  obtain ⟨types, htypes, h⟩ := Option.bind_eq_some_iff.mp h
  obtain ⟨type, htype, h⟩ := Option.bind_eq_some_iff.mp h
  obtain ⟨extents, hextents, hvalues⟩ := Option.bind_eq_some_iff.mp h
  obtain ⟨s, hs, hsextents⟩ := Option.bind_eq_some_iff.mp hextents
  obtain ⟨rest, rfl⟩ := List.head?_eq_some_iff.mp htype
  rw [extents?_eq_some_iff.mp hsextents] at hs
  exact ⟨ints, type, rest, extents, hints, toOption_eq_some_iff.mp htypes, hs,
    (Option.some.inj hvalues).symm⟩

lemma relayout_typesItsFold {infer : Context → Typing} (hinfer : KeepsElem infer) :
    (relayout infer).TypesItsFold := by
  intro c values types hwhole htypes hfold _
  obtain ⟨ints, type, rest, extents, hints, hanswer, hextents, rfl⟩ := exists_of_relayout_fold hfold
  obtain rfl : types = type :: rest := Except.ok.inj (htypes.symm.trans hanswer)
  obtain ⟨shape?, hsingle⟩ := hinfer c _ hanswer
  obtain ⟨t, ht, hint64, _⟩ := Context.int64sAt?_eq_some_iff.mp hints
  obtain ⟨rfl, rfl⟩ := List.cons.inj hsingle
  obtain rfl : shape? = some (.ofExtents extents) := hextents
  refine ⟨_, rfl, ?_⟩
  rw [hwhole.elemAt? ht, hint64]
  rfl

/-! ### Concatenation -/

lemma integerList?_eq_some_iff {i : Nat} {ints : List Int64} :
    integerList? c i = some ints ↔
      ∃ t, c.constantAt? i = some t ∧ t.extents.length = 1 ∧ t.elem? = some .int64 ∧
        t.ints? = some ints := by
  unfold integerList? Context.int64sAt?
  cases c.constantAt? i with
  | none => simp
  | some t => simp

lemma shapeAt_of_integerList? (hwhole : c.Whole) {i : Nat} {ints : List Int64}
    (h : integerList? c i = some ints) : c.shapeAt i = .ok (.ofExtents [ints.length]) := by
  obtain ⟨t, ht, hlist, _, hints⟩ := integerList?_eq_some_iff.mp h
  obtain ⟨n, hn⟩ := List.length_eq_one_iff.mp hlist
  have hlength : ints.length = n := by
    rw [hwhole.length_ints? ht hints, hn]
    simp
  rw [hwhole.shapeAt ht, Tensor.shape, hn, hlength]

/-- The elements of the first of several lists are those of the result. -/
lemma findSome?_elem_of_integerLists (hwhole : c.Whole) {ints : List Int64}
    {parts : List (List Int64)}
    (h : List.Forall₂ (fun p ints => integerList? c p.1 = some ints) c.present (ints :: parts)) :
    (c.present.findSome? fun (_, o) => o.type.elem?) = some .int64 := by
  obtain ⟨⟨i, o⟩, present, hfirst, _, hpresent⟩ := List.forall₂_cons_right_iff.mp h
  have ho : c.operand? i = some o := by
    apply Context.operand?_of_mem_present
    rw [hpresent]
    exact List.mem_cons_self
  obtain ⟨t, ht, _, hint64, _⟩ := integerList?_eq_some_iff.mp hfirst
  obtain rfl : o = ⟨t.type, some t⟩ := Option.some.inj (ho.symm.trans (hwhole.operand? ht))
  have helem : t.type.elem? = some .int64 := hint64
  rw [hpresent, List.findSome?_cons]
  dsimp only
  rw [helem]

lemma joinNext_lists {m n k : Nat} (h : n + k < wordLimit) :
    joinNext 0 (.ofExtents [m]) [.known n] (.ofExtents [k]) = .ok [.known (n + k)] := by
  simp [joinNext, Shape.ofExtents, Shape.rank, joinDims, sumDim, wordDim, h]

lemma foldlM_joinNext_lists {m n : Nat} {parts : List (List Int64)}
    (h : n + parts.flatten.length < wordLimit) :
    (parts.map fun ints => Shape.ofExtents [ints.length]).foldlM (joinNext 0 (.ofExtents [m]))
      [.known n] = .ok [.known (n + parts.flatten.length)] := by
  induction parts generalizing n with
  | nil => rfl
  | cons ints parts ih =>
    rw [List.flatten_cons, List.length_append, ← Nat.add_assoc] at h ⊢
    have hnext : n + ints.length < wordLimit := by omega
    rw [List.map_cons, List.foldlM_cons, joinNext_lists hnext]
    exact ih h

lemma exists_of_concatFold (h : concatFold c = some values) :
    ∃ parts, List.Forall₂ (fun p ints => integerList? c p.1 = some ints) c.present parts ∧
      values = [some (.ofIntegers "" [parts.flatten.length] parts.flatten)] := by
  obtain ⟨parts, hparts, h⟩ := Option.bind_eq_some_iff.mp h
  exact ⟨parts, mapM_eq_some_iff.mp hparts, (Option.some.inj h).symm⟩

lemma exists_of_concatInfer (h : concatInfer c = .ok types) :
    ∃ axis first rest position dims,
      (c.present.mapM fun (i, _) => c.shapeAt i) = .ok (first :: rest) ∧
      axisIn first.rank axis = .ok position ∧
      rest.foldlM (joinNext position first) first.dims = .ok dims ∧
      types = [⟨c.present.findSome? fun (_, o) => o.type.elem?, some ⟨dims⟩⟩] := by
  unfold concatInfer at h
  cases haxis : c.node.int? "axis" with
  | none =>
    rw [haxis] at h
    cases h
  | some axis =>
    rw [haxis] at h
    obtain ⟨shapes, hshapes, h⟩ := bind_eq_ok_iff.mp h
    cases shapes with
    | nil => cases h
    | cons first rest =>
      obtain ⟨position, hposition, h⟩ := bind_eq_ok_iff.mp h
      obtain ⟨dims, hdims, h⟩ := bind_eq_ok_iff.mp h
      exact ⟨axis, first, rest, position, dims, hshapes, hposition, hdims,
        (Except.ok.inj h).symm⟩

lemma concat_typesItsFold : concat.TypesItsFold := by
  intro c values types hwhole htypes hfold hwords
  obtain ⟨parts, hparts, rfl⟩ := exists_of_concatFold hfold
  obtain ⟨axis, first, rest, position, dims, hshapes, hposition, hdims, rfl⟩ :=
    exists_of_concatInfer htypes
  have hlists : (c.present.mapM fun (i, _) => c.shapeAt i) =
      .ok (parts.map fun ints => Shape.ofExtents [ints.length]) := by
    rw [mapM_eq_ok_iff, List.forall₂_map_right_iff]
    exact hparts.imp fun _ _ hints => shapeAt_of_integerList? hwhole hints
  have hall := Except.ok.inj (hshapes.symm.trans hlists)
  cases parts with
  | nil => cases hall
  | cons ints parts =>
    obtain ⟨rfl, rfl⟩ := List.cons.inj hall
    have helem := findSome?_elem_of_integerLists hwhole hparts
    have hfits : ints.length + parts.flatten.length < wordLimit := by
      simpa [Tensor.ofIntegers] using hwords
    obtain rfl : position = 0 := Nat.lt_one_iff.mp (axisIn_lt hposition)
    obtain rfl := Except.ok.inj ((foldlM_joinNext_lists hfits).symm.trans hdims)
    refine ⟨_, rfl, ?_⟩
    rw [helem, type_ofIntegers, List.flatten_cons, List.length_append]
    rfl

/-! ### Picked entries and shapes -/

lemma exists_of_gatherFold (h : gatherFold c = some values) :
    ∃ data indices picked, c.constantAt? 0 = some data ∧ data.extents.length = 1 ∧
      data.elem? = some .int64 ∧ c.constantAt? 1 = some indices ∧
      values = [some (.ofIntegers "" indices.extents picked)] := by
  obtain ⟨data, hdata, h⟩ := Option.bind_eq_some_iff.mp h
  by_cases hlist : data.extents.length = 1
  · simp only [hlist, ne_eq, not_true_eq_false, if_false] at h
    obtain ⟨ints, hints, h⟩ := Option.bind_eq_some_iff.mp h
    obtain ⟨indices, hindices, h⟩ := Option.bind_eq_some_iff.mp h
    obtain ⟨positions, _, h⟩ := Option.bind_eq_some_iff.mp h
    obtain ⟨picked, _, h⟩ := Option.bind_eq_some_iff.mp h
    obtain ⟨t, ht, hint64, _⟩ := Context.int64sAt?_eq_some_iff.mp hints
    obtain rfl : data = t := Option.some.inj (hdata.symm.trans ht)
    exact ⟨data, indices, picked, hdata, hlist, hint64, hindices, (Option.some.inj h).symm⟩
  · simp [hlist] at h

lemma gather_typesItsFold : gather.TypesItsFold := by
  intro c values types hwhole htypes hfold _
  obtain ⟨data, indices, picked, hdata, hlist, hint64, hindices, rfl⟩ := exists_of_gatherFold hfold
  obtain ⟨n, hn⟩ := List.length_eq_one_iff.mp hlist
  have hshape : c.shapeAt 0 = .ok (.ofExtents [n]) := by
    rw [hwhole.shapeAt hdata, Tensor.shape, hn]
  obtain ⟨s, hs, htypes⟩ := bind_eq_ok_iff.mp htypes
  obtain ⟨s', hs', htypes⟩ := bind_eq_ok_iff.mp htypes
  obtain ⟨axis, haxis, hanswer⟩ := bind_eq_ok_iff.mp htypes
  obtain rfl : s = .ofExtents [n] := Except.ok.inj (hs.symm.trans hshape)
  obtain rfl : s' = indices.shape := Except.ok.inj (hs'.symm.trans (hwhole.shapeAt hindices))
  obtain rfl : axis = 0 := Nat.lt_one_iff.mp (axisIn_lt haxis)
  refine ⟨_, rfl, ?_⟩
  rw [← Except.ok.inj hanswer, Context.withElem, hwhole.elemAt? hdata, hint64]
  simp [Tensor.type, Tensor.shape, Tensor.ofIntegers, Shape.ofExtents]

lemma shapeRange_le (c : Context) (rank : Nat) :
    (shapeRange c rank).1 ≤ rank ∧ (shapeRange c rank).2 ≤ rank := by
  unfold shapeRange
  dsimp only
  omega

lemma exists_of_shapeFold (h : shapeFold c = some values) :
    ∃ s ints, c.shapeAt 0 = .ok s ∧
      ints.length = (shapeRange c s.rank).2 - (shapeRange c s.rank).1 ∧
      values = [some (.ofIntegers "" [ints.length] ints)] := by
  obtain ⟨s, hs, h⟩ := Option.bind_eq_some_iff.mp h
  obtain ⟨_, hstop⟩ := shapeRange_le c s.rank
  cases hrange : shapeRange c s.rank with
  | mk start stop =>
    rw [hrange] at h hstop
    obtain ⟨ints, hints, h⟩ := Option.bind_eq_some_iff.mp h
    have hcount := (mapM_eq_some_iff.mp hints).length_eq
    rw [List.length_drop, List.length_take] at hcount
    have hlength : ints.length = stop - start := by
      unfold Shape.rank at hstop
      dsimp only at hstop
      omega
    refine ⟨s, ints, toOption_eq_some_iff.mp hs, ?_, (Option.some.inj h).symm⟩
    rw [hrange, hlength]

lemma shapeOf_typesItsFold : shapeOf.TypesItsFold := by
  intro c values types _ htypes hfold _
  obtain ⟨s, ints, hs, hlength, rfl⟩ := exists_of_shapeFold hfold
  obtain ⟨s', hs', htypes⟩ := bind_eq_ok_iff.mp htypes
  obtain rfl : s' = s := Except.ok.inj (hs'.symm.trans hs)
  refine ⟨_, rfl, ?_⟩
  rw [type_ofIntegers, hlength]
  exact (Except.ok.inj htypes).symm

lemma constant_typesItsFold : constant.TypesItsFold := by
  intro c values types _ htypes hfold _
  unfold constant at htypes hfold
  dsimp only at htypes hfold
  obtain ⟨t, ht, rfl⟩ := Option.map_eq_some_iff.mp hfold
  rw [ht] at htypes
  exact ⟨t, rfl, (Except.ok.inj htypes).symm⟩

end Rule

namespace Registry

open Rule

lemma builtin_typesItsFold : ∀ p ∈ builtin.rules, p.2.TypesItsFold := by
  simp only [builtin, List.forall_mem_append, List.forall_mem_cons, forall_mem_sharing]
  simp [typesItsFold_of_infer, relayout_typesItsFold, reshape_keepsElem, flatten_keepsElem,
    squeeze_keepsElem, unsqueeze_keepsElem, sameType_keepsElem, concat_typesItsFold,
    gather_typesItsFold, shapeOf_typesItsFold, constant_typesItsFold]

/-- If a built-in rule both gives types and computes results, there is one result, and the rule
gives just its type. The extents of a tensor are machine words; without that, the lists that are
joined could be too long for their type to say so. -/
theorem builtin_infer_of_fold {op : String} {rule : Rule} {c : Context}
    {values : List (Option Tensor)} {types : List TensorType} (hrule : builtin.rule? op = some rule)
    (hwhole : ∀ o, some o ∈ c.operands → o.Whole) (htypes : rule.infer c = .ok types)
    (hfold : rule.fold c = some values)
    (hwords : ∀ t, some t ∈ values → ∀ n ∈ t.extents, n < wordLimit) :
    ∃ t, values = [some t] ∧ types = [t.type] :=
  builtin_typesItsFold _ (mem_of_rule? hrule) c values types hwhole htypes hfold hwords

theorem builtin_infer_of_joined_lists :
    let list (values : List Int64) : Operand :=
      let t := Tensor.ofIntegers "" [values.length] values
      ⟨t.type, some t⟩
    let attributes : Attributes := { entries := [("axis", .int (-1))] }
    let node : Node := { op := "Concat", inputs := ["a", "", "b"], outputs := ["y"], attributes }
    let c : Context := ⟨node, [some (list [1, 2]), none, some (list [3])], 13⟩
    let joined := Tensor.ofIntegers "" [3] [1, 2, 3]
    builtin.rule? "Concat" = some concat ∧ (∀ o, some o ∈ c.operands → o.Whole) ∧
      concat.infer c = .ok [joined.type] ∧ concat.fold c = some [some joined] ∧
      (∀ n ∈ joined.extents, n < wordLimit) ∧
      ∃ t, [some joined] = [some t] ∧ [joined.type] = [t.type] := by
  intro list attributes node c joined
  have hrule : builtin.rule? "Concat" = some concat := by rfl
  have hlist : ∀ values : List Int64, (list values).Whole := by
    intro values
    refine ⟨fun t ht => ?type, fun t ht vs hvs => ?count⟩
    case type =>
      obtain rfl := Option.some.inj ht
      rfl
    case count =>
      obtain rfl := Option.some.inj ht
      obtain rfl := Option.some.inj hvs
      simp [Tensor.ofIntegers]
  have hwhole : ∀ o, some o ∈ c.operands → o.Whole := by
    simp [c, hlist]
  have htypes : concat.infer c = .ok [joined.type] := by rfl
  have hfold : concat.fold c = some [some joined] := by rfl
  have hwords : ∀ n ∈ joined.extents, n < wordLimit := by decide
  have hresult : ∀ t, some t ∈ [some joined] → ∀ n ∈ t.extents, n < wordLimit := by
    simpa using hwords
  exact ⟨hrule, hwhole, htypes, hfold, hwords,
    builtin_infer_of_fold hrule hwhole htypes hfold hresult⟩

end Registry

end TensorGraph
