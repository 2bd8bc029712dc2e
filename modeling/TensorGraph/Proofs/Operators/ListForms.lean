import TensorGraph.Proofs.Wire.Numbers
import TensorGraph.Rule.Registry

/-!
# Lists as settings and as operands

Some operators took lists of integers as settings in their first versions and take them as operands
since. A node of either form has the same types, as long as the operands are constant. It does not
matter whether the elements of such a constant are stored as numbers or as bytes.
-/

namespace TensorGraph

/-! ### Constants that hold a list -/

/-- The bytes of some words, least significant first. -/
def littleEndian (values : List Int64) : Bytes :=
  values.flatMap fun v => Wire.writeWord 8 v.toUInt64.toNat

/-- The elements of a constant are these integers, as numbers or as bytes. -/
def Tensor.Lists (t : Tensor) (values : List Int64) : Prop :=
  t.elem? = some .int64 ∧ (t.payload = .int64s values ∨ t.payload = .raw (littleEndian values))

lemma Wire.chunksExact_append {width : Nat} {chunk : Bytes} (hwidth : 0 < width)
    (hchunk : chunk.length = width) (rest : Bytes) :
    chunksExact width (chunk ++ rest) = chunk :: chunksExact width rest := by
  have hfits : 0 < width ∧ width ≤ (chunk ++ rest).length := by
    rw [List.length_append]
    omega
  rw [chunksExact, dif_pos hfits, List.take_left' hchunk, List.drop_left' hchunk]

lemma chunksExact_littleEndian (values : List Int64) :
    Wire.chunksExact 8 (littleEndian values) =
      values.map fun v => Wire.writeWord 8 v.toUInt64.toNat := by
  induction values with
  | nil => simp [littleEndian, Wire.chunksExact]
  | cons v values ih =>
    have hsplit : littleEndian (v :: values) =
        Wire.writeWord 8 v.toUInt64.toNat ++ littleEndian values := rfl
    rw [hsplit, Wire.chunksExact_append (by omega) (Wire.length_writeWord 8 _), ih, List.map_cons]

lemma toInt64_wordOf_writeWord (v : Int64) :
    (UInt64.ofNat (Wire.wordOf (Wire.writeWord 8 v.toUInt64.toNat))).toInt64 = v := by
  have hfits : v.toUInt64.toNat < 256 ^ 8 := v.toUInt64.toNat_lt
  rw [Wire.wordOf_writeWord hfits]
  simp

lemma Tensor.Lists.ints? {t : Tensor} {values : List Int64} (h : t.Lists values) :
    t.ints? = some values := by
  obtain ⟨helem, hnumbers | hbytes⟩ := h
  · unfold Tensor.ints?
    rw [hnumbers, helem]
  · unfold Tensor.ints?
    rw [hbytes, helem]
    dsimp only
    rw [chunksExact_littleEndian, List.map_map]
    have hsame : ((fun b => (UInt64.ofNat (Wire.wordOf b)).toInt64) ∘
        fun v : Int64 => Wire.writeWord 8 v.toUInt64.toNat) = id := by
      funext v
      exact toInt64_wordOf_writeWord v
    rw [hsame, List.map_id]

/-- The operand is a constant list, and is left out where there is no list. -/
inductive HoldsList : Option (List Int) → Option Operand → Prop
  | absent : HoldsList none none
  | given {type : TensorType} {t : Tensor} (values : List Int64) (h : t.Lists values) :
    HoldsList (some (values.map Int64.toInt)) (some ⟨type, some t⟩)

lemma HoldsList.eq_none {o? : Option Operand} (h : HoldsList none o?) : o? = none := by
  cases h
  rfl

section HoldsList

variable {c : Context} {list? : Option (List Int)} {i : Nat}

lemma HoldsList.intsAt? (h : HoldsList list? (c.operand? i)) : c.intsAt? i = list? := by
  unfold Context.intsAt? Context.constantAt?
  generalize c.operand? i = o? at h
  cases h with
  | absent => rfl
  | given values h => simp [h.ints?]

lemma HoldsList.has (h : HoldsList list? (c.operand? i)) : c.has i = list?.isSome := by
  unfold Context.has
  generalize c.operand? i = o? at h
  cases h <;> rfl

lemma HoldsList.intsOperand {name : String} {since : Int} (h : HoldsList list? (c.operand? i))
    (hsince : since ≤ c.opset) : c.intsOperand name i since = .ok list? := by
  unfold Context.intsOperand
  rw [if_pos (.inl hsince), h.has, h.intsAt?]
  cases list? <;> rfl

lemma HoldsList.optionalInts? (h : HoldsList list? (c.operand? i)) :
    Rule.optionalInts? c i = some list? := by
  unfold Rule.optionalInts?
  rw [h.has, h.intsAt?]
  cases list? <;> rfl

end HoldsList

/-! ### Nodes of either form -/

/-- The lists of an operator that were settings and became operands behind the first one. -/
structure ListForm where
  /-- The first version in which they are operands. -/
  since : Int
  /-- The names that the settings for each operand had; where a node has several, the first. -/
  names : List (List String)
  /-- Positions and former names of other operands. They do not matter to types. -/
  others : List (Nat × String) := []

namespace ListForm

/-- The list that the operand at position `i + 1` takes over. -/
def list? (f : ListForm) (n : Node) (i : Nat) : Option (List Int) :=
  (f.names[i]?).bind fun names => names.findSome? n.ints?

/-- The second node has as operands the lists that the first one has as settings, and is the same
apart from that. -/
structure Moves (f : ListForm) (c c' : Context) : Prop where
  before : c.opset < f.since
  since : f.since ≤ c'.opset
  op : c'.node.op = c.node.op
  outputs : c'.node.outputs = c.node.outputs
  /-- Settings that are not moved stay, and those that are moved are gone. -/
  kept : ∀ name, name ∉ f.names.flatten → name ∉ f.others.map Prod.snd →
    c'.node.attribute? name = c.node.attribute? name
  gone : ∀ name ∈ f.names.flatten, c'.node.attribute? name = none
  data : c'.operand? 0 = c.operand? 0
  /-- The data is the only operand of the first node. -/
  alone : ∀ i, 0 < i → c.operand? i = none
  lists : ∀ i, i + 1 ∉ f.others.map Prod.fst →
    HoldsList (f.list? c.node i) (c'.operand? (i + 1))

namespace Moves

variable {f : ListForm} {c c' : Context}

lemma holdsNone (h : f.Moves c c') {i : Nat} (hi : 0 < i) : HoldsList none (c.operand? i) := by
  rw [h.alone i hi]
  exact .absent

lemma not_operand (h : f.Moves c c') : ¬(f.since ≤ c.opset ∨ c.has 1 = true) := by
  have hbefore := h.before
  rw [(h.holdsNone Nat.one_pos).has]
  simp
  omega

lemma intsOperand_before (h : f.Moves c c') (name : String) {i : Nat} (hi : 0 < i) :
    c.intsOperand name i f.since = .ok (c.node.ints? name) := by
  have hbefore := h.before
  have hnot : ¬(f.since ≤ c.opset ∨ c.opset = 0 ∧ c.has i) := by
    rw [(h.holdsNone hi).has]
    simp
    omega
  unfold Context.intsOperand
  rw [if_neg hnot]

lemma int_eq (h : f.Moves c c') {name : String} {default : Int}
    (hnames : name ∉ f.names.flatten) (hothers : name ∉ f.others.map Prod.snd) :
    c'.int name default = c.int name default := by
  unfold Context.int Node.int?
  rw [h.kept name hnames hothers]

lemma typeAt_eq (h : f.Moves c c') : c'.typeAt 0 = c.typeAt 0 := by
  unfold Context.typeAt
  rw [h.data]

lemma shapeAt_eq (h : f.Moves c c') : c'.shapeAt 0 = c.shapeAt 0 := by
  unfold Context.shapeAt
  rw [h.data]

lemma withElem_eq (h : f.Moves c c') : c'.withElem 0 = c.withElem 0 := by
  unfold Context.withElem Context.elemAt?
  rw [h.data]

lemma int64sAt?_eq (h : f.Moves c c') : c'.int64sAt? 0 = c.int64sAt? 0 := by
  unfold Context.int64sAt? Context.constantAt?
  rw [h.data]

lemma holdsList (h : f.Moves c c') {i : Nat} {name : String} (hname : f.names[i]? = some [name])
    (hother : i + 1 ∉ f.others.map Prod.fst) :
    HoldsList (c.node.ints? name) (c'.operand? (i + 1)) := by
  have hlist : f.list? c.node i = c.node.ints? name := by
    unfold list?
    rw [hname]
    simp
  rw [← hlist]
  exact h.lists i hother

end Moves

/-- The operand behind the data is a list that was a setting. -/
def ofName (since : Int) (name : String) : ListForm := { since, names := [[name]] }

section OfName

variable {since : Int} {name : String} {c c' : Context}

lemma Moves.operandHolds (h : (ofName since name).Moves c c') :
    HoldsList (c.node.ints? name) (c'.operand? 1) :=
  h.holdsList rfl (by simp [ofName])

lemma Moves.intsOperand_eq (h : (ofName since name).Moves c c') :
    c'.intsOperand name 1 since = c.intsOperand name 1 since := by
  have hbefore := h.intsOperand_before name Nat.one_pos
  exact (h.operandHolds.intsOperand h.since).trans hbefore.symm

lemma Moves.setting_eq (h : (ofName since name).Moves c c') {other : String} {default : Int}
    (hother : other ≠ name) : c'.int other default = c.int other default :=
  h.int_eq (by simpa [ofName] using hother) (by simp [ofName])

end OfName

def pads : ListForm where
  since := 11
  names := [["pads", "paddings"]]
  others := [(2, "value")]

def sliceBounds : ListForm where
  since := 10
  names := [["starts"], ["ends"], ["axes"]]

end ListForm

open ListForm in
/-- The operators whose lists became operands. -/
def listForms : List (String × ListForm) :=
  [("Reshape", ofName 5 "shape"), ("Squeeze", ofName 13 "axes"), ("Unsqueeze", ofName 13 "axes"),
   ("Split", ofName 13 "split"), ("Pad", pads), ("Slice", sliceBounds),
   ("ReduceSum", ofName 13 "axes"), ("ReduceMean", ofName 18 "axes"),
   ("ReduceMax", ofName 18 "axes"), ("ReduceMin", ofName 18 "axes"),
   ("ReduceProd", ofName 18 "axes"), ("ReduceL2", ofName 18 "axes")]

namespace Rule

open ListForm

variable {c c' : Context}

lemma reshape_eq_of_moves (h : (ofName reshapeOperandVersion "shape").Moves c c') :
    reshape c' = reshape c := by
  have hbefore : ¬(reshapeOperandVersion ≤ c.opset ∨ c.has 1 = true) := h.not_operand
  have htarget : reshapeTarget? c' = c.node.ints? "shape" := by
    unfold reshapeTarget?
    rw [if_pos (.inl h.since)]
    exact h.operandHolds.intsAt?
  have htarget' : reshapeTarget? c = c.node.ints? "shape" := by
    unfold reshapeTarget?
    rw [if_neg hbefore]
  have hzero : c'.int "allowzero" 0 = c.int "allowzero" 0 := h.setting_eq (by decide)
  have hholds := h.operandHolds
  unfold reshape
  rw [h.typeAt_eq, htarget, htarget', hzero, h.withElem_eq]
  cases htarget : c.node.ints? "shape" with
  | some target => rfl
  | none =>
    rw [htarget] at hholds
    rw [hholds.eq_none, h.alone 1 Nat.one_pos]

lemma squeeze_eq_of_moves (h : (ofName axesOperandVersion "axes").Moves c c') :
    squeeze c' = squeeze c := by
  unfold squeeze squeezeAxes
  rw [h.shapeAt_eq, h.intsOperand_eq, h.withElem_eq]

lemma unsqueeze_eq_of_moves (h : (ofName axesOperandVersion "axes").Moves c c') :
    unsqueeze c' = unsqueeze c := by
  unfold unsqueeze
  rw [h.shapeAt_eq, h.intsOperand_eq, h.withElem_eq]

lemma split_eq_of_moves (h : (ofName splitOperandVersion "split").Moves c c') :
    split c' = split c := by
  have haxis : c'.int "axis" 0 = c.int "axis" 0 := h.setting_eq (by decide)
  unfold split splitParts
  rw [h.shapeAt_eq, haxis, h.outputs, h.intsOperand_eq, h.withElem_eq]

lemma reduce_eq_of_moves (h : (ofName (reduceOperandVersion c.node.op) "axes").Moves c c') :
    reduce c' = reduce c := by
  have hkeep : c'.int "keepdims" 1 = c.int "keepdims" 1 := h.setting_eq (by decide)
  have hnoop : c'.int "noop_with_empty_axes" 0 = c.int "noop_with_empty_axes" 0 :=
    h.setting_eq (by decide)
  have hsame : sameType c' = sameType c := by
    unfold sameType
    rw [h.typeAt_eq]
  unfold reduce
  rw [h.shapeAt_eq, hkeep, hnoop, h.op, h.intsOperand_eq, h.withElem_eq, hsame]

lemma pad_eq_of_moves (h : pads.Moves c c') : pad c' = pad c := by
  have hholds : HoldsList (["pads", "paddings"].findSome? c.node.ints?) (c'.operand? 1) :=
    h.lists 0 (by decide)
  have hbefore : c.intsOperand "pads" 1 padOperandVersion = .ok (c.node.ints? "pads") :=
    h.intsOperand_before "pads" Nat.one_pos
  have hafter : c'.intsOperand "pads" 1 padOperandVersion =
      .ok (["pads", "paddings"].findSome? c.node.ints?) := hholds.intsOperand h.since
  have haxes : HoldsList none (c.operand? 3) := h.holdsNone (by omega)
  have haxes' : HoldsList none (c'.operand? 3) := h.lists 2 (by decide)
  have hgone : c'.node.ints? "paddings" = none := by
    unfold Node.ints?
    rw [h.gone "paddings" (by decide)]
    rfl
  unfold pad
  rw [h.shapeAt_eq, hbefore, hafter, haxes.intsAt?, haxes'.intsAt?, hgone, h.withElem_eq]
  cases hpads : c.node.ints? "pads" with
  | some values => simp [hpads]
  | none =>
    cases hpaddings : c.node.ints? "paddings" with
    | some values => simp [hpads, hpaddings]
    | none => simp [hpads, hpaddings]

lemma slice_eq_of_moves (h : sliceBounds.Moves c c') : slice c' = slice c := by
  have hbefore : ¬(sliceOperandVersion ≤ c.opset ∨ c.has 1 = true) := h.not_operand
  have hstarts : HoldsList (c.node.ints? "starts") (c'.operand? 1) := h.holdsList rfl (by decide)
  have hstops : HoldsList (c.node.ints? "ends") (c'.operand? 2) := h.holdsList rfl (by decide)
  have haxes : HoldsList (c.node.ints? "axes") (c'.operand? 3) := h.holdsList rfl (by decide)
  have hsteps : HoldsList none (c'.operand? 4) := h.lists 3 (by decide)
  have hbounds : sliceBounds? c' = sliceBounds? c := by
    unfold sliceBounds?
    rw [if_pos (.inl h.since), if_neg hbefore, hstarts.intsAt?, hstops.intsAt?,
      haxes.optionalInts?, hsteps.optionalInts?]
    rfl
  unfold slice
  rw [h.shapeAt_eq, hbounds, h.withElem_eq]

lemma relayout_fold_eq {infer : Context → Typing} (hinfer : infer c' = infer c)
    (hdata : c'.int64sAt? 0 = c.int64sAt? 0) :
    (relayout infer).fold c' = (relayout infer).fold c := by
  unfold relayout
  dsimp only
  rw [hinfer, hdata]

end Rule

namespace Registry

open Rule

/-- The rule of an operator answers nodes of either form alike. -/
def AnswersAlike (op : String) (f : ListForm) : Prop :=
  ∀ c c' : Context, c.node.op = op → f.Moves c c' →
    ∃ rule, builtin.rule? op = some rule ∧ rule.infer c' = rule.infer c ∧
      rule.fold c' = rule.fold c

lemma answersAlike_of_infer {op : String} {f : ListForm} {infer : Context → Typing}
    (hrule : builtin.rule? op = some { infer })
    (hinfer : ∀ {c c' : Context}, f.Moves c c' → infer c' = infer c) : AnswersAlike op f :=
  fun _ _ _ hmoves => ⟨{ infer }, hrule, hinfer hmoves, rfl⟩

lemma answersAlike_of_relayout {op : String} {f : ListForm} {infer : Context → Typing}
    (hrule : builtin.rule? op = some (relayout infer))
    (hinfer : ∀ {c c' : Context}, f.Moves c c' → infer c' = infer c) : AnswersAlike op f := by
  intro c c' _ hmoves
  have htypes := hinfer hmoves
  exact ⟨relayout infer, hrule, htypes, relayout_fold_eq htypes hmoves.int64sAt?_eq⟩

lemma answersAlike_of_reduce {op : String} (hrule : builtin.rule? op = some { infer := reduce }) :
    AnswersAlike op (.ofName (reduceOperandVersion op) "axes") := by
  intro c c' hop hmoves
  have htypes : reduce c' = reduce c := reduce_eq_of_moves (hop ▸ hmoves)
  exact ⟨_, hrule, htypes, rfl⟩

lemma listForms_answerAlike : ∀ p ∈ listForms, AnswersAlike p.1 p.2 := by
  simp only [listForms, List.forall_mem_cons]
  refine ⟨?reshape, ?squeeze, ?unsqueeze, ?split, ?pad, ?slice, ?sum, ?mean, ?max, ?min, ?prod,
    ?l2, List.forall_mem_nil _⟩
  case reshape => exact answersAlike_of_relayout rfl reshape_eq_of_moves
  case squeeze => exact answersAlike_of_relayout rfl squeeze_eq_of_moves
  case unsqueeze => exact answersAlike_of_relayout rfl unsqueeze_eq_of_moves
  case split => exact answersAlike_of_infer rfl split_eq_of_moves
  case pad => exact answersAlike_of_infer rfl pad_eq_of_moves
  case slice => exact answersAlike_of_infer rfl slice_eq_of_moves
  all_goals exact answersAlike_of_reduce rfl

/-- A built-in rule gives nodes of either form the same types, or the same error, and folds them to
the same constants. -/
theorem builtin_infer_eq_of_moves {op : String} {f : ListForm} {c c' : Context}
    (hform : (op, f) ∈ listForms) (hop : c.node.op = op) (hmoves : f.Moves c c') :
    ∃ rule, builtin.rule? op = some rule ∧ rule.infer c' = rule.infer c ∧
      rule.fold c' = rule.fold c :=
  listForms_answerAlike _ hform c c' hop hmoves

/-- The bounds of a slice, as settings and as constants of either kind. -/
theorem builtin_infer_eq_of_moved_bounds :
    let x : Option Operand := some { type := .of .float (.ofExtents [5, 2]) }
    let constant (payload : Payload) : Option Operand :=
      some ⟨.unknown, some { name := "", elem? := some .int64, extents := [1], payload }⟩
    let settings : Attributes :=
      { entries := [("axes", .ints [0]), ("ends", .ints [-1]), ("starts", .ints [1])] }
    let node : Node := { op := "Slice", inputs := ["x"], outputs := ["y"] }
    let c : Context := ⟨{ node with attributes := settings }, [x], 9⟩
    let c' : Context :=
      ⟨node, [x, constant (.raw [1, 0, 0, 0, 0, 0, 0, 0]), constant (.int64s [-1]),
        constant (.raw [0, 0, 0, 0, 0, 0, 0, 0])], 13⟩
    ("Slice", ListForm.sliceBounds) ∈ listForms ∧ ListForm.sliceBounds.Moves c c' ∧
      slice c = .ok [.of .float (.ofExtents [3, 2])] ∧
      ∃ rule, builtin.rule? "Slice" = some rule ∧ rule.infer c' = rule.infer c ∧
        rule.fold c' = rule.fold c := by
  intro x constant settings node c c'
  have hform : ("Slice", ListForm.sliceBounds) ∈ listForms := by simp [listForms]
  have hmoves : ListForm.sliceBounds.Moves c c' := by
    refine ⟨by decide, by decide, rfl, rfl, ?kept, fun _ _ => rfl, rfl, ?alone, ?lists⟩
    case kept =>
      intro name hname _
      have hmoved : ∀ p ∈ settings.entries, p.1 ∈ [["starts"], ["ends"], ["axes"]].flatten := by
        decide
      have hlookup : settings.get? name = none := by
        rw [Attributes.get?, List.lookup_eq_none_iff]
        intro p hp
        rw [bne_iff_ne]
        intro heq
        exact hname (heq ▸ hmoved p hp)
      exact hlookup.symm
    case alone =>
      intro i hi
      cases i with
      | zero => omega
      | succ i => rfl
    case lists =>
      intro i _
      match i with
      | 0 => exact .given [1] ⟨rfl, .inr (by decide)⟩
      | 1 => exact .given [-1] ⟨rfl, .inl rfl⟩
      | 2 => exact .given [0] ⟨rfl, .inr (by decide)⟩
      | i + 3 => exact .absent
  have htypes : slice c = .ok [.of .float (.ofExtents [3, 2])] := by rfl
  exact ⟨hform, hmoves, htypes, builtin_infer_eq_of_moves hform rfl hmoves⟩

end Registry

end TensorGraph
