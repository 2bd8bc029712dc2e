import TensorGraph.Proofs.Revealed.Rules

/-!
# Built-in rules on revealed operands

Once the value of an operand becomes known, the answer of a built-in rule is refined, unless the
rule had overlooked that there is a value, or had counted wrong how many entries it has.
-/

namespace TensorGraph.Registry

open Rule

/-- The operators that overlook a value before it is known, or count its entries wrong. -/
def Overlooks (op : String) (c c' : Context) : Prop :=
  (op = "Pad" ∧ OverlooksAxes c c') ∨
    ((op = "Resize" ∨ op = "Upsample") ∧ OverlooksSizes c c') ∨
    (op = "Reshape" ∧ Miscounts 1 c c') ∨ (op = "ConstantOfShape" ∧ Miscounts 0 c c')

/-- The rule of an operator refines its answer when a value becomes known. -/
def Refining (op : String) (infer : Context → Typing) : Prop :=
  ∀ c c', c.Reveals c' → ¬Overlooks op c c' → RunsRefine (infer c) (infer c')

lemma refining_of_looksAtTypes {infer : Context → Typing} (h : LooksAtTypes infer) (op : String) :
    Refining op infer :=
  fun _ _ hreveals _ => h.runsRefine hreveals

lemma refining_of_runsRefine {infer : Context → Typing}
    (h : ∀ {c c'}, c.Reveals c' → RunsRefine (infer c) (infer c')) (op : String) :
    Refining op infer :=
  fun _ _ hreveals _ => h hreveals

lemma pad_refining : Refining "Pad" pad := fun _ _ hreveals hoverlooks =>
  pad_runsRefine hreveals fun h => hoverlooks (.inl ⟨rfl, h⟩)

lemma resize_refining {op : String} (hop : op = "Resize" ∨ op = "Upsample") :
    Refining op resize := fun _ _ hreveals hoverlooks =>
  resize_runsRefine hreveals fun h => hoverlooks (.inr (.inl ⟨hop, h⟩))

lemma reshape_refining : Refining "Reshape" reshape := fun _ _ hreveals hoverlooks =>
  reshape_runsRefine hreveals fun h => hoverlooks (.inr (.inr (.inl ⟨rfl, h⟩)))

lemma constantOfShape_refining : Refining "ConstantOfShape" constantOfShape :=
  fun _ _ hreveals hoverlooks =>
    constantOfShape_runsRefine hreveals fun h => hoverlooks (.inr (.inr (.inr ⟨rfl, h⟩)))

lemma builtin_refining : ∀ p ∈ builtin.rules, Refining p.1 p.2.infer := by
  simp only [builtin, List.forall_mem_append, List.forall_mem_cons, forall_mem_sharing]
  simp [relayout, concat, gather, shapeOf, refining_of_looksAtTypes, sameType_looksAtTypes,
    broadcast_looksAtTypes, comparison_looksAtTypes, predicate_looksAtTypes,
    select_looksAtTypes, cast_looksAtTypes, castLike_looksAtTypes, dropout_looksAtTypes,
    quantize_looksAtTypes, dequantize_looksAtTypes, flatten_looksAtTypes,
    transpose_looksAtTypes, concatInfer_looksAtTypes, gatherInfer_looksAtTypes,
    shapeInfer_looksAtTypes, constant_looksAtTypes, argReduce_looksAtTypes,
    matmul_looksAtTypes, gemm_looksAtTypes, conv_looksAtTypes, convTranspose_looksAtTypes,
    pool_looksAtTypes, globalPool_looksAtTypes, reshape_refining, constantOfShape_refining,
    pad_refining, resize_refining, refining_of_runsRefine squeeze_runsRefine,
    refining_of_runsRefine unsqueeze_runsRefine, refining_of_runsRefine expand_runsRefine,
    refining_of_runsRefine slice_runsRefine, refining_of_runsRefine split_runsRefine,
    refining_of_runsRefine reduce_runsRefine]

/-- If a built-in rule has an answer both before and after values of operands become known, the
second answer refines the first one: as many types, each of the same rank and with the same numbers,
names and elements, wherever the first one says something. Only values that the operator overlooks
are left out. -/
theorem builtin_refines_of_reveals {op : String} {rule : Rule} {c c' : Context}
    {types types' : List TensorType} (hrule : builtin.rule? op = some rule)
    (hreveals : c.Reveals c') (hoverlooks : ¬Overlooks op c c')
    (htypes : rule.infer c = .ok types) (htypes' : rule.infer c' = .ok types') :
    List.Forall₂ TensorType.RefinedBy types types' := by
  have hrefines := builtin_refining _ (mem_of_rule? hrule) c c' hreveals hoverlooks
  rw [htypes, htypes'] at hrefines
  exact hrefines

def operandContext (op : String) (opset : Int) (operands : List (Option Operand)) : Context where
  node := { op, inputs := [], outputs := ["y"] }
  operands
  opset

/-- An operand whose value is not known before the graph runs. -/
def runtimeOperand (type : TensorType) : Option Operand := some { type }

def constantOperand (t : Tensor) : Option Operand := some { type := t.type, constant? := some t }

lemma rel_reveals_refl (o? : Option Operand) : Option.Rel Operand.Reveals o? o? := by
  cases o? with
  | none => exact .none
  | some o => exact .some (.refl o)

lemma rel_reveals_constantOperand (t : Tensor) :
    Option.Rel Operand.Reveals (runtimeOperand t.type) (constantOperand t) :=
  .some ⟨rfl, .inr ⟨rfl, t, rfl, rfl⟩⟩

lemma reveals_last (op : String) (opset : Int) (operands : List (Option Operand)) (t : Tensor) :
    (operandContext op opset (operands ++ [runtimeOperand t.type])).Reveals
      (operandContext op opset (operands ++ [constantOperand t])) where
  node := rfl
  opset := rfl
  operands := List.rel_append (List.forall₂_same.mpr fun o? _ => rel_reveals_refl o?)
    (.cons (rel_reveals_constantOperand t) .nil)

def floats (extents : List Nat) : TensorType := .of .float (.ofExtents extents)

theorem builtin_refines_of_reshape_target :
    let target := Tensor.ofIntegers "s" [2] [2, 3]
    let c := operandContext "Reshape" 13 [runtimeOperand (floats [6]), runtimeOperand target.type]
    let c' := operandContext "Reshape" 13 [runtimeOperand (floats [6]), constantOperand target]
    builtin.rule? "Reshape" = some (relayout reshape) ∧ c.Reveals c' ∧ ¬Overlooks "Reshape" c c' ∧
      reshape c = .ok [.of .float ⟨[.unknown, .unknown]⟩] ∧ reshape c' = .ok [floats [2, 3]] ∧
      List.Forall₂ TensorType.RefinedBy [.of .float ⟨[.unknown, .unknown]⟩] [floats [2, 3]] := by
  intro target c c'
  have hrule : builtin.rule? "Reshape" = some (relayout reshape) := by rfl
  have hreveals : c.Reveals c' := reveals_last "Reshape" 13 [runtimeOperand (floats [6])] target
  have hwhole : ∀ vs, target.ints? = some vs → vs.length = 2 := by
    intro vs hvs
    obtain rfl := Option.some.inj hvs
    rfl
  have hcount : ¬Miscounts 1 c c' := not_miscounts_of_vector hreveals rfl rfl rfl rfl hwhole
  have hoverlooks : ¬Overlooks "Reshape" c c' := by simpa [Overlooks] using hcount
  have hbefore : reshape c = .ok [.of .float ⟨[.unknown, .unknown]⟩] := by rfl
  have hafter : reshape c' = .ok [floats [2, 3]] := by decide +kernel
  exact ⟨hrule, hreveals, hoverlooks, hbefore, hafter,
    builtin_refines_of_reveals hrule hreveals hoverlooks hbefore hafter⟩

lemma not_refinedBy_floats {extents extents' : List Nat} (h : extents ≠ extents') :
    ¬(floats extents).RefinedBy (floats extents') := by
  intro hrefined
  obtain ⟨s', hs', hdims⟩ := hrefined.shape _ rfl
  obtain rfl := Option.some.inj hs'
  unfold Shape.RefinedBy Shape.ofExtents at hdims
  rw [List.forall₂_map_left_iff, List.forall₂_map_right_iff] at hdims
  refine h (List.forall₂_eq_eq_eq ▸ hdims.imp fun m n hmn => ?_)
  exact (Dim.known.inj hmn).symm

/-- Paddings for axes that are not known yet are taken to be for all axes, and scales are applied as
long as the sizes are not known. What is said then is taken back later. -/
theorem builtin_takes_back_overlooked :
    let x := runtimeOperand (floats [2, 3])
    let pads := constantOperand (.ofIntegers "p" [4] [1, 0, 0, 0])
    let axes := Tensor.ofIntegers "a" [2] [1, 0]
    let padded := operandContext "Pad" 18 [x, pads, none, runtimeOperand axes.type]
    let padded' := operandContext "Pad" 18 [x, pads, none, constantOperand axes]
    let scales := constantOperand (.ofSingles "s" [2] [0x40000000, 0x40000000])
    let sizes := Tensor.ofIntegers "z" [2] [5, 6]
    let resized := operandContext "Resize" 13 [x, none, scales, runtimeOperand sizes.type]
    let resized' := operandContext "Resize" 13 [x, none, scales, constantOperand sizes]
    (padded.Reveals padded' ∧ pad padded = .ok [floats [3, 3]] ∧
        pad padded' = .ok [floats [2, 4]] ∧ ¬(floats [3, 3]).RefinedBy (floats [2, 4])) ∧
      (resized.Reveals resized' ∧ resize resized = .ok [floats [4, 6]] ∧
        resize resized' = .ok [floats [5, 6]] ∧ ¬(floats [4, 6]).RefinedBy (floats [5, 6])) := by
  intro x pads axes padded padded' scales sizes resized resized'
  constructor
  · refine ⟨reveals_last "Pad" 18 [x, pads, none] axes, ?_, ?_, ?_⟩
    · decide +kernel
    · decide +kernel
    · exact not_refinedBy_floats (by decide)
  · refine ⟨reveals_last "Resize" 13 [x, none, scales] sizes, ?_, ?_, ?_⟩
    · decide +kernel
    · decide +kernel
    · exact not_refinedBy_floats (by decide)

end TensorGraph.Registry
