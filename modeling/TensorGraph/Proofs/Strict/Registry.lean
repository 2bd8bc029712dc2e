import TensorGraph.Proofs.GivingUp
import TensorGraph.Proofs.Strict.Extent
import TensorGraph.Proofs.Strict.Join
import TensorGraph.Proofs.Strict.Layout
import TensorGraph.Proofs.Strict.MatrixProduct
import TensorGraph.Proofs.Strict.Window

/-!
# Strict forms of the built-in rules

Each built-in rule has a strict form that says the same and computes the same results. None of them
divides by zero, and one asks for a position that is not there only where the rule gives up.
-/

namespace TensorGraph

namespace Strict

variable {α : Type}

/-- What a run comes to, if it does not halt for a reason. -/
def attempt : Strict α → Strict (Option α)
  | .ok a => .ok (some a)
  | .error (.reason _) => .ok none
  | .error (.fault f) => .error (.fault f)

lemma attempt_lift (x : Except RuleError α) :
    attempt (lift x) = .ok x.toOption ∨ ∃ a, x = .error (.abort a) := by
  rcases x with e | a
  · cases e with
    | abort a => exact .inr ⟨a, rfl⟩
    | _ => exact .inl rfl
  · exact .inl rfl

lemma lift_eq_fault_iff {x : Except RuleError α} {f : Fault} :
    lift x = .error (.fault f) ↔ ∃ a, x = .error (.abort a) ∧ f = .abort a := by
  rcases x with e | a
  · cases e <;> simp [lift, eq_comm]
  · exact iff_of_false nofun fun ⟨_, h, _⟩ => nomatch h

end Strict

namespace StrictRule

/-- A rule that only changes the shape: a constant of 64-bit integers is carried over. -/
def relayout (infer : Context → Strict (List TensorType)) : StrictRule where
  infer
  fold c :=
    match c.int64sAt? 0 with
    | none => .ok none
    | some values => do
      let types? ← Strict.attempt (infer c)
      return do
        let type ← (← types?).head?
        let extents ← type.shape?.bind Shape.extents?
        foldedIntegers extents values

lemma relayout_mirrors {s : Context → Strict (List TensorType)} {r : Context → Typing}
    (h : ∀ c, s c = Strict.lift (r c)) : (relayout s).Mirrors (Rule.relayout r) where
  infer := h
  fold c := by
    unfold relayout Rule.relayout
    dsimp only
    cases c.int64sAt? 0 with
    | none => exact .inl rfl
    | some values =>
      dsimp only
      rw [h]
      obtain hattempt | ⟨a, ha⟩ := Strict.attempt_lift (r c)
      · rw [hattempt]
        exact .inl rfl
      · rw [ha]
        exact .inr ⟨.abort a, rfl, rfl⟩

lemma mirrors_of_infer {s : Context → Strict (List TensorType)} {r : Context → Typing}
    (h : ∀ c, s c = Strict.lift (r c)) : StrictRule.Mirrors { infer := s } { infer := r } :=
  ⟨h, fun _ => .inl rfl⟩

end StrictRule

namespace Strict

open StrictRule

def sharing (rule : StrictRule) (ops : List String) : List (String × StrictRule) :=
  ops.map fun op => (op, rule)

def builtin : List (String × StrictRule) :=
  sharing (ofRule { infer := Rule.sameType }) Registry.sameTypeOps ++
  sharing { infer := broadcast } Registry.broadcastOps ++
  sharing { infer := comparison } ["Equal", "Greater", "GreaterOrEqual", "Less", "LessOrEqual"] ++
  sharing (ofRule { infer := Rule.predicate }) ["Not", "IsNaN", "IsInf"] ++
  [("Where", { infer := select }), ("Cast", ofRule { infer := Rule.cast }),
   ("CastLike", ofRule { infer := Rule.castLike }), ("Dropout", ofRule { infer := Rule.dropout }),
   ("QuantizeLinear", ofRule { infer := Rule.quantize }),
   ("DequantizeLinear", ofRule { infer := Rule.dequantize }), ("Reshape", relayout reshape),
   ("Flatten", relayout flatten), ("Squeeze", relayout squeeze),
   ("Unsqueeze", ofRule (Rule.relayout Rule.unsqueeze)),
   ("Identity", ofRule (Rule.relayout Rule.sameType)), ("Transpose", { infer := transpose }),
   ("Concat", ⟨concat, fun c => .ok (Rule.concatFold c)⟩),
   ("Gather", ⟨gather, fun c => .ok (Rule.gatherFold c)⟩),
   ("Shape", ⟨fun c => lift (Rule.shapeInfer c), shapeFold⟩), ("Constant", ofRule Rule.constant),
   ("ConstantOfShape", ofRule { infer := Rule.constantOfShape }), ("Expand", { infer := expand }),
   ("Pad", { infer := pad }), ("Resize", { infer := resize }), ("Upsample", { infer := resize }),
   ("Slice", { infer := slice }), ("Split", { infer := split })] ++
  sharing (ofRule { infer := Rule.reduce }) Registry.reduceOps ++
  sharing (ofRule { infer := Rule.argReduce }) ["ArgMax", "ArgMin"] ++
  [("MatMul", { infer := matmul }), ("Gemm", { infer := gemm }), ("Conv", { infer := conv }),
   ("ConvTranspose", { infer := convTranspose })] ++
  sharing { infer := pool } ["MaxPool", "AveragePool", "LpPool"] ++
  sharing { infer := globalPool } ["GlobalAveragePool", "GlobalMaxPool", "GlobalLpPool"]

/-- Two entries of one operator, of which the first one is the strict form of the second one. -/
def SameEntry (s : String × StrictRule) (r : String × Rule) : Prop :=
  s.1 = r.1 ∧ s.2.Mirrors r.2

lemma sameEntry_sharing {s : StrictRule} {r : Rule} (h : s.Mirrors r) (ops : List String) :
    List.Forall₂ SameEntry (sharing s ops) (Registry.sharing r ops) := by
  unfold sharing Registry.sharing
  rw [List.forall₂_map_left_iff, List.forall₂_map_right_iff]
  exact List.forall₂_same.mpr fun op _ => ⟨rfl, h⟩

lemma builtin_sameEntry : List.Forall₂ SameEntry builtin Registry.builtin.rules := by
  have hshared {s : StrictRule} {r : Rule} (h : s.Mirrors r) {ops : List String}
      {rest : List (String × StrictRule)} {rest' : List (String × Rule)}
      (hrest : List.Forall₂ SameEntry rest rest') :
      List.Forall₂ SameEntry (rest ++ sharing s ops) (rest' ++ Registry.sharing r ops) :=
    List.rel_append hrest (sameEntry_sharing h ops)
  refine hshared (mirrors_of_infer globalPool_eq_lift) (hshared (mirrors_of_infer pool_eq_lift) ?_)
  refine List.rel_append (hshared (ofRule_mirrors _) (hshared (ofRule_mirrors _)
    (List.rel_append (hshared (ofRule_mirrors _) (hshared (mirrors_of_infer comparison_eq_lift)
      (hshared (mirrors_of_infer broadcast_eq_lift) (sameEntry_sharing (ofRule_mirrors _) _))))
        ?_))) ?_
  · exact .cons ⟨rfl, mirrors_of_infer select_eq_lift⟩ <| .cons ⟨rfl, ofRule_mirrors _⟩ <|
      .cons ⟨rfl, ofRule_mirrors _⟩ <| .cons ⟨rfl, ofRule_mirrors _⟩ <|
      .cons ⟨rfl, ofRule_mirrors _⟩ <| .cons ⟨rfl, ofRule_mirrors _⟩ <|
      .cons ⟨rfl, relayout_mirrors reshape_eq_lift⟩ <|
      .cons ⟨rfl, relayout_mirrors flatten_eq_lift⟩ <|
      .cons ⟨rfl, relayout_mirrors squeeze_eq_lift⟩ <|
      .cons ⟨rfl, ofRule_mirrors _⟩ <| .cons ⟨rfl, ofRule_mirrors _⟩ <|
      .cons ⟨rfl, mirrors_of_infer transpose_eq_lift⟩ <|
      .cons ⟨rfl, concat_eq_lift, fun _ => .inl rfl⟩ <|
      .cons ⟨rfl, gather_eq_lift, fun _ => .inl rfl⟩ <|
      .cons ⟨rfl, fun _ => rfl, fun c => .inl (shapeFold_eq_ok c)⟩ <|
      .cons ⟨rfl, ofRule_mirrors _⟩ <| .cons ⟨rfl, ofRule_mirrors _⟩ <|
      .cons ⟨rfl, mirrors_of_infer expand_eq_lift⟩ <|
      .cons ⟨rfl, mirrors_of_infer pad_eq_lift⟩ <|
      .cons ⟨rfl, mirrors_of_infer resize_eq_lift⟩ <|
      .cons ⟨rfl, mirrors_of_infer resize_eq_lift⟩ <|
      .cons ⟨rfl, mirrors_of_infer slice_eq_lift⟩ <|
      .cons ⟨rfl, mirrors_of_infer split_eq_lift⟩ .nil
  · exact .cons ⟨rfl, mirrors_of_infer matmul_eq_lift⟩ <|
      .cons ⟨rfl, mirrors_of_infer gemm_eq_lift⟩ <| .cons ⟨rfl, mirrors_of_infer conv_eq_lift⟩ <|
      .cons ⟨rfl, mirrors_of_infer convTranspose_eq_lift⟩ .nil

lemma lookup_of_sameEntry {strict : List (String × StrictRule)} {rules : List (String × Rule)}
    (h : List.Forall₂ SameEntry strict rules) (op : String) :
    Option.Rel StrictRule.Mirrors (strict.lookup op) (rules.lookup op) := by
  induction h with
  | nil => exact .none
  | @cons s r _ _ hsr _ ih =>
    obtain ⟨name, s⟩ := s
    obtain ⟨name', r⟩ := r
    obtain ⟨rfl, hmirrors⟩ := hsr
    rw [List.lookup_cons, List.lookup_cons]
    dsimp only
    cases op == name with
    | true => exact .some hmirrors
    | false => exact ih

/-- A strict form of a built-in rule is at fault where the rule gives up, and nowhere else. -/
lemma infer_eq_fault_iff {op : String} {rule : Rule} {s : StrictRule}
    (hrule : Registry.builtin.rule? op = some rule) (hs : s.Mirrors rule) {c : Context}
    {f : Fault} :
    s.infer c = .error (.fault f) ↔ ∃ a, Registry.GivesUp c a op ∧ f = .abort a := by
  rw [hs.infer, lift_eq_fault_iff]
  simp only [Registry.infer_eq_abort_iff hrule]

end Strict

end TensorGraph
