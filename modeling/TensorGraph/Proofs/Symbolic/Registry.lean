import TensorGraph.Proofs.Symbolic.Elementwise
import TensorGraph.Proofs.Symbolic.Extent
import TensorGraph.Proofs.Symbolic.Join
import TensorGraph.Proofs.Symbolic.Layout
import TensorGraph.Proofs.Symbolic.Window
import TensorGraph.Rule.Registry

/-!
# Built-in rules on instances

What the built-in rules say of types with names and unknown extents agrees with what they say of
all instances of these types. Resizing is left out: there, extents are multiplied by floating-point
numbers.
-/

namespace TensorGraph.Registry

open Rule

lemma builtin_sound : ∀ p ∈ builtin.rules,
    p.1 ≠ "Resize" → p.1 ≠ "Upsample" → SoundRule p.2.infer := by
  simp only [builtin, List.forall_mem_append, List.forall_mem_cons, forall_mem_sharing]
  simp [relayout, concat, gather, shapeOf, sameType_sound,
    broadcast_sound, comparison_sound, predicate_sound, select_sound, cast_sound, castLike_sound,
    dropout_sound, quantize_sound, dequantize_sound, reshape_sound, flatten_sound, squeeze_sound,
    unsqueeze_sound, transpose_sound, concatInfer_sound, gatherInfer_sound, shapeInfer_sound,
    constant_sound, constantOfShape_sound, expand_sound, pad_sound, slice_sound, split_sound,
    reduce_sound, argReduce_sound, matmul_sound, gemm_sound, conv_sound, convTranspose_sound,
    pool_sound, globalPool_sound]

/-- A built-in rule answers for an instance of a context as it does for the context: as many types,
each with the same rank, the same numbers and the extents of the names, wherever the answer for the
context says something. Where shapes or axes of the context do not fit, the rule has no answer for
the instance either. -/
theorem builtin_agrees_on_instances {op : String} {rule : Rule}
    (hrule : builtin.rule? op = some rule) (hresize : op ≠ "Resize") (hupsample : op ≠ "Upsample")
    {σ : Valuation} {c c' : Context} (h : c.Instantiates σ c') :
    (∀ types types', rule.infer c = .ok types → rule.infer c' = .ok types' →
      List.Forall₂ (TensorType.Describes σ) types types') ∧
      ∀ e, rule.infer c = .error (.shape e) → ∃ e', rule.infer c' = .error e' := by
  have hagree := builtin_sound _ (mem_of_rule? hrule) hresize hupsample σ c c' h
  constructor
  · intro types types' hc hc'
    rw [hc, hc'] at hagree
    exact hagree
  · intro e hc
    cases hc' : rule.infer c' with
    | error e' => exact ⟨e', rfl⟩
    | ok types' =>
      rw [hc, hc'] at hagree
      exact absurd trivial hagree

/-- Every name stands for seven. -/
def allSeven : Valuation := ⟨fun _ => 7, fun _ => by decide⟩

/-- A batch of rows and a matrix. -/
def productContext (batch : Dim) : Context where
  node := { op := "MatMul", inputs := ["x", "w"], outputs := ["y"] }
  operands := [some { type := .of .float ⟨[batch, .known 3]⟩ },
    some { type := .of .float ⟨[.known 3, .known 5]⟩ }]
  opset := 13

theorem builtin_agrees_on_batch_of_seven :
    builtin.rule? "MatMul" = some { infer := matmul } ∧
      matmul (productContext (.param "N")) = .ok [.of .float ⟨[.param "N", .known 5]⟩] ∧
      matmul (productContext (.known 7)) = .ok [.of .float ⟨[.known 7, .known 5]⟩] ∧
      List.Forall₂ (TensorType.Describes allSeven)
        [.of .float ⟨[.param "N", .known 5]⟩] [.of .float ⟨[.known 7, .known 5]⟩] := by
  have hrule : builtin.rule? "MatMul" = some { infer := matmul } := by rfl
  have hsymbolic : matmul (productContext (.param "N")) =
      .ok [.of .float ⟨[.param "N", .known 5]⟩] := by rfl
  have hseven : matmul (productContext (.known 7)) =
      .ok [.of .float ⟨[.known 7, .known 5]⟩] := by rfl
  have hinstance : (productContext (.param "N")).Instantiates allSeven
      (productContext (.known 7)) := by
    refine ⟨rfl, rfl, .cons (.some ⟨⟨rfl, .some ?_⟩, rfl⟩)
      (.cons (.some ⟨⟨rfl, .some ?_⟩, rfl⟩) .nil)⟩
    · exact .cons ⟨7, rfl, rfl⟩ (.cons ⟨3, rfl, rfl⟩ .nil)
    · exact .cons ⟨3, rfl, rfl⟩ (.cons ⟨5, rfl, rfl⟩ .nil)
  refine ⟨hrule, hsymbolic, hseven, ?_⟩
  exact (builtin_agrees_on_instances hrule (by decide) (by decide) hinstance).1 _ _ hsymbolic hseven

end TensorGraph.Registry
