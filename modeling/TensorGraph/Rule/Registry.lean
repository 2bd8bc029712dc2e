import TensorGraph.Rule.Constant
import TensorGraph.Rule.Extent
import TensorGraph.Rule.Join
import TensorGraph.Rule.Layout
import TensorGraph.Rule.MatrixProduct
import TensorGraph.Rule.Reduction
import TensorGraph.Rule.Window

/-!
# Registries

Which rule belongs to which operator of the default collection.
-/

namespace TensorGraph

/-- Rules by the name of their operator, one for each. -/
structure Registry where
  rules : List (String × Rule)

namespace Registry

def rule? (r : Registry) (op : String) : Option Rule := r.rules.lookup op

theorem mem_of_rule? {r : Registry} {op : String} {rule : Rule} (h : r.rule? op = some rule) :
    (op, rule) ∈ r.rules := by
  obtain ⟨before, behind, hrules, _⟩ := List.lookup_eq_some_iff.mp h
  rw [hrules]
  exact List.mem_append_right before List.mem_cons_self

def contains (r : Registry) (op : String) : Bool := (r.rule? op).isSome

/-- Puts a rule in place of the one that the operator has. -/
def register (r : Registry) (op : String) (rule : Rule) : Registry :=
  ⟨(op, rule) :: r.rules.filter fun (name, _) => name != op⟩

def size (r : Registry) : Nat := r.rules.length

/-- The names of all operators that have a rule, in order. -/
def ops (r : Registry) : List String :=
  (r.rules.map Prod.fst).mergeSort fun a b => decide (a ≤ b)

/-- Gives one rule to several operators. -/
def sharing (rule : Rule) (ops : List String) : List (String × Rule) :=
  ops.map fun op => (op, rule)

theorem forall_mem_sharing {P : String × Rule → Prop} {rule : Rule} {ops : List String} :
    (∀ p ∈ sharing rule ops, P p) ↔ ∀ op ∈ ops, P (op, rule) :=
  List.forall_mem_map

/-- The operators whose result has the type of the first operand. -/
def sameTypeOps : List String :=
  ["Abs", "Neg", "Relu", "LeakyRelu", "Elu", "Selu", "Sigmoid", "HardSigmoid", "HardSwish",
   "Tanh", "Exp", "Log", "Sqrt", "Reciprocal", "Floor", "Ceil", "Round", "Sign", "Erf", "Sin",
   "Cos", "Softplus", "Softsign", "Gelu", "Softmax", "LogSoftmax", "Clip", "LRN",
   "BatchNormalization", "InstanceNormalization", "LayerNormalization"]

/-- The operators whose operands are broadcast. -/
def broadcastOps : List String :=
  ["Add", "Sub", "Mul", "Div", "Pow", "Mod", "PRelu", "And", "Or", "Xor", "Sum", "Max", "Min",
   "Mean", "BitShift"]

/-- The operators that reduce axes to one element. -/
def reduceOps : List String :=
  ["ReduceMean", "ReduceSum", "ReduceMax", "ReduceMin", "ReduceProd", "ReduceL2"]

open Rule in
/-- The rules that are built in. -/
def builtin : Registry where
  rules :=
    sharing { infer := sameType } sameTypeOps ++
    sharing { infer := broadcast } broadcastOps ++
    sharing { infer := comparison }
      ["Equal", "Greater", "GreaterOrEqual", "Less", "LessOrEqual"] ++
    sharing { infer := predicate } ["Not", "IsNaN", "IsInf"] ++
    [("Where", { infer := select }), ("Cast", { infer := cast }),
     ("CastLike", { infer := castLike }), ("Dropout", { infer := dropout }),
     ("QuantizeLinear", { infer := quantize }), ("DequantizeLinear", { infer := dequantize }),
     ("Reshape", relayout reshape), ("Flatten", relayout flatten), ("Squeeze", relayout squeeze),
     ("Unsqueeze", relayout unsqueeze), ("Identity", relayout sameType),
     ("Transpose", { infer := transpose }), ("Concat", concat), ("Gather", gather),
     ("Shape", shapeOf), ("Constant", constant),
     ("ConstantOfShape", { infer := constantOfShape }), ("Expand", { infer := expand }),
     ("Pad", { infer := pad }), ("Resize", { infer := resize }),
     ("Upsample", { infer := resize }), ("Slice", { infer := slice }),
     ("Split", { infer := split })] ++
    sharing { infer := reduce } reduceOps ++
    sharing { infer := argReduce } ["ArgMax", "ArgMin"] ++
    [("MatMul", { infer := matmul }), ("Gemm", { infer := gemm }),
     ("Conv", { infer := conv }), ("ConvTranspose", { infer := convTranspose })] ++
    sharing { infer := pool } ["MaxPool", "AveragePool", "LpPool"] ++
    sharing { infer := globalPool } ["GlobalAveragePool", "GlobalMaxPool", "GlobalLpPool"]

end Registry

end TensorGraph
