import TensorGraph.Node

/-!
# Operator signatures

How many operands and results the operators of the default collection have, and which settings they
need. An operator without a signature is not checked.
-/

namespace TensorGraph

/-- How many there may be. -/
structure Count where
  least : Nat
  greatest? : Option Nat
deriving DecidableEq, Repr, Inhabited

namespace Count

def exactly (n : Nat) : Count := ⟨n, some n⟩
def between (least greatest : Nat) : Count := ⟨least, some greatest⟩
def atLeast (n : Nat) : Count := ⟨n, none⟩

def text (c : Count) : String :=
  match c.greatest? with
  | none => s!"at least {c.least}"
  | some greatest =>
    if greatest = c.least then s!"exactly {c.least}" else s!"{c.least} to {greatest}"

end Count

/-- The two sides of a node. -/
inductive Side where
  | input | output
deriving DecidableEq, Repr

def Side.word : Side → String
  | input => "input"
  | output => "output"

/-- How a node differs from the signature of its operator. -/
inductive SignatureFault where
  | tooMany (side : Side) (greatest used : Nat)
  | tooFew (side : Side) (count : Count) (used : Nat)
  | emptySlot (side : Side) (slot : Nat)
  | missingAttribute (name : String)
deriving DecidableEq, Repr

def SignatureFault.message : SignatureFault → String
  | tooMany side greatest used => s!"expected at most {greatest} {side.word}s, found {used}"
  | tooFew side count used => s!"expected {count.text} {side.word}s, found {used}"
  | emptySlot side slot => s!"{side.word} {slot} is required but empty"
  | missingAttribute name => s!"missing required attribute '{name}'"

/-- What a node of an operator must look like. -/
structure Signature where
  op : String
  inputs : Count
  outputs : Count := .exactly 1
  required : List String := []
  /-- The operands that may be left out although operands after them are needed. -/
  optionalInputs : List Nat := []
deriving DecidableEq, Repr, Inhabited

namespace Signature

/-- The operators with one operand, one result and no required settings. -/
def unaryOps : List String :=
  ["Abs", "Neg", "Relu", "LeakyRelu", "Elu", "Selu", "Sigmoid", "HardSigmoid", "HardSwish",
   "Tanh", "Exp", "Log", "Sqrt", "Reciprocal", "Floor", "Ceil", "Round", "Sign", "Erf", "Sin",
   "Cos", "Softplus", "Softsign", "Gelu", "Not", "IsNaN", "Identity", "Softmax", "LogSoftmax",
   "Transpose", "Flatten", "Shape", "Size", "ConstantOfShape", "GlobalAveragePool",
   "GlobalMaxPool", "ArgMax", "ArgMin", "NonZero"]

/-- The operators with two operands, one result and no required settings. -/
def binaryOps : List String :=
  ["CastLike", "Add", "Sub", "Mul", "Div", "Pow", "Mod", "PRelu", "And", "Or", "Xor", "Equal",
   "Greater", "GreaterOrEqual", "Less", "LessOrEqual", "Gather", "Expand", "Tile", "MatMul"]

/-- The signatures of all other operators that have one. -/
def others : List Signature :=
  [{ op := "Clip", inputs := .between 1 3 },
   { op := "Cast", inputs := .exactly 1, required := ["to"] },
   { op := "Sum", inputs := .atLeast 1 },
   { op := "Max", inputs := .atLeast 1 },
   { op := "Min", inputs := .atLeast 1 },
   { op := "Mean", inputs := .atLeast 1 },
   { op := "Where", inputs := .exactly 3 },
   { op := "Reshape", inputs := .between 1 2 },
   { op := "Squeeze", inputs := .between 1 2 },
   { op := "Unsqueeze", inputs := .between 1 2 },
   { op := "Concat", inputs := .atLeast 1, required := ["axis"] },
   { op := "Split", inputs := .between 1 2, outputs := .atLeast 1 },
   { op := "Slice", inputs := .between 1 5 },
   { op := "Pad", inputs := .between 1 4 },
   { op := "Resize", inputs := .between 1 4 },
   { op := "Upsample", inputs := .between 1 2 },
   { op := "Constant", inputs := .exactly 0 },
   { op := "Range", inputs := .exactly 3 },
   { op := "DepthToSpace", inputs := .exactly 1, required := ["blocksize"] },
   { op := "SpaceToDepth", inputs := .exactly 1, required := ["blocksize"] },
   { op := "Gemm", inputs := .between 2 3 },
   { op := "Einsum", inputs := .atLeast 1, required := ["equation"] },
   { op := "Conv", inputs := .between 2 3 },
   { op := "ConvTranspose", inputs := .between 2 3 },
   { op := "MaxPool", inputs := .exactly 1, outputs := .between 1 2,
     required := ["kernel_shape"] },
   { op := "AveragePool", inputs := .exactly 1, required := ["kernel_shape"] },
   { op := "LRN", inputs := .exactly 1, required := ["size"] },
   { op := "BatchNormalization", inputs := .exactly 5, outputs := .between 1 5 },
   { op := "InstanceNormalization", inputs := .exactly 3 },
   { op := "LayerNormalization", inputs := .between 2 3, outputs := .between 1 3 },
   { op := "Dropout", inputs := .between 1 3, outputs := .between 1 2 },
   { op := "ReduceMean", inputs := .between 1 2 },
   { op := "ReduceSum", inputs := .between 1 2 },
   { op := "ReduceMax", inputs := .between 1 2 },
   { op := "ReduceMin", inputs := .between 1 2 },
   { op := "ReduceProd", inputs := .between 1 2 },
   { op := "TopK", inputs := .between 1 2, outputs := .exactly 2 },
   { op := "QuantizeLinear", inputs := .between 2 3 },
   { op := "DequantizeLinear", inputs := .between 2 3 },
   { op := "If", inputs := .exactly 1, outputs := .atLeast 1,
     required := ["then_branch", "else_branch"] },
   { op := "Loop", inputs := .atLeast 2, outputs := .atLeast 1, required := ["body"],
     optionalInputs := [0, 1] }]

/-- All signatures. -/
def all : List Signature :=
  (unaryOps.map fun op => { op, inputs := .exactly 1 }) ++
    (binaryOps.map fun op => { op, inputs := .exactly 2 }) ++ others

def find? (op : String) : Option Signature := all.find? fun s => s.op == op

/-- How many names are in use, up to the last that is not empty. -/
def usedCount (names : List String) : Nat :=
  (names.reverse.dropWhile String.isEmpty).length

/-- Checks the names on one side of a node. Empty names at the end do not count as too many, and the
names that are needed may only be empty where `optional` says so. -/
def checkNames (side : Side) (names : List String) (count : Count) (optional : List Nat) :
    Except SignatureFault Unit :=
  let used := usedCount names
  match count.greatest?.filter (· < used) with
  | some greatest => .error (.tooMany side greatest used)
  | none =>
    if names.length < count.least then .error (.tooFew side count used)
    else
      match (names.take count.least).zipIdx.find? fun (name, slot) =>
          name.isEmpty && !optional.contains slot with
      | some (_, slot) => .error (.emptySlot side slot)
      | none => .ok ()

/-- Checks a node: first the operands, then the results, then the settings. -/
def check (s : Signature) (n : Node) : Except SignatureFault Unit := do
  checkNames .input n.inputs s.inputs s.optionalInputs
  checkNames .output n.outputs s.outputs []
  match s.required.find? fun name => (n.attribute? name).isNone with
  | some name => .error (.missingAttribute name)
  | none => .ok ()

end Signature

end TensorGraph
