import TensorGraph.Node

/-!
# Rules

A rule says what the results of an operator are like, given what is known about its operands. This
module has the view that a rule gets of a node, the reasons why a rule gives no answer, and helpers
that all rules share.
-/

namespace TensorGraph

/-- What is wrong with the value of a setting or of a constant operand. -/
inductive Flaw where
  | notConstant
  | targetNotConstant
  | lengthUnknown
  | negativeExtent (value : Int)
  | negativePadded (extent : Int)
  /-- Two extents of a target shape are to be found. -/
  | severalOpen
  | zeroBeyondRank (position rank : Nat)
  | cannotReshape (total : Nat) (target : List Int)
  | unknownExtents
  | notOne (position extent : Nat)
  | repeatedAxis
  | notPermutation (positions : List Nat)
  | lengthForRank (length rank : Nat)
  | wrongCount (expected found : Nat)
  | valuesForAxes (values axes : Nat)
  | differentLengths
  | zeroStep
  | sizesForOutputs (sizes outputs : Nat)
  /-- The value itself is the complaint. -/
  | value (value : Int)
  | listing (values : List Int)
  | word (value : String)
  | unknownElem (code : Int)
  | valuesForSpatial (values : List Int) (spatial : Nat)
  | doesNotFit (window extent : Int)
  | noSpatialAxes (rank : Nat)
  | rankForInput (rank input : Nat)
  | unknownWeight
  | axesForSpatial (axes spatial : Nat)
  | axesForInput (axes rank : Nat)
  | outputExtent (extent : Int) (axis : Nat)
deriving DecidableEq, Repr

def numbersText {α : Type} [ToString α] (values : List α) : String :=
  "[" ++ ", ".intercalate (values.map toString) ++ "]"

def Flaw.message : Flaw → String
  | notConstant => "not a constant"
  | targetNotConstant => "target shape is not constant"
  | lengthUnknown => "length of the shape is unknown"
  | negativeExtent v => s!"negative extent {v}"
  | negativePadded e => s!"negative extent {e}"
  | severalOpen => "more than one -1"
  | zeroBeyondRank i rank => s!"0 at {i} exceeds input rank {rank}"
  | cannotReshape total target =>
    s!"cannot reshape {total} elements into " ++ numbersText target
  | unknownExtents => "cannot squeeze dimensions of unknown extent"
  | notOne i n => s!"dimension {i} has extent {n}"
  | repeatedAxis => "repeated axis"
  | notPermutation ps => numbersText ps ++ " is not a permutation"
  | lengthForRank length rank => s!"length {length} for rank {rank}"
  | wrongCount expected found => s!"expected {expected} values, found {found}"
  | valuesForAxes values axes => s!"{values} values for {axes} axes"
  | differentLengths => "starts, ends, axes and steps differ in length"
  | zeroStep => "step is zero"
  | sizesForOutputs sizes outputs => s!"{sizes} sizes for {outputs} outputs"
  | value v => toString v
  | listing vs => numbersText vs
  | word w => w
  | unknownElem code => s!"unknown element type {code}"
  | valuesForSpatial vs spatial => numbersText vs ++ s!" for {spatial} spatial axes"
  | doesNotFit window extent => s!"window {window} does not fit axis of extent {extent}"
  | noSpatialAxes rank => s!"rank {rank} has no spatial axes"
  | rankForInput rank input => s!"rank {rank} for input rank {input}"
  | unknownWeight => "weight spatial dims are unknown"
  | axesForSpatial axes spatial => s!"{axes} axes for {spatial} spatial axes"
  | axesForInput axes rank => s!"{axes} axes for input rank {rank}"
  | outputExtent e axis => s!"output extent {e} on axis {axis}"

/-- An operation on machine numbers. -/
inductive Operation where
  | addition
  | subtraction
  | multiplication
deriving DecidableEq, Repr

def Operation.verb : Operation → String
  | addition => "add"
  | subtraction => "subtract"
  | multiplication => "multiply"

/-- How a rule gives up. This is no finding about the node: whoever runs the rule gives up too. -/
inductive Abort where
  /-- The rule asked for an axis that data of this rank does not have. -/
  | outOfBounds (axis rank : Nat)
  /-- A list of so many extents is larger than any value may be. -/
  | tooLong (rank : Nat)
  /-- The result of an operation is none of its machine numbers. -/
  | overflow (operation : Operation)
deriving DecidableEq, Repr

def Abort.message : Abort → String
  | outOfBounds axis rank => s!"index out of bounds: the len is {rank} but the index is {axis}"
  | tooLong _ => "capacity overflow"
  | overflow operation => s!"attempt to {operation.verb} with overflow"

/-- Why a rule gives no answer. -/
inductive RuleError where
  | noRule (domain op : String)
  | missingInput (index : Nat)
  | unknownRank (index : Nat)
  | missingAttribute (name : String)
  /-- The value of the setting or operand `name` cannot be used. -/
  | invalid (name : String) (flaw : Flaw)
  | shape (error : ShapeError)
  | abort (a : Abort)
deriving DecidableEq, Repr

def RuleError.message : RuleError → String
  | noRule domain op => s!"no inference rule for '{domain}::{op}'"
  | missingInput index => s!"input {index} is missing"
  | unknownRank index => s!"rank of input {index} is unknown"
  | missingAttribute name => s!"attribute '{name}' is missing"
  | invalid name flaw => s!"invalid '{name}': {flaw.message}"
  | shape error => error.message
  | abort a => a.message

/-- What is known about an operand: its type, and its value if that is constant. -/
structure Operand where
  type : TensorType
  constant? : Option Tensor := none
deriving DecidableEq, Repr, Inhabited

/-- What a rule sees of a node. -/
structure Context where
  node : Node
  operands : List (Option Operand)
  /-- The version of the default collection of operators. -/
  opset : Int
deriving DecidableEq, Repr, Inhabited

/-- The answer of a rule: the types of the results, in order. There may be fewer than results. -/
abbrev Typing := Except RuleError (List TensorType)

/-- What is known about the results of an operator. -/
structure Rule where
  infer : Context → Typing
  /-- The results themselves, where the rule can compute them. -/
  fold : Context → Option (List (Option Tensor)) := fun _ => none

/-- An axis, resolved against a rank. -/
def axisIn (rank : Nat) (axis : Int) : Except RuleError Nat :=
  (resolveAxis axis rank).mapError .shape

/-- A given number as an extent; `name` is the setting or operand that it comes from. -/
def extentOf (name : String) (v : Int) : Except RuleError Dim :=
  if v < 0 then .error (.invalid name (.negativeExtent v)) else .ok (.known v.toNat)

/-- A number as an extent; unknown if it is not below `wordLimit`. -/
def wordDim (n : Nat) : Dim := if n < wordLimit then .known n else .unknown

/-- A shape has at most so many extents: each takes 24 bytes, and no value takes `2 ^ 63`. -/
def greatestRank : Nat := (0x8000000000000000 - 1) / 24

/-- A shape of which only the rank is known, because an operand is declared to have so many
entries. -/
def declaredShape (rank : Nat) : Except RuleError Shape :=
  if rank ≤ greatestRank then .ok (.ofRank rank) else .error (.abort (.tooLong rank))

theorem declaredShape_eq_ok {rank : Nat} {s : Shape} (h : declaredShape rank = .ok s) :
    s = .ofRank rank := by
  unfold declaredShape at h
  split at h <;> cases h
  rfl

/-- The product of extents; unknown if one of them is, or if it is not below `wordLimit`. -/
def productDim (dims : List Dim) : Dim :=
  ((dims.mapM Dim.extent?).bind checkedProduct).elim .unknown .known

/-- A list of 64-bit integers as the one result of an operator. -/
def foldedIntegers (extents : List Nat) (values : List Int64) : Option (List (Option Tensor)) :=
  some [some (.ofIntegers "" extents values)]

namespace Context

/-- The operand at a position, unless it is left out. -/
def operand? (c : Context) (i : Nat) : Option Operand := (c.operands[i]?).join

/-- The operands that are not left out, with their positions. -/
def present (c : Context) : List (Nat × Operand) :=
  c.operands.zipIdx.filterMap fun (o?, i) => o?.map fun o => (i, o)

def has (c : Context) (i : Nat) : Bool := (c.operand? i).isSome

/-- The type of an operand that has to be there. -/
def typeAt (c : Context) (i : Nat) : Except RuleError TensorType :=
  match c.operand? i with
  | some o => .ok o.type
  | none => .error (.missingInput i)

/-- The shape of an operand that has to be there, with a known rank. -/
def shapeAt (c : Context) (i : Nat) : Except RuleError Shape :=
  match c.operand? i with
  | none => .error (.missingInput i)
  | some o =>
    match o.type.shape? with
    | some s => .ok s
    | none => .error (.unknownRank i)

def elemAt? (c : Context) (i : Nat) : Option ElemType := (c.operand? i).bind fun o => o.type.elem?

def constantAt? (c : Context) (i : Nat) : Option Tensor := (c.operand? i).bind Operand.constant?

/-- The value of an operand, if it is a constant that reads as integers. -/
def intsAt? (c : Context) (i : Nat) : Option (List Int) :=
  ((c.constantAt? i).bind Tensor.ints?).map fun vs => vs.map Int64.toInt

/-- The words of an operand, if it is a constant of floating-point numbers. -/
def singlesAt? (c : Context) (i : Nat) : Option (List UInt32) :=
  (c.constantAt? i).bind Tensor.singles?

/-- The value of an operand, if it is a constant of 64-bit integers. -/
def int64sAt? (c : Context) (i : Nat) : Option (List Int64) :=
  (c.constantAt? i).bind fun t => if t.elem? = some .int64 then t.ints? else none

/-- An integer setting of the node, or its default. -/
def int (c : Context) (name : String) (default : Int) : Int := (c.node.int? name).getD default

/-- A list of integers that is a setting before version `since` and the operand at `input` from
then on; in version zero the operand is used if it is there. The list may be missing, but as an
operand it must be constant. -/
def intsOperand (c : Context) (name : String) (input : Nat) (since : Int) :
    Except RuleError (Option (List Int)) :=
  if since ≤ c.opset ∨ (c.opset = 0 ∧ c.has input) then
    if c.has input then
      match c.intsAt? input with
      | some vs => .ok (some vs)
      | none => .error (.invalid name .notConstant)
    else .ok none
  else .ok (c.node.ints? name)

/-- The elements of an operand in another shape. -/
def withElem (c : Context) (i : Nat) (shape : Shape) : TensorType := ⟨c.elemAt? i, some shape⟩

end Context

end TensorGraph
