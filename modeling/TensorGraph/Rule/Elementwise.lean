import TensorGraph.Rule.Basic

/-!
# Elementwise operators

The result has the shape of the operand, or the shape to which all operands are broadcast.
-/

namespace TensorGraph.Rule

/-- The result has the type of the first operand. -/
def sameType (c : Context) : Typing := do
  return [← c.typeAt 0]

/-- The shape to which some operands are broadcast. -/
def broadcastShape (c : Context) (inputs : List Nat) : Except RuleError Shape := do
  let shapes ← inputs.mapM c.shapeAt
  (Shape.broadcastAll shapes).mapError .shape

/-- The first element type that is known among some operands. -/
def firstElem? (c : Context) (inputs : List Nat) : Option ElemType := inputs.findSome? c.elemAt?

/-- All operands are broadcast; their first known element type is that of the result. -/
def broadcast (c : Context) : Typing := do
  let inputs := c.present.map Prod.fst
  if inputs.isEmpty then .error (.missingInput 0)
  let shape ← broadcastShape c inputs
  return [⟨(c.elemAt? 0).or (firstElem? c inputs), some shape⟩]

/-- Two operands are broadcast, and each element tells how they compare. -/
def comparison (c : Context) : Typing := do
  return [.of .bool (← broadcastShape c [0, 1])]

/-- Each element tells whether something is true of that of the operand. -/
def predicate (c : Context) : Typing := do
  return [.of .bool (← c.shapeAt 0)]

/-- The first of three broadcast operands says from which of the others an element is taken. -/
def select (c : Context) : Typing := do
  return [⟨firstElem? c [1, 2], some (← broadcastShape c [0, 1, 2])⟩]

def elemOfCode? (code : Int) : Option ElemType :=
  if -0x80000000 ≤ code ∧ code < 0x80000000 then ElemType.ofCode? code else none

/-- The elements are converted to the type that the setting `to` names. -/
def cast (c : Context) : Typing := do
  match c.node.int? "to" with
  | none => .error (.missingAttribute "to")
  | some code =>
    if code < -0x80000000 ∨ 0x80000000 ≤ code then .error (.invalid "to" (.value code))
    else
      match ElemType.ofCode? code with
      | none => .error (.invalid "to" (.unknownElem code))
      | some elem => return [⟨some elem, (← c.typeAt 0).shape?⟩]

/-- The elements are converted to those of the second operand. -/
def castLike (c : Context) : Typing := do
  return [⟨c.elemAt? 1, (← c.typeAt 0).shape?⟩]

/-- The result has the type of the first operand; a second one says which elements were kept. -/
def dropout (c : Context) : Typing := do
  let type ← c.typeAt 0
  return [type, ⟨some .bool, type.shape?⟩]

/-- The elements become those of the zero point. Without a zero point the setting `output_dtype`
names their type, or they are bytes. -/
def quantize (c : Context) : Typing := do
  let shape? := (← c.typeAt 0).shape?
  match c.elemAt? 2 with
  | some elem => return [⟨some elem, shape?⟩]
  | none =>
    if c.has 2 then return [⟨none, shape?⟩]
    let code := c.int "output_dtype" 0
    if code = 0 then return [⟨some .uint8, shape?⟩]
    match elemOfCode? code with
    | some elem => return [⟨some elem, shape?⟩]
    | none => .error (.invalid "output_dtype" (.value code))

/-- The first version in which restored elements have the type of the scale. -/
def scaleTypeVersion : Int := 19

/-- The elements are restored from small integers; in newer versions the scale says to which type.
-/
def dequantize (c : Context) : Typing := do
  let elem? := if scaleTypeVersion ≤ c.opset then c.elemAt? 1 else some .float
  return [⟨elem?, (← c.typeAt 0).shape?⟩]

end TensorGraph.Rule
