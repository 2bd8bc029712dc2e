import TensorGraph.ElemType
import TensorGraph.Shape

/-!
# Tensor types

What is known about the tensor that a value carries: perhaps its element type, perhaps its shape.
-/

namespace TensorGraph

/-- A partial description of a tensor. -/
structure TensorType where
  elem? : Option ElemType
  shape? : Option Shape
deriving DecidableEq, Repr, Inhabited

/-- Why two descriptions cannot be of one tensor. -/
inductive TypeConflict where
  | elemType (declared inferred : ElemType)
  | shape (error : ShapeError)
deriving DecidableEq, Repr

def TypeConflict.message : TypeConflict → String
  | .elemType declared inferred =>
    s!"element type {declared.name} conflicts with {inferred.name}"
  | .shape error => error.message

namespace TensorType

/-- The description that says nothing. -/
def unknown : TensorType := ⟨none, none⟩

def of (elem : ElemType) (shape : Shape) : TensorType := ⟨some elem, some shape⟩

def isUnknown (t : TensorType) : Bool := t.elem?.isNone && t.shape?.isNone

def rank? (t : TensorType) : Option Nat := t.shape?.map Shape.rank

def mergeElem : Option ElemType → Option ElemType → Except TypeConflict (Option ElemType)
  | some a, some b => if a = b then .ok (some a) else .error (.elemType a b)
  | some a, none => .ok (some a)
  | none, b => .ok b

def mergeShape : Option Shape → Option Shape → Except TypeConflict (Option Shape)
  | some a, some b => (a.merge b).map some |>.mapError .shape
  | some a, none => .ok (some a)
  | none, b => .ok b

/-- Combines two descriptions of one tensor and keeps the more specific part of each. -/
def merge (a b : TensorType) : Except TypeConflict TensorType := do
  let elem? ← mergeElem a.elem? b.elem?
  let shape? ← mergeShape a.shape? b.shape?
  return ⟨elem?, shape?⟩

def text (t : TensorType) : String :=
  (t.elem?.elim "?" ElemType.name) ++ (t.shape?.elim "[..]" Shape.text)

end TensorType

end TensorGraph
