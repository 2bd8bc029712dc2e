import TensorGraph.Attribute

/-!
# Nodes and values

A node applies an operator to named values and names the results. A value may be described by a
type; a type that tensors cannot have is kept as it was stored.
-/

namespace TensorGraph

/-- An application of an operator. -/
structure Node where
  name : String := ""
  op : String
  /-- The collection of operators that the name refers to; empty for the default one. -/
  domain : String := ""
  /-- The names of the operands; an empty one stands for an operand that is left out. -/
  inputs : List String
  /-- The names of the results; an empty one stands for a result that is not used. -/
  outputs : List String
  attributes : Attributes := .empty
  doc : String := ""
deriving DecidableEq, Repr, Inhabited

/-- The one spelling of the default collection of operators. -/
def canonicalDomain (domain : String) : String := if domain = "ai.onnx" then "" else domain

/-- The spelling of a collection of operators that is shown to people. -/
def shownDomain (domain : String) : String := if domain.isEmpty then "ai.onnx" else domain

namespace Node

def isDefaultDomain (n : Node) : Bool := (canonicalDomain n.domain).isEmpty

/-- How a node is called in messages: by its name, or else by its operator. -/
def label (n : Node) : String := if n.name.isEmpty then n.op else n.name

/-- The name of an operand that is there. -/
def input? (n : Node) (i : Nat) : Option String := n.inputs[i]?.filter fun s => !s.isEmpty

/-- The names of the operands that are there. -/
def presentInputs (n : Node) : List String := n.inputs.filter fun s => !s.isEmpty

/-- The names of the results that are used. -/
def presentOutputs (n : Node) : List String := n.outputs.filter fun s => !s.isEmpty

def attribute? (n : Node) (name : String) : Option Attribute := n.attributes.get? name
def int? (n : Node) (name : String) : Option Int := (n.attribute? name).bind Attribute.int?
def float? (n : Node) (name : String) : Option UInt32 :=
  (n.attribute? name).bind Attribute.float?
def ints? (n : Node) (name : String) : Option (List Int) :=
  (n.attribute? name).bind Attribute.ints?
def floats? (n : Node) (name : String) : Option (List UInt32) :=
  (n.attribute? name).bind Attribute.floats?
def string? (n : Node) (name : String) : Option String :=
  (n.attribute? name).bind Attribute.string?
def tensor? (n : Node) (name : String) : Option Tensor :=
  (n.attribute? name).bind Attribute.tensor?

def summary (n : Node) : String :=
  let inputs := ", ".intercalate n.inputs
  let outputs := ", ".intercalate n.outputs
  s!"{n.label} ({n.op}) [{inputs}] -> [{outputs}]"

/-- Whether two nodes are equal, where floating-point words compare as numbers. -/
def agrees (a b : Node) : Bool :=
  a.attributes.agrees b.attributes && { a with attributes := b.attributes } == b

end Node

/-- A named value and what is known about it. -/
structure ValueInfo where
  name : String
  type : TensorType := .unknown
  doc : String := ""
  /-- A declared type that no tensor has, as it was stored; `type` is then unknown. -/
  foreign? : Option Wire.Message := none
deriving DecidableEq, Repr, Inhabited

def ValueInfo.text (v : ValueInfo) : String := s!"{v.name}: {v.type.text}"

end TensorGraph
