import TensorGraph.Node

/-!
# Graphs

A graph is a list of nodes together with the values that enter and leave it and the constants
stored in it. Values are referred to by name. A resolved graph also knows what produces each name
and an order in which every node comes after the producers of its operands.
-/

namespace TensorGraph

/-- What produces a named value. -/
inductive Producer where
  | input
  | initializer (position : Nat)
  | sparse (position : Nat)
  /-- A result of a node: the positions of the node and of the result. -/
  | node (position slot : Nat)
deriving DecidableEq, Repr, Inhabited

abbrev SparseConstant := Wire.Message

namespace SparseConstant

open Wire

def name (s : SparseConstant) : String :=
  (Message.message? s SparseField.values).elim "" fun values => values.text TensorField.name

/-- The type of a sparse constant; its shape is unknown if an extent is negative. -/
def type (s : SparseConstant) : TensorType where
  elem? := (Message.message? s SparseField.values).bind fun values =>
    ElemType.ofCode? (values.int32 TensorField.elemType).toInt
  shape? := ((Message.int64s s SparseField.dims).mapM fun d =>
    if d.toInt < 0 then none else some d.toInt.toNat).map Shape.ofExtents

end SparseConstant

/-- The parts of a graph, as they are stored. -/
structure GraphParts where
  name : String := ""
  doc : String := ""
  nodes : List Node := []
  inputs : List ValueInfo := []
  outputs : List ValueInfo := []
  initializers : List Tensor := []
  valueInfo : List ValueInfo := []
  sparse : List SparseConstant := []
  quantization : List Wire.Message := []
deriving DecidableEq, Repr, Inhabited

/-- What produces each name; of several entries for one name the first counts. -/
abbrev ProducerIndex := List (String × Producer)

/-- Whether two indices give the same answer for every name. -/
def ProducerIndex.same (a b : ProducerIndex) : Bool :=
  (a ++ b).all fun (name, _) => a.lookup name == b.lookup name

/-- A graph whose names are resolved. -/
structure Graph extends GraphParts where
  producers : ProducerIndex
  /-- The positions of the nodes, each after the producers of its operands. -/
  order : List Nat
deriving DecidableEq, Repr, Inhabited

namespace Graph

/-- What produces a name in this graph. -/
def producer? (g : Graph) (name : String) : Option Producer := g.producers.lookup name

/-- The constant for which a name stands. -/
def initializer? (g : Graph) (name : String) : Option Tensor :=
  match g.producer? name with
  | some (.initializer i) => g.initializers[i]?
  | _ => none

def isInitializer (g : Graph) (name : String) : Bool :=
  match g.producer? name with
  | some (.initializer _) => true
  | _ => false

/-- What is known about a value: its first description among inputs, outputs and inner values, or
else the type of the constant it stands for. -/
def valueType? (g : Graph) (name : String) : Option TensorType :=
  match (g.inputs ++ g.outputs ++ g.valueInfo).find? fun v => v.name == name with
  | some v => some v.type
  | none =>
    match g.producer? name with
    | some (.initializer i) => g.initializers[i]?.map Tensor.type
    | some (.sparse i) => g.sparse[i]?.map SparseConstant.type
    | _ => none

/-- The nodes in the order of the graph, with their positions. -/
def orderedNodes (g : Graph) : List (Nat × Node) :=
  g.order.filterMap fun i => g.nodes[i]?.map fun n => (i, n)

def summary (g : Graph) : String :=
  s!"Graph '{g.name}': {g.nodes.length} nodes, {g.inputs.length} inputs, " ++
    s!"{g.outputs.length} outputs, {g.initializers.length} initializers"

/-- The summary, followed by one line for each node in the order of the graph. -/
def text (g : Graph) : String :=
  String.join ((g.summary ++ "\n") :: g.orderedNodes.map fun (i, n) => s!"  [{i}] {n.summary}\n")

/-- Whether two graphs are equal, where floating-point words compare as numbers. -/
def agrees (g h : Graph) : Bool :=
  g.name == h.name && g.doc == h.doc && listsAgree Node.agrees g.nodes h.nodes &&
    g.inputs == h.inputs && g.outputs == h.outputs &&
    listsAgree Tensor.agrees g.initializers h.initializers && g.valueInfo == h.valueInfo &&
    listsAgree (Wire.Message.agrees .sparseTensor) g.sparse h.sparse &&
    g.quantization == h.quantization && g.producers.same h.producers && g.order == h.order

end Graph

end TensorGraph
