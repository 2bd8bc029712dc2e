import TensorGraph.Graph.Basic
import TensorGraph.Graph.Order

/-!
# Resolving names

Resolving a graph finds the producer of every name and orders the nodes. It fails if a node or the
graph itself refers to a name that nothing produces, or if nodes depend on each other in a circle.
-/

namespace TensorGraph

/-- Why the names of a graph cannot be resolved. -/
inductive StructureError where
  | unresolved (user value : String)
  /-- Nodes depend on each other in a circle, through this value among others. -/
  | cyclic (value : String)
deriving DecidableEq, Repr

def StructureError.message : StructureError → String
  | .unresolved user value => s!"node '{user}' references unresolved value '{value}'"
  | .cyclic value => s!"graph contains a cycle through value '{value}'"

def graphOutputUser : String := "<graph output>"

namespace GraphParts

/-- The names of all results of nodes, with what produces them. -/
def nodeProducers (nodes : List Node) : ProducerIndex :=
  nodes.zipIdx.flatMap fun (n, position) =>
    n.outputs.zipIdx.filterMap fun (name, slot) =>
      if name.isEmpty then none else some (name, .node position slot)

/-- The producers of all names. Where a name has several, constants come before sparse constants,
these before inputs, and these before results of nodes. -/
def index (p : GraphParts) : ProducerIndex :=
  (p.initializers.zipIdx.map fun (t, i) => (t.name, .initializer i)) ++
    (p.sparse.zipIdx.filterMap fun (s, i) =>
      if s.name.isEmpty then none else some (s.name, .sparse i)) ++
    (p.inputs.map fun v => (v.name, .input)) ++
    nodeProducers p.nodes

/-- The nodes that a node takes operands from, with the names of those. -/
def dependencies (producers : ProducerIndex) (n : Node) :
    Except StructureError (List Order.Dependency) :=
  n.presentInputs.foldlM (fun found name =>
    match producers.lookup name with
    | some (.node position _) => .ok (found ++ [(position, name)])
    | some _ => .ok found
    | none => .error (.unresolved n.label name)) []

/-- Checks that something produces each output of the graph. -/
def checkOutputs (producers : ProducerIndex) (outputs : List ValueInfo) :
    Except StructureError Unit :=
  outputs.forM fun v =>
    if (producers.lookup v.name).isSome then .ok ()
    else .error (.unresolved graphOutputUser v.name)

/-- Finds the producers of all names and an order for the nodes. -/
def resolve (p : GraphParts) : Except StructureError (ProducerIndex × List Nat) := do
  let producers := p.index
  let dependencies ← p.nodes.mapM (dependencies producers)
  checkOutputs producers p.outputs
  let order ← (Order.search dependencies.toArray).mapError .cyclic
  return (producers, order)

/-- The resolved graph with these parts. -/
def build (p : GraphParts) : Except StructureError Graph :=
  p.resolve.map fun (producers, order) => { p with producers, order }

end GraphParts

end TensorGraph
