import TensorGraph.Graph.Basic

/-!
# Revising a graph

The two changes that a resolved graph admits: declared inputs are dropped, and values receive
types. Neither touches the nodes, so the order of the graph stays as it is.
-/

namespace TensorGraph

/-- Gives the first value of a name a type, unless it was declared with a type that no tensor has.
There is no result if no value has the name. -/
def setType? (name : String) (type : TensorType) : List ValueInfo → Option (List ValueInfo)
  | [] => none
  | v :: rest =>
    if v.name = name then
      some ((if v.foreign?.isSome then v else { v with type }) :: rest)
    else (setType? name type rest).map fun rest => v :: rest

namespace Graph

/-- Keeps only some inputs. A name that no input has any longer loses its producer if that was the
input. -/
def retainInputs (g : Graph) (keep : ValueInfo → Bool) : Graph :=
  let inputs := g.inputs.filter keep
  let removed := (g.inputs.filter fun v => !keep v).map ValueInfo.name
  let gone (name : String) : Bool :=
    removed.contains name && g.producers.lookup name == some .input &&
      !(inputs.any fun v => v.name == name)
  { g with inputs, producers := g.producers.filter fun (name, _) => !gone name }

/-- How many inputs are not kept. -/
def countDropped (g : Graph) (keep : ValueInfo → Bool) : Nat :=
  (g.inputs.filter fun v => !keep v).length

/-- Gives a value a type. A declared output keeps its place, any other value is described among
the inner values; inputs and values with a type that no tensor has are left alone. -/
def record (g : Graph) (v : ValueInfo) : Graph :=
  if g.inputs.any fun w => w.name == v.name then g
  else
    match setType? v.name v.type g.outputs with
    | some outputs => { g with outputs }
    | none =>
      match setType? v.name v.type g.valueInfo with
      | some valueInfo => { g with valueInfo }
      | none => { g with valueInfo := g.valueInfo ++ [v] }

end Graph

end TensorGraph
