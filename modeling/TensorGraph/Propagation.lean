import TensorGraph.Graph.Revise
import TensorGraph.Rule.Registry

/-!
# Propagation

Types are propagated through a graph node by node, in the order of the graph. Each rule sees what is
known about its operands by then, and what it says about the results is merged with what the graph
declares. A node whose rule gives no answer is skipped; its results keep their declared types. If a
rule gives up, so does the propagation.
-/

namespace TensorGraph

/-- A node of which propagation could not tell all result types. -/
structure Skip where
  node : String
  op : String
  reason : String
deriving DecidableEq, Repr, Inhabited

def Skip.text (s : Skip) : String := s!"{s.node} ({s.op}): {s.reason}"

/-- How many types were recorded, and which nodes were skipped. -/
structure PropagationReport where
  inferred : Nat := 0
  skipped : List Skip := []
deriving DecidableEq, Repr, Inhabited

namespace PropagationReport

def isComplete (r : PropagationReport) : Bool := r.skipped.isEmpty

def summary (r : PropagationReport) : String :=
  s!"{r.inferred} values inferred, {r.skipped.length} nodes skipped"

end PropagationReport

/-- What is known in the midst of a propagation. Of several entries for a name the first counts. -/
structure Knowledge where
  /-- Types of inputs, of constants and of the results of nodes passed. -/
  known : List (String × TensorType)
  constants : List (String × Tensor) := []
  /-- Types to be recorded, the latest first. -/
  records : List ValueInfo := []
  skips : List Skip := []
deriving DecidableEq, Repr, Inhabited

namespace Graph

/-- The types that a graph declares for outputs and inner values; of several for one name the last
counts. -/
def declaredTypes (g : Graph) : List (String × TensorType) :=
  (((g.outputs ++ g.valueInfo).filter fun v => !v.type.isUnknown).map
    fun v => (v.name, v.type)).reverse

/-- The type of the value that a sparse constant defines, if it has values at all. -/
def sparseType? (g : Graph) (s : SparseConstant) : Option (String × TensorType) :=
  match Wire.Message.message? s Wire.SparseField.values with
  | none => none
  | some _ => (g.valueType? s.name).map fun type => (s.name, type)

/-- What is known before the first node: the types of inputs, of constants, which outweigh those,
and of sparse constants, which outweigh both. -/
def initialKnowledge (g : Graph) : Knowledge where
  known := ((g.inputs.map fun v => (v.name, v.type)) ++
    (g.initializers.map fun t => (t.name, t.type)) ++ g.sparse.filterMap g.sparseType?).reverse

end Graph

namespace Knowledge

/-- The type of a value as far as it is known: what was propagated, or else what is declared. -/
def typeOf (k : Knowledge) (declared : List (String × TensorType)) (name : String) : TensorType :=
  ((k.known.lookup name).or (declared.lookup name)).getD .unknown

/-- What is known about one operand of a node; nothing for one that is left out. -/
def operand? (k : Knowledge) (g : Graph) (declared : List (String × TensorType))
    (name : String) : Option Operand :=
  if name.isEmpty then none
  else some {
    type := k.typeOf declared name
    constant? := (g.initializer? name).or (k.constants.lookup name) }

/-- Records that a node was skipped, and why. -/
def skip (k : Knowledge) (n : Node) (reason : String) : Knowledge :=
  { k with skips := ⟨n.label, n.op, reason⟩ :: k.skips }

/-- Adds the results of a node that its rule could compute. -/
def addConstants (k : Knowledge) (outputs : List String) (values : List (Option Tensor)) :
    Knowledge :=
  (List.zip outputs values).foldl (fun k (name, value?) =>
    match value? with
    | some value =>
      if name.isEmpty then k
      else { k with constants := (name, { value with name }) :: k.constants }
    | none => k) k

def conflictText (name : String) (declared inferred : TensorType) (conflict : TypeConflict) :
    String :=
  s!"output '{name}': declared {declared.text} conflicts with inferred {inferred.text}: " ++
    conflict.message

/-- Adds what a rule says about one result. A declaration that disagrees is kept. -/
def addType (declared : List (String × TensorType)) (n : Node) (k : Knowledge)
    (result : String × TensorType) : Knowledge :=
  let (name, type) := result
  if name.isEmpty || type.isUnknown then k
  else
    let accept (type : TensorType) : Knowledge :=
      { k with known := (name, type) :: k.known, records := { name, type } :: k.records }
    match declared.lookup name with
    | none => accept type
    | some d =>
      match d.merge type with
      | .ok merged => accept merged
      | .error conflict =>
        { k.skip n (conflictText name d type conflict) with known := (name, d) :: k.known }

end Knowledge

/-- The answer of a rule about a node: the types of the results and those it could compute. -/
abbrev NodeAnswer := Except RuleError (List TensorType × List (Option Tensor))

/-- Asks the rule for the operator of a node; there are rules for the default collection only. -/
def askRule (rules : Registry) (c : Context) : NodeAnswer :=
  let noRule : RuleError := .noRule c.node.domain c.node.op
  if !c.node.isDefaultDomain then .error noRule
  else
    match rules.rule? c.node.op with
    | none => .error noRule
    | some rule => (rule.infer c).map fun types => (types, (rule.fold c).getD [])

/-- Adds what the rule of a node says about its results. A node without an answer is skipped; a rule
that gives up ends it all. -/
def passNode (rules : Registry) (opset : Int) (g : Graph)
    (declared : List (String × TensorType)) (k : Knowledge) (n : Node) :
    Except Abort Knowledge :=
  let operands := n.inputs.map (k.operand? g declared)
  match askRule rules { node := n, operands, opset } with
  | .error (.abort a) => .error a
  | .error e => .ok (k.skip n e.message)
  | .ok (types, values) =>
    .ok ((List.zip n.outputs types).foldl (Knowledge.addType declared n)
      (k.addConstants n.outputs values))

/-- Passes all nodes of a graph in its order. -/
def passNodes (rules : Registry) (opset : Int) (g : Graph) : Except Abort Knowledge :=
  (g.orderedNodes.map Prod.snd).foldlM (passNode rules opset g g.declaredTypes)
    g.initialKnowledge

/-- Propagates types through a graph and records them in it. -/
def Graph.propagate (g : Graph) (rules : Registry) (opset : Int) :
    Except Abort (Graph × PropagationReport) :=
  (passNodes rules opset g).map fun k =>
    let records := k.records.reverse
    (records.foldl Graph.record g, ⟨records.length, k.skips.reverse⟩)

end TensorGraph
