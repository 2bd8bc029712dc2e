import TensorGraph.Model.Basic
import TensorGraph.Signature

/-!
# Valid models

A valid model uses every name once, resolves, applies its operators as their signatures say, imports
the operators it uses and has a version that allows what it does. The checks run in this order and
the first violation is reported.
-/

namespace TensorGraph

/-- The first version at which a constant need not be declared as an input. -/
def undeclaredConstantsVersion : Int64 := 4

/-- The first version at which a model must name the operators it relies on. -/
def opsetsRequiredVersion : Int64 := 3

/-- The versions that are accepted. -/
structure VersionRange where
  least : Int64 := 1
  greatest : Int64 := 11
deriving DecidableEq, Repr, Inhabited

/-- The lists of a graph in which each name may stand once. -/
inductive NameList where
  | input | output | initializer
deriving DecidableEq, Repr

def NameList.word : NameList → String
  | input => "input"
  | output => "output"
  | initializer => "initializer"

/-- What has taken a name that a node gives to a result. -/
inductive Holder where
  | input | initializer | sparse | node
deriving DecidableEq, Repr

def Holder.text : Holder → String
  | input => "a graph input"
  | initializer => "an initializer"
  | sparse => "a sparse initializer"
  | node => "another node output"

/-- What is wrong with a node by itself. -/
inductive NodeFault where
  | emptyOp
  | signature (fault : SignatureFault)
deriving DecidableEq, Repr

/-- What is wrong with the collections of operators that a model relies on. -/
inductive OpsetFault where
  | repeatedDomain (domain : String)
  | nonPositiveVersion (domain : String) (version : Int64)
  | notImported (node domain : String)
deriving DecidableEq, Repr

/-- Why the version of a model does not allow what the model does. -/
inductive VersionFault where
  | outside (range : VersionRange)
  | undeclaredConstant (name : String)
deriving DecidableEq, Repr

/-- What a model violates, with the names of those concerned. -/
inductive Violation where
  | duplicateName (list : NameList) (name : String)
  | duplicateProducer (node name : String) (holder : Holder)
  | structural (error : StructureError)
  | malformedNode (node op : String) (fault : NodeFault)
  | opset (fault : OpsetFault)
  | irVersion (version : Int64) (fault : VersionFault)
deriving DecidableEq, Repr

def NodeFault.message : NodeFault → String
  | emptyOp => "empty op_type"
  | signature fault => fault.message

def OpsetFault.message : OpsetFault → String
  | repeatedDomain domain => s!"domain '{domain}' imported more than once"
  | nonPositiveVersion domain version =>
    s!"domain '{domain}' has non-positive version {version}"
  | notImported node domain => s!"node '{node}' uses domain '{domain}' which is not imported"

def VersionFault.message : VersionFault → String
  | outside range => s!"supported range is {range.least}..={range.greatest}"
  | undeclaredConstant name =>
    s!"initializer '{name}' is not a graph input, which requires ir_version >= " ++
      toString undeclaredConstantsVersion

def Violation.message : Violation → String
  | duplicateName list name => s!"duplicate {list.word} name '{name}'"
  | duplicateProducer node name holder =>
    s!"node '{node}' output '{name}' collides with {holder.text}"
  | structural error => error.message
  | malformedNode node op fault => s!"malformed node '{node}' ({op}): {fault.message}"
  | opset fault => s!"invalid opset import: {fault.message}"
  | irVersion version fault => s!"invalid ir_version {version}: {fault.message}"

/-- The first element of a list that stands in it before. -/
def firstRepeated? (seen : List String) : List String → Option String
  | [] => none
  | name :: rest => if name ∈ seen then some name else firstRepeated? (name :: seen) rest

/-- Checks that no name stands twice in a list. -/
def checkUnique (list : NameList) (names : List String) : Except Violation Unit :=
  match firstRepeated? [] names with
  | some name => .error (.duplicateName list name)
  | none => .ok ()

namespace GraphParts

/-- Who holds which name before any node; of several holders of one name the first counts. -/
def holders (p : GraphParts) : List (String × Holder) :=
  (p.sparse.map fun s => (s.name, .sparse)) ++
    (p.initializers.map fun t => (t.name, .initializer)) ++
    (p.inputs.map fun v => (v.name, .input))

/-- Gives names to the results of a node; each must be free. -/
def assignOutputs (label : String) (held : List (String × Holder)) :
    List String → Except Violation (List (String × Holder))
  | [] => .ok held
  | name :: rest =>
    match held.lookup name with
    | some holder => .error (.duplicateProducer label name holder)
    | none => assignOutputs label ((name, .node) :: held) rest

/-- Checks that each result of a node gets a name that nothing else has. -/
def checkAssignments (p : GraphParts) : Except Violation Unit :=
  (p.nodes.foldlM (fun held n => assignOutputs n.label held n.presentOutputs) p.holders).map
    fun _ => ()

/-- Checks that names are used once: in each list of the graph, and by the results of nodes. -/
def checkNames (p : GraphParts) : Except Violation Unit := do
  checkUnique .input (p.inputs.map ValueInfo.name)
  checkUnique .output (p.outputs.map ValueInfo.name)
  checkUnique .initializer (p.initializers.map Tensor.name)
  p.checkAssignments

/-- Checks a node against the signature of its operator, if there is one. -/
def checkNode (n : Node) : Except Violation Unit :=
  if n.op.isEmpty then .error (.malformedNode n.label n.op .emptyOp)
  else if !n.isDefaultDomain then .ok ()
  else
    match Signature.find? n.op with
    | none => .ok ()
    | some s => (s.check n).mapError fun fault => .malformedNode n.label n.op (.signature fault)

end GraphParts

namespace Model

/-- Checks that no collection is named twice, and that all versions are positive. -/
def checkImports (seen : List String) : List OpsetImport → Except Violation Unit
  | [] => .ok ()
  | o :: rest =>
    let domain := canonicalDomain o.domain
    if domain ∈ seen then .error (.opset (.repeatedDomain o.domain))
    else if o.version < 1 then .error (.opset (.nonPositiveVersion o.domain o.version))
    else checkImports (domain :: seen) rest

/-- Checks that the operators a model uses are imported; old models need not import any. -/
def checkOpsets (m : Model) : Except Violation Unit := do
  checkImports [] m.opsets
  if m.opsets.isEmpty && m.irVersion < opsetsRequiredVersion then return
  m.graph.nodes.forM fun n =>
    let domain := canonicalDomain n.domain
    if m.opsets.any fun o => canonicalDomain o.domain == domain then .ok ()
    else .error (.opset (.notImported n.label (shownDomain domain)))

/-- Checks that the version is in range, and that old models declare their constants as inputs. -/
def checkVersion (m : Model) (range : VersionRange) : Except Violation Unit :=
  if m.irVersion < range.least || range.greatest < m.irVersion then
    .error (.irVersion m.irVersion (.outside range))
  else if m.irVersion < undeclaredConstantsVersion then
    match m.graph.initializers.find? fun t => !(m.graph.inputs.any fun v => v.name == t.name) with
    | some t => .error (.irVersion m.irVersion (.undeclaredConstant t.name))
    | none => .ok ()
  else .ok ()

/-- Checks a model and reports the first violation. -/
def validate (m : Model) (range : VersionRange) : Except Violation Unit := do
  m.graph.checkNames
  let _ ← m.graph.resolve.mapError .structural
  m.graph.nodes.forM GraphParts.checkNode
  m.checkOpsets
  m.checkVersion range

end Model

end TensorGraph
