import TensorGraph.Graph.Resolve

/-!
# Models

A model is a graph together with its version numbers, the collections of operators it relies on,
and notes that are passed on as they are.
-/

namespace TensorGraph

/-- A collection of operators that a model relies on, and its version. -/
structure OpsetImport where
  /-- The name of the collection; empty for the default one. -/
  domain : String
  version : Int64
deriving DecidableEq, Repr, Inhabited

def OpsetImport.text (o : OpsetImport) : String := s!"{shownDomain o.domain} v{o.version}"

/-- A model whose graph is resolved. -/
structure Model where
  irVersion : Int64
  opsets : List OpsetImport
  producerName : String := ""
  producerVersion : String := ""
  domain : String := ""
  modelVersion : Int64 := 0
  doc : String := ""
  metadata : List (String × String) := []
  graph : Graph
  functions : List Wire.Message := []
  trainingInfo : List Wire.Message := []
deriving DecidableEq, Repr, Inhabited

/-- Why a stored setting cannot be read. -/
inductive AttributeFault where
  | missingTensor
  | missingGraph
  | negativeExtent (tensor : String) (extent : Int64)
  | unsupportedKind (code : Int32)
deriving DecidableEq, Repr

/-- Why bytes make no model. -/
inductive Malformation where
  | emptyInput
  | emptyFile (path : String)
  | undecodable
  | noGraph
  | negativeExtent (tensor : String) (extent : Int64)
  | attr (node name : String) (fault : AttributeFault)
deriving DecidableEq, Repr

/-- Why a model cannot be read or written. -/
inductive ModelError where
  | io (path reason : String)
  | malformed (cause : Malformation)
  | structural (error : StructureError)
deriving DecidableEq, Repr

def malformedPreamble : String := "failed to deserialize model: "

def negativeExtentText (tensor : String) (extent : Int64) : String :=
  s!"tensor '{tensor}' has negative dimension {extent}"

def AttributeFault.message : AttributeFault → String
  | .missingTensor => "tensor attribute without a tensor"
  | .missingGraph => "graph attribute without a graph"
  | .negativeExtent tensor extent => malformedPreamble ++ negativeExtentText tensor extent
  | .unsupportedKind code => s!"unsupported attribute type {code}"

def Malformation.message : Malformation → String
  | .emptyInput => "empty input"
  | .emptyFile path => s!"'{path}' is empty"
  | .undecodable => "failed to decode Protobuf message"
  | .noGraph => "model has no graph"
  | .negativeExtent tensor extent => negativeExtentText tensor extent
  | .attr node name fault => s!"node '{node}' attribute '{name}': {fault.message}"

def ModelError.message : ModelError → String
  | .io path reason => s!"cannot access '{path}': {reason}"
  | .malformed cause => malformedPreamble ++ cause.message
  | .structural error => error.message

namespace Model

/-- The version of a collection that the model relies on. -/
def opsetVersion? (m : Model) (domain : String) : Option Int64 :=
  (m.opsets.find? fun o => canonicalDomain o.domain == canonicalDomain domain).map
    OpsetImport.version

def defaultOpset? (m : Model) : Option Int64 := m.opsetVersion? ""

def summary (m : Model) : String :=
  let opsets := ", ".intercalate (m.opsets.map OpsetImport.text)
  s!"ir_version {m.irVersion}, opsets [{opsets}], producer '{m.producerName}' " ++
    s!"{m.producerVersion} | {m.graph.summary}"

/-- Whether two models are equal, where floating-point words compare as numbers. -/
def agrees (a b : Model) : Bool :=
  a.graph.agrees b.graph && listsAgree (Wire.Message.agrees .function) a.functions b.functions &&
    listsAgree (Wire.Message.agrees .trainingInfo) a.trainingInfo b.trainingInfo &&
    a.irVersion == b.irVersion && a.opsets == b.opsets && a.producerName == b.producerName &&
    a.producerVersion == b.producerVersion && a.domain == b.domain &&
    a.modelVersion == b.modelVersion && a.doc == b.doc && a.metadata == b.metadata

end Model

end TensorGraph
