import TensorGraph.Model.Encode
import TensorGraph.Wire.Decode

/-!
# Reading models

The part of a model that each message stands for, and the model that bytes stand for. Messages that
no operation here looks into are kept as they are.
-/

namespace TensorGraph

open Wire

def entriesOfMessages (ms : List Message) : List (String × String) :=
  ms.map fun m => (m.text EntryField.key, m.text EntryField.value)

/-- An extent: a negative number and an empty name say nothing. -/
def Dim.ofMessage (m : Message) : Dim :=
  match (m.words DimField.value).head?, (m.texts DimField.param).head? with
  | some w, _ => if w.toNat < 0x8000000000000000 then .known w.toNat else .unknown
  | none, some p => if p.isEmpty then .unknown else .param p
  | none, none => .unknown

def Shape.ofMessage (m : Message) : Shape := ⟨(m.messages ShapeField.dim).map Dim.ofMessage⟩

def TensorType.ofMessage (m : Message) : TensorType where
  elem? := ElemType.ofCode? (m.int32 TensorTypeField.elemType).toInt
  shape? := (m.message? TensorTypeField.shape).map Shape.ofMessage

/-- Whether a stored type is one that `TensorType` cannot express: no tensor, or a tensor with
elements of another type. -/
def isForeignType (m : Message) : Bool :=
  [TypeField.sequence, TypeField.map, TypeField.sparseTensor, TypeField.optional].any
      (fun number => (m.message? number).isSome) ||
    (m.message? TypeField.tensor).any fun t =>
      let code := t.int32 TensorTypeField.elemType
      code != 0 && (ElemType.ofCode? code.toInt).isNone

def ValueInfo.ofMessage (m : Message) : ValueInfo :=
  let plain : ValueInfo := { name := m.text ValueField.name, doc := m.text ValueField.doc }
  match m.message? ValueField.type with
  | none => plain
  | some type =>
    if isForeignType type then { plain with foreign? := some type }
    else
      match type.message? TypeField.tensor with
      | none => plain
      | some tensor => { plain with type := TensorType.ofMessage tensor }

/-- The elements of a stored constant: of several fields the first that is not empty counts. -/
def Payload.ofMessage (m : Message) : Payload :=
  if m.int32 TensorField.location = externalLocation then
    .external (entriesOfMessages (m.messages TensorField.externalData))
  else if !(m.chunk TensorField.rawData).isEmpty then .raw (m.chunk TensorField.rawData)
  else if !(m.fixed32s TensorField.floatData).isEmpty then
    .floats (m.fixed32s TensorField.floatData)
  else if !(m.words TensorField.int32Data).isEmpty then .int32s (m.int32s TensorField.int32Data)
  else if !(m.words TensorField.int64Data).isEmpty then .int64s (m.int64s TensorField.int64Data)
  else if !(m.fixed64s TensorField.doubleData).isEmpty then
    .doubles (m.fixed64s TensorField.doubleData)
  else if !(m.words TensorField.uint64Data).isEmpty then .uint64s (m.words TensorField.uint64Data)
  else if !(m.chunks TensorField.stringData).isEmpty then
    .strings (m.chunks TensorField.stringData)
  else .empty

/-- A constant, or its name and the first of its extents that is negative. -/
def Tensor.ofMessage (m : Message) : Except (String × Int64) Tensor := do
  let name := m.text TensorField.name
  let extents ← (m.int64s TensorField.dims).mapM fun d =>
    if d < 0 then .error (name, d) else .ok d.toInt.toNat
  let code := m.int32 TensorField.elemType
  let elem? := ElemType.ofCode? code.toInt
  return {
    name
    elem?
    extents
    payload := .ofMessage m
    doc := m.text TensorField.doc
    otherCode? := if elem?.isNone && code != 0 then some code else none }

/-- The kind of a setting. Where none is stored, it follows from the fields that are in use. -/
def storedKindCode (m : Message) : Int32 :=
  let code := m.int32 AttributeField.type
  if code ≠ 0 then code
  else AttributeKind.code <|
    if !(m.words AttributeField.ints).isEmpty then .ints
    else if !(m.fixed32s AttributeField.floats).isEmpty then .floats
    else if !(m.chunks AttributeField.strings).isEmpty then .strings
    else if !(m.messages AttributeField.tensors).isEmpty then .tensors
    else if !(m.messages AttributeField.graphs).isEmpty then .graphs
    else if (m.message? AttributeField.tensor).isSome then .tensor
    else if (m.message? AttributeField.graph).isSome then .graph
    else if !(m.chunk AttributeField.string).isEmpty then .string
    else if !Binary.isZero32 (m.fixed32 AttributeField.float) then .float
    else .int

def AttributeKind.ofCode? (code : Int32) : Option AttributeKind :=
  [float, int, string, tensor, graph, floats, ints, strings, tensors, graphs].find? fun k =>
    k.code == code

def attributeTensor (m : Message) : Except AttributeFault Tensor :=
  (Tensor.ofMessage m).mapError fun (name, extent) => .negativeExtent name extent

/-- A setting; one of a kind that is not known is a fault. -/
def Attribute.ofMessage (m : Message) : Except AttributeFault Attribute :=
  let code := storedKindCode m
  match AttributeKind.ofCode? code with
  | some .float => .ok (.float (m.fixed32 AttributeField.float))
  | some .int => .ok (.int (m.int64 AttributeField.int))
  | some .string => .ok (.string (Text.ofBytes (m.chunk AttributeField.string)))
  | some .tensor =>
    match m.message? AttributeField.tensor with
    | some t => (attributeTensor t).map .tensor
    | none => .error .missingTensor
  | some .graph =>
    match m.message? AttributeField.graph with
    | some g => .ok (.graph g)
    | none => .error .missingGraph
  | some .floats => .ok (.floats (m.fixed32s AttributeField.floats))
  | some .ints => .ok (.ints (m.int64s AttributeField.ints))
  | some .strings => .ok (.strings ((m.chunks AttributeField.strings).map Text.ofBytes))
  | some .tensors => ((m.messages AttributeField.tensors).mapM attributeTensor).map .tensors
  | some .graphs => .ok (.graphs (m.messages AttributeField.graphs))
  | none => .error (.unsupportedKind code)

def Node.ofMessage (m : Message) : Except Malformation Node := do
  let bare : Node := {
    name := m.text NodeField.name
    op := m.text NodeField.opType
    domain := m.text NodeField.domain
    inputs := m.texts NodeField.input
    outputs := m.texts NodeField.output
    doc := m.text NodeField.doc }
  let entries ← (m.messages NodeField.attr).mapM fun a =>
    let name := a.text AttributeField.name
    match Attribute.ofMessage a with
    | .ok value => .ok (name, value)
    | .error fault => .error (.attr bare.label name fault)
  return { bare with attributes := .ofList entries }

def GraphParts.ofMessage (m : Message) : Except Malformation GraphParts := do
  let initializers ← (m.messages GraphField.initializer).mapM fun t =>
    (Tensor.ofMessage t).mapError fun (name, extent) => .negativeExtent name extent
  let nodes ← (m.messages GraphField.node).mapM Node.ofMessage
  return {
    name := m.text GraphField.name
    doc := m.text GraphField.doc
    nodes
    inputs := (m.messages GraphField.input).map ValueInfo.ofMessage
    outputs := (m.messages GraphField.output).map ValueInfo.ofMessage
    initializers
    valueInfo := (m.messages GraphField.valueInfo).map ValueInfo.ofMessage
    sparse := m.messages GraphField.sparseInitializer
    quantization := m.messages GraphField.quantization }

def OpsetImport.ofMessage (m : Message) : OpsetImport :=
  ⟨m.text OpsetField.domain, m.int64 OpsetField.version⟩

namespace Model

/-- A model whose graph is resolved. -/
def ofMessage (m : Message) : Except ModelError Model := do
  match m.message? ModelField.graph with
  | none => .error (.malformed .noGraph)
  | some g =>
    let parts ← (GraphParts.ofMessage g).mapError .malformed
    let graph ← parts.build.mapError .structural
    return {
      irVersion := m.int64 ModelField.irVersion
      opsets := (m.messages ModelField.opsetImport).map OpsetImport.ofMessage
      producerName := m.text ModelField.producerName
      producerVersion := m.text ModelField.producerVersion
      domain := m.text ModelField.domain
      modelVersion := m.int64 ModelField.modelVersion
      doc := m.text ModelField.doc
      metadata := entriesOfMessages (m.messages ModelField.metadata)
      graph
      functions := m.messages ModelField.functions
      trainingInfo := m.messages ModelField.trainingInfo }

/-- The model for which bytes stand. -/
def decode (bytes : Bytes) : Except ModelError Model :=
  if bytes.isEmpty then .error (.malformed .emptyInput)
  else
    match Message.decode? .model bytes with
    | none => .error (.malformed .undecodable)
    | some m => ofMessage m

end Model

end TensorGraph
