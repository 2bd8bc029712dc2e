import TensorGraph.Model.Basic
import TensorGraph.Text.Lossy
import TensorGraph.Wire.Encode

/-!
# Writing models

The message that each part of a model is stored as, and the bytes of a whole model.
-/

namespace TensorGraph

open Wire Wire.Message

/-- The kinds of settings that are stored. -/
inductive AttributeKind where
  | float | int | string | tensor | graph | floats | ints | strings | tensors | graphs
deriving DecidableEq, Repr

def AttributeKind.code : AttributeKind → Int32
  | float => 1 | int => 2 | string => 3 | tensor => 4 | graph => 5
  | floats => 6 | ints => 7 | strings => 8 | tensors => 9 | graphs => 10

def externalLocation : Int32 := 1

def entryMessages (entries : List (String × String)) : List Message :=
  entries.map fun (key, value) => ofText EntryField.key key ++ ofText EntryField.value value

def Dim.toMessage : Dim → Message
  | .known n => ofValues DimField.value [.varint (UInt64.ofNat n)]
  | .param p => ofValues DimField.param [.text p]
  | .unknown => []

def Shape.toMessage (s : Shape) : Message := ofMessages ShapeField.dim (s.dims.map Dim.toMessage)

def elemCode (elem? : Option ElemType) : Int32 := elem?.elim 0 fun t => Int32.ofNat t.code

def TensorType.toMessage (t : TensorType) : Message :=
  ofMessage? TypeField.tensor <| some <|
    ofInt32 TensorTypeField.elemType (elemCode t.elem?) ++
      ofMessage? TensorTypeField.shape (t.shape?.map Shape.toMessage)

/-- The message of a value; a type of which nothing is known is left out. -/
def ValueInfo.toMessage (v : ValueInfo) : Message :=
  let type? := match v.foreign? with
    | some type => some type
    | none => if v.type.isUnknown then none else some v.type.toMessage
  ofText ValueField.name v.name ++ ofMessage? ValueField.type type? ++ ofText ValueField.doc v.doc

/-- The message of a constant. Its elements go into the field that fits their form. -/
def Tensor.toMessage (t : Tensor) : Message :=
  let code := match t.elem? with
    | some elem => elemCode (some elem)
    | none => t.otherCode?.getD 0
  let floats := match t.payload with | .floats ws => ws | _ => []
  let int32s := match t.payload with | .int32s vs => vs | _ => []
  let strings := match t.payload with | .strings vs => vs | _ => []
  let int64s := match t.payload with | .int64s vs => vs | _ => []
  let raw := match t.payload with | .raw b => b | _ => []
  let doubles := match t.payload with | .doubles ws => ws | _ => []
  let uint64s := match t.payload with | .uint64s ws => ws | _ => []
  let entries := match t.payload with | .external entries => entries | _ => []
  let location := match t.payload with | .external _ => externalLocation | _ => 0
  ofInt64s TensorField.dims (t.extents.map fun n => (UInt64.ofNat n).toInt64) ++
    ofInt32 TensorField.elemType code ++
    ofFixed32s TensorField.floatData floats ++
    ofInt32s TensorField.int32Data int32s ++
    ofChunks TensorField.stringData strings ++
    ofInt64s TensorField.int64Data int64s ++
    ofText TensorField.name t.name ++
    ofChunk TensorField.rawData raw ++
    ofFixed64s TensorField.doubleData doubles ++
    ofUInt64s TensorField.uint64Data uint64s ++
    ofText TensorField.doc t.doc ++
    ofMessages TensorField.externalData (entryMessages entries) ++
    ofInt32 TensorField.location location

namespace Attribute

def storedKind : Attribute → AttributeKind
  | int _ => .int
  | float _ => .float
  | ints _ => .ints
  | floats _ => .floats
  | string _ => .string
  | strings _ => .strings
  | tensor _ => .tensor
  | tensors _ => .tensors
  | graph _ => .graph
  | graphs _ => .graphs

def valueField : Attribute → Message
  | float w => ofFixed32 AttributeField.float w
  | int v => ofInt64 AttributeField.int v
  | string s => ofChunk AttributeField.string (Text.toBytes s)
  | tensor t => ofMessage? AttributeField.tensor (some t.toMessage)
  | graph g => ofMessage? AttributeField.graph (some g)
  | floats ws => ofFixed32s AttributeField.floats ws
  | ints vs => ofInt64s AttributeField.ints vs
  | strings ss => ofChunks AttributeField.strings (ss.map Text.toBytes)
  | tensors ts => ofMessages AttributeField.tensors (ts.map Tensor.toMessage)
  | graphs gs => ofMessages AttributeField.graphs gs

def toMessage (name : String) (a : Attribute) : Message :=
  ofText AttributeField.name name ++ a.valueField ++ ofInt32 AttributeField.type a.storedKind.code

end Attribute

def Node.toMessage (n : Node) : Message :=
  ofTexts NodeField.input n.inputs ++ ofTexts NodeField.output n.outputs ++
    ofText NodeField.name n.name ++ ofText NodeField.opType n.op ++
    ofMessages NodeField.attr (n.attributes.entries.map fun (name, a) => a.toMessage name) ++
    ofText NodeField.doc n.doc ++ ofText NodeField.domain n.domain

def GraphParts.toMessage (p : GraphParts) : Message :=
  ofMessages GraphField.node (p.nodes.map Node.toMessage) ++ ofText GraphField.name p.name ++
    ofMessages GraphField.initializer (p.initializers.map Tensor.toMessage) ++
    ofText GraphField.doc p.doc ++
    ofMessages GraphField.input (p.inputs.map ValueInfo.toMessage) ++
    ofMessages GraphField.output (p.outputs.map ValueInfo.toMessage) ++
    ofMessages GraphField.valueInfo (p.valueInfo.map ValueInfo.toMessage) ++
    ofMessages GraphField.quantization p.quantization ++
    ofMessages GraphField.sparseInitializer p.sparse

def OpsetImport.toMessage (o : OpsetImport) : Message :=
  ofText OpsetField.domain o.domain ++ ofInt64 OpsetField.version o.version

namespace Model

def toMessage (m : Model) : Message :=
  ofInt64 ModelField.irVersion m.irVersion ++ ofText ModelField.producerName m.producerName ++
    ofText ModelField.producerVersion m.producerVersion ++ ofText ModelField.domain m.domain ++
    ofInt64 ModelField.modelVersion m.modelVersion ++ ofText ModelField.doc m.doc ++
    ofMessage? ModelField.graph (some m.graph.toMessage) ++
    ofMessages ModelField.opsetImport (m.opsets.map OpsetImport.toMessage) ++
    ofMessages ModelField.metadata (entryMessages m.metadata) ++
    ofMessages ModelField.trainingInfo m.trainingInfo ++
    ofMessages ModelField.functions m.functions

/-- The bytes of a model. -/
def encode (m : Model) : Bytes := m.toMessage.encode .model

end Model

end TensorGraph
