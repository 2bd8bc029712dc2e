/-!
# Message kinds and their fields

A model file is a tree of messages. Each kind of message has a table of numbered fields; the table
says what a field holds and how often it occurs. Fields that a table does not list are skipped when
a message is read.
-/

namespace TensorGraph.Wire

/-- The kinds of messages. -/
inductive Kind where
  | model | trainingInfo | function | opsetImport | entry | graph | quantization | sparseTensor
  | node | attr | tensor | valueInfo | type | sequenceType | mapType | optionalType
  | tensorType | shape | dimension
deriving DecidableEq, Repr

/-- What one occurrence of a field without inner structure holds. -/
inductive Scalar where
  | int32 | int64 | uint64 | float | double | text | bytes
deriving DecidableEq, Repr

/-- What one occurrence of a field holds. -/
inductive FieldType where
  | scalar (type : Scalar)
  | message (kind : Kind)
deriving DecidableEq, Repr

/-- How often a field occurs and how its occurrences are written. -/
inductive Occurrence where
  /-- At most once; a scalar with its default value is left out. -/
  | single
  | repeated
  /-- Any number of times, written together as one chunk. -/
  | packed
  /-- At most one of all fields with this occurrence; written even with its default value. -/
  | choice
deriving DecidableEq, Repr

/-- A field of a kind of message. -/
structure Field where
  number : Nat
  type : FieldType
  occurs : Occurrence
deriving DecidableEq, Repr

/-! ## Field numbers -/

namespace ModelField
abbrev irVersion : Nat := 1
abbrev producerName : Nat := 2
abbrev producerVersion : Nat := 3
abbrev domain : Nat := 4
abbrev modelVersion : Nat := 5
abbrev doc : Nat := 6
abbrev graph : Nat := 7
abbrev opsetImport : Nat := 8
abbrev metadata : Nat := 14
abbrev trainingInfo : Nat := 20
abbrev functions : Nat := 25
end ModelField

namespace OpsetField
abbrev domain : Nat := 1
abbrev version : Nat := 2
end OpsetField

namespace EntryField
abbrev key : Nat := 1
abbrev value : Nat := 2
end EntryField

namespace GraphField
abbrev node : Nat := 1
abbrev name : Nat := 2
abbrev initializer : Nat := 5
abbrev doc : Nat := 10
abbrev input : Nat := 11
abbrev output : Nat := 12
abbrev valueInfo : Nat := 13
abbrev quantization : Nat := 14
abbrev sparseInitializer : Nat := 15
end GraphField

namespace SparseField
abbrev values : Nat := 1
abbrev indices : Nat := 2
abbrev dims : Nat := 3
end SparseField

namespace NodeField
abbrev input : Nat := 1
abbrev output : Nat := 2
abbrev name : Nat := 3
abbrev opType : Nat := 4
abbrev attr : Nat := 5
abbrev doc : Nat := 6
abbrev domain : Nat := 7
end NodeField

namespace AttributeField
abbrev name : Nat := 1
abbrev float : Nat := 2
abbrev int : Nat := 3
abbrev string : Nat := 4
abbrev tensor : Nat := 5
abbrev graph : Nat := 6
abbrev floats : Nat := 7
abbrev ints : Nat := 8
abbrev strings : Nat := 9
abbrev tensors : Nat := 10
abbrev graphs : Nat := 11
abbrev doc : Nat := 13
abbrev type : Nat := 20
abbrev reference : Nat := 21
end AttributeField

namespace TensorField
abbrev dims : Nat := 1
abbrev elemType : Nat := 2
abbrev floatData : Nat := 4
abbrev int32Data : Nat := 5
abbrev stringData : Nat := 6
abbrev int64Data : Nat := 7
abbrev name : Nat := 8
abbrev rawData : Nat := 9
abbrev doubleData : Nat := 10
abbrev uint64Data : Nat := 11
abbrev doc : Nat := 12
abbrev externalData : Nat := 13
abbrev location : Nat := 14
end TensorField

namespace ValueField
abbrev name : Nat := 1
abbrev type : Nat := 2
abbrev doc : Nat := 3
end ValueField

namespace TypeField
abbrev tensor : Nat := 1
abbrev sequence : Nat := 4
abbrev map : Nat := 5
abbrev denotation : Nat := 6
abbrev sparseTensor : Nat := 8
abbrev optional : Nat := 9
end TypeField

namespace TensorTypeField
abbrev elemType : Nat := 1
abbrev shape : Nat := 2
end TensorTypeField

namespace ShapeField
abbrev dim : Nat := 1
end ShapeField

namespace DimField
abbrev value : Nat := 1
abbrev param : Nat := 2
abbrev denotation : Nat := 3
end DimField

/-! ## Field tables -/

namespace Field

def one (number : Nat) (type : Scalar) : Field := ⟨number, .scalar type, .single⟩

def many (number : Nat) (type : Scalar) : Field := ⟨number, .scalar type, .repeated⟩

def array (number : Nat) (type : Scalar) : Field := ⟨number, .scalar type, .packed⟩

def alternative (number : Nat) (type : Scalar) : Field := ⟨number, .scalar type, .choice⟩

def inner (number : Nat) (kind : Kind) : Field := ⟨number, .message kind, .single⟩

def inners (number : Nat) (kind : Kind) : Field := ⟨number, .message kind, .repeated⟩

end Field

open TensorGraph.Wire.Field in
/-- The fields of a kind of message, by ascending number. -/
def Kind.fields : Kind → List Field
  | .model =>
    [one ModelField.irVersion .int64, one ModelField.producerName .text,
     one ModelField.producerVersion .text, one ModelField.domain .text,
     one ModelField.modelVersion .int64, one ModelField.doc .text, inner ModelField.graph .graph,
     inners ModelField.opsetImport .opsetImport, inners ModelField.metadata .entry,
     inners ModelField.trainingInfo .trainingInfo, inners ModelField.functions .function]
  | .trainingInfo => [inner 1 .graph, inner 2 .graph, inners 3 .entry, inners 4 .entry]
  | .function =>
    [one 1 .text, many 4 .text, many 5 .text, many 6 .text, inners 7 .node, one 8 .text,
     inners 9 .opsetImport, one 10 .text, inners 11 .attr, inners 12 .valueInfo,
     one 13 .text, inners 14 .entry]
  | .opsetImport => [one OpsetField.domain .text, one OpsetField.version .int64]
  | .entry => [one EntryField.key .text, one EntryField.value .text]
  | .graph =>
    [inners GraphField.node .node, one GraphField.name .text,
     inners GraphField.initializer .tensor, one GraphField.doc .text,
     inners GraphField.input .valueInfo, inners GraphField.output .valueInfo,
     inners GraphField.valueInfo .valueInfo, inners GraphField.quantization .quantization,
     inners GraphField.sparseInitializer .sparseTensor]
  | .quantization => [one 1 .text, inners 2 .entry]
  | .sparseTensor =>
    [inner SparseField.values .tensor, inner SparseField.indices .tensor,
     many SparseField.dims .int64]
  | .node =>
    [many NodeField.input .text, many NodeField.output .text, one NodeField.name .text,
     one NodeField.opType .text, inners NodeField.attr .attr, one NodeField.doc .text,
     one NodeField.domain .text]
  | .attr =>
    [one AttributeField.name .text, one AttributeField.float .float,
     one AttributeField.int .int64, one AttributeField.string .bytes,
     inner AttributeField.tensor .tensor, inner AttributeField.graph .graph,
     many AttributeField.floats .float, many AttributeField.ints .int64,
     many AttributeField.strings .bytes, inners AttributeField.tensors .tensor,
     inners AttributeField.graphs .graph, one AttributeField.doc .text,
     one AttributeField.type .int32, one AttributeField.reference .text]
  | .tensor =>
    [many TensorField.dims .int64, one TensorField.elemType .int32,
     array TensorField.floatData .float, array TensorField.int32Data .int32,
     many TensorField.stringData .bytes, array TensorField.int64Data .int64,
     one TensorField.name .text, one TensorField.rawData .bytes,
     array TensorField.doubleData .double, array TensorField.uint64Data .uint64,
     one TensorField.doc .text, inners TensorField.externalData .entry,
     one TensorField.location .int32]
  | .valueInfo =>
    [one ValueField.name .text, inner ValueField.type .type, one ValueField.doc .text]
  | .type =>
    [inner TypeField.tensor .tensorType, inner TypeField.sequence .sequenceType,
     inner TypeField.map .mapType, one TypeField.denotation .text,
     inner TypeField.sparseTensor .tensorType, inner TypeField.optional .optionalType]
  | .sequenceType => [inner 1 .type]
  | .mapType => [one 1 .int32, inner 2 .type]
  | .optionalType => [inner 1 .type]
  | .tensorType => [one TensorTypeField.elemType .int32, inner TensorTypeField.shape .shape]
  | .shape => [inners ShapeField.dim .dimension]
  | .dimension =>
    [alternative DimField.value .int64, alternative DimField.param .text,
     one DimField.denotation .text]

def Kind.field? (kind : Kind) (number : Nat) : Option Field :=
  kind.fields.find? fun f => f.number == number

end TensorGraph.Wire
