import TensorGraph.SortedEntries
import TensorGraph.Tensor
import TensorGraph.Wire.Message

/-!
# Attributes

The named settings of an operator. Inner graphs are kept as messages: no operation here looks
inside of them.
-/

namespace TensorGraph

/-- The value of a setting. Inner graphs are as they were stored. -/
inductive Attribute where
  | int (value : Int64)
  | float (word : UInt32)
  | ints (values : List Int64)
  | floats (words : List UInt32)
  | string (value : String)
  | strings (values : List String)
  | tensor (value : Tensor)
  | tensors (values : List Tensor)
  | graph (value : Wire.Message)
  | graphs (values : List Wire.Message)
deriving DecidableEq, Repr, Inhabited

namespace Attribute

def kind : Attribute → String
  | int _ => "int"
  | float _ => "float"
  | ints _ => "ints"
  | floats _ => "floats"
  | string _ => "string"
  | strings _ => "strings"
  | tensor _ => "tensor"
  | tensors _ => "tensors"
  | graph _ => "graph"
  | graphs _ => "graphs"

def int? : Attribute → Option Int
  | int v => some v.toInt
  | _ => none

def float? : Attribute → Option UInt32
  | float w => some w
  | _ => none

def ints? : Attribute → Option (List Int)
  | ints vs => some (vs.map Int64.toInt)
  | _ => none

def floats? : Attribute → Option (List UInt32)
  | floats ws => some ws
  | _ => none

def string? : Attribute → Option String
  | string s => some s
  | _ => none

def tensor? : Attribute → Option Tensor
  | tensor t => some t
  | _ => none

/-- Whether two settings are equal, where floating-point words compare as numbers. -/
def agrees : Attribute → Attribute → Bool
  | float v, float w => Binary.agree32 v w
  | floats v, floats w => listsAgree Binary.agree32 v w
  | tensor t, tensor u => t.agrees u
  | tensors t, tensors u => listsAgree Tensor.agrees t u
  | graph g, graph h => g.agrees .graph h
  | graphs g, graphs h => listsAgree (Wire.Message.agrees .graph) g h
  | a, b => a == b

end Attribute

/-- Settings by name, each name once and in order. -/
structure Attributes where
  entries : List (String × Attribute)
  sorted : entries.Pairwise (fun x y => x.1 < y.1) := by decide
deriving DecidableEq, Repr

namespace Attributes

def empty : Attributes := ⟨[], .nil⟩

instance : Inhabited Attributes := ⟨empty⟩

def insert (as : Attributes) (name : String) (a : Attribute) : Attributes :=
  ⟨insertSorted name a as.entries, sorted_insertSorted as.sorted⟩

def get? (as : Attributes) (name : String) : Option Attribute := as.entries.lookup name

/-- Collects settings; of several under one name the last counts. -/
def ofList (entries : List (String × Attribute)) : Attributes :=
  entries.foldl (fun as (name, a) => as.insert name a) empty

/-- Whether two collections are equal, where floating-point words compare as numbers. -/
def agrees (as bs : Attributes) : Bool :=
  listsAgree (fun (m, a) (n, b) => m == n && a.agrees b) as.entries bs.entries

end Attributes

end TensorGraph
