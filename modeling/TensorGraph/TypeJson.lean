import TensorGraph.TensorType
import TensorGraph.Text.Json

/-!
# Types as JSON

Element types, dimensions and shapes as JSON values. Reading gives back what was written.
-/

namespace TensorGraph

def ElemType.ofJson? (v : Json) : Option ElemType := v.word?.bind ElemType.ofKeyword?

def Dim.toJson : Dim → Json
  | known n => .object [("known", .int n)]
  | param p => .object [("param", .string p)]
  | unknown => .string "unknown"

def Dim.ofJson? : Json → Option Dim
  | .object [("known", v)] => (v.intIn? 0 0x10000000000000000).map fun n => known n.toNat
  | .object [("param", .string p)] => some (param p)
  | .object [("unknown", .null)] => some unknown
  | .string "unknown" => some unknown
  | _ => none

def Shape.toJson (s : Shape) : Json := .object [("dims", .array (s.dims.map Dim.toJson))]

def Shape.ofJson? (v : Json) : Option Shape :=
  match v.field? "dims" with
  | some (.array dims) => (dims.mapM Dim.ofJson?).map Shape.mk
  | _ => none

end TensorGraph
