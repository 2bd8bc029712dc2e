import TensorGraph.Manifest
import TensorGraph.SortedEntries
import TensorGraph.Text.Columns
import TensorGraph.Text.Json

/-!
# Manifest reports

The manifest entries of several models, one for each key, sorted by key; as JSON and as a table.
-/

namespace TensorGraph

namespace ManifestEntry

def jsonOfOption (n? : Option Int) : Json := n?.elim .null .int

def elemCodeText (e : ManifestEntry) : String := toString (e.elem?.elim 0 ElemType.code)

def toJson (e : ManifestEntry) : Json :=
  .object [
    ("input", .string e.input),
    ("layout", .string e.layout.text),
    ("H", jsonOfOption (e.height?.map Int.ofNat)),
    ("W", jsonOfOption (e.width?.map Int.ofNat)),
    ("dtype", .string e.elemCodeText),
    ("ir_version", .int e.irVersion.toInt),
    ("opset", jsonOfOption (e.opset?.map Int64.toInt))]

def int64OfJson? (v : Json) : Option Int64 :=
  (v.intIn? (-0x8000000000000000) 0x8000000000000000).map Int64.ofInt

def extentOfJson? (v : Json) : Option Nat := (v.intIn? 0 0x10000000000000000).map Int.toNat

/-- The element type for a code that is written as a string; none for a code that no type has. -/
def elemOfJson? (v : Json) : Option (Option ElemType) := do
  let code ← Text.integer? (← v.string?)
  if -0x80000000 ≤ code ∧ code < 0x80000000 then some (ElemType.ofCode? code) else none

/-- Reads an entry. Height, width and opset may be missing, all else must be there; further fields
are passed over. -/
def ofJson? (v : Json) : Option ManifestEntry :=
  match v with
  | .object _ => do
    let input ← (← v.field? "input").string?
    let layout ← Layout.ofText? (← (← v.field? "layout").word?)
    let height? ← Json.optional? extentOfJson? (v.field? "H")
    let width? ← Json.optional? extentOfJson? (v.field? "W")
    let elem? ← elemOfJson? (← v.field? "dtype")
    let irVersion ← int64OfJson? (← v.field? "ir_version")
    let opset? ← Json.optional? int64OfJson? (v.field? "opset")
    return { input, layout, height?, width?, elem?, irVersion, opset? }
  | .array [input, layout, height, width, elem, irVersion, opset] => do
    let input ← input.string?
    let layout ← Layout.ofText? (← layout.word?)
    let height? ← Json.optional? extentOfJson? (some height)
    let width? ← Json.optional? extentOfJson? (some width)
    let elem? ← elemOfJson? elem
    let irVersion ← int64OfJson? irVersion
    let opset? ← Json.optional? int64OfJson? (some opset)
    return { input, layout, height?, width?, elem?, irVersion, opset? }
  | _ => none

end ManifestEntry

/-- Manifest entries by key, each key once and in order. -/
structure ManifestReport where
  entries : List (String × ManifestEntry) := []
deriving DecidableEq, Repr, Inhabited

namespace ManifestReport

def insert (r : ManifestReport) (key : String) (e : ManifestEntry) : ManifestReport :=
  ⟨insertSorted key e r.entries⟩

/-- Collects entries; of several under one key the last counts. -/
def ofList (entries : List (String × ManifestEntry)) : ManifestReport :=
  entries.foldl (fun r (key, e) => r.insert key e) {}

def get? (r : ManifestReport) (key : String) : Option ManifestEntry := r.entries.lookup key

def size (r : ManifestReport) : Nat := r.entries.length

def keys (r : ManifestReport) : List String := r.entries.map Prod.fst

def toJson (r : ManifestReport) : Json := .object (r.entries.map fun (key, e) => (key, e.toJson))

/-- The width of the column of keys: that of the longest key in bytes, at least five. -/
def keyWidth (r : ManifestReport) : Nat := (r.keys.map String.utf8ByteSize).foldl max 5

def row (width : Nat) (key input layout height width' elem irVersion opset : String) : String :=
  Text.left width key ++ "  " ++ Text.left 16 input ++ " " ++ Text.left 8 layout ++ " " ++
    Text.right 6 height ++ " " ++ Text.right 6 width' ++ " " ++ Text.right 6 elem ++ " " ++
    Text.right 4 irVersion ++ " " ++ Text.right 6 opset ++ "\n"

def numberText {α : Type} [ToString α] (n? : Option α) : String := n?.elim "-" toString

/-- The table: a heading, a line of dashes and one line for each entry. -/
def table (r : ManifestReport) : String :=
  let width := r.keyWidth
  row width "Model" "Input" "Layout" "H" "W" "dtype" "IR" "opset" ++
    Text.dashes (width + 60) ++ "\n" ++
    String.join (r.entries.map fun (key, e) =>
      row width key e.input e.layout.text (numberText e.height?) (numberText e.width?)
        e.elemCodeText (toString e.irVersion) (numberText e.opset?))

end ManifestReport

end TensorGraph
