import TensorGraph.Manifest
import TensorGraph.Repair
import TensorGraph.SortedEntries
import TensorGraph.Text.Columns

/-!
# Inspection of a model

What the program shows about one model: its versions, inputs and outputs, the size of its constants,
how often each operator stands, its first input, and what a propagation would find.
-/

namespace TensorGraph.Inspection

def banner : List String := [
  "╔══════════════════════════════════════════════════════╗",
  "║             graph-mend · Model Inspector             ║",
  "╚══════════════════════════════════════════════════════╝",
  ""]

/-- Declared values, with a mark for each that names a constant. -/
def valueLines (title : String) (isConstant : ValueInfo → Bool) (values : List ValueInfo) :
    List String :=
  s!"  {title}: {values.length}" ::
    values.map fun v => s!"   {v.text}" ++ if isConstant v then "  (initializer)" else ""

def hundredthsText (n : Nat) : String :=
  s!"{n / 100}." ++ (if n % 100 < 10 then "0" else "") ++ toString (n % 100)

/-- The nearest whole number to a quotient, the even one of two. -/
def nearest (n d : Nat) : Nat :=
  let q := n / d
  let twice := 2 * (n % d)
  if twice < d then q else if d < twice then q + 1 else if q % 2 = 0 then q else q + 1

/-- A number of bytes in units of 2 ^ 20 with two places. -/
def megabytesText (bytes : Nat) : String := hundredthsText (nearest (100 * bytes) 0x100000)

def constantBytes (g : Graph) : Nat :=
  (g.initializers.filterMap Tensor.payloadBytes?).foldl (· + ·) 0

def operatorName (n : Node) : String := if n.isDefaultDomain then n.op else s!"{n.domain}::{n.op}"

/-- How often each operator stands in a graph, sorted by name. -/
def operatorCounts (g : Graph) : List (String × Nat) :=
  (g.nodes.map operatorName).foldl
    (fun counts name => insertSorted name ((counts.lookup name).getD 0 + 1) counts) []

def operatorLines (g : Graph) : List String :=
  let line (name count : String) := s!"  {Text.left 32 name} {Text.right 6 count}"
  [line "Operator" "Count", "  " ++ Text.dashes 39] ++
    (operatorCounts g).map (fun (name, count) => line name (toString count)) ++ [""]

def orMark {α : Type} (show' : α → String) (a? : Option α) : String := a?.elim "?" show'

def inputLines (e : ManifestEntry) : List String := [
  s!"  Primary input: '{e.input}'",
  s!"   Layout: {e.layout.text}   H: {orMark toString e.height?}   " ++
    s!"W: {orMark toString e.width?}   dtype: {orMark ElemType.name e.elem?}",
  ""]

/-- What is known without a propagation. -/
def descriptionLines (m : Model) : List String :=
  let g := m.graph
  [s!"  {m.summary}", s!"  {g.summary}",
    "  Opsets: " ++ ", ".intercalate (m.opsets.map OpsetImport.text)] ++
  (if m.producerName.isEmpty then []
    else [s!"  Producer: {m.producerName} {m.producerVersion}"]) ++
  [""] ++
  valueLines "Inputs" (fun v => g.isInitializer v.name) g.inputs ++
  valueLines "Outputs" (fun _ => false) g.outputs ++
  [s!"  Initializers: {g.initializers.length} ({megabytesText (constantBytes g)} MB)", ""] ++
  operatorLines g ++ inputLines m.manifest

def removalLines (g : Graph) : List String :=
  let removed := g.countConstantInputs
  if removed = 0 then []
  else [s!"  {removed} initializer(s) listed as inputs (repair would remove them)"]

def propagationLines (r : PropagationReport) : List String :=
  [s!"  Shape inference: {r.summary}"] ++ r.skipped.map (fun s => s!"   skipped {s.text}") ++ [""]

end TensorGraph.Inspection
