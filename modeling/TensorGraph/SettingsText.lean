import TensorGraph.Settings
import TensorGraph.Text.Json
import TensorGraph.Toml.Document

/-!
# Settings as text

Settings are written as a TOML document with one line for each. When they are read, a missing line
leaves the usual setting, and lines with other keys are passed over.
-/

namespace TensorGraph

namespace Toml

def Value.description : Value → String
  | text s => "string " ++ Json.quoted s
  | integer n => s!"integer `{n}`"
  | float written => s!"floating point `{written}`"
  | boolean b => s!"boolean `{b}`"
  | moment => "map"
  | array _ => "sequence"
  | table .. => "map"
  | tables _ => "sequence"

def Located.fault {α β : Type} (v : Located α) (reason : Reason) : Except Fault β :=
  .error { reason, left := v.left, size := v.size }

def Located.integer (v : Located Value) (expected : String) : Except Fault Int :=
  match v.value with
  | .integer n => .ok n
  | other => v.fault (.wrongType other.description expected)

def Located.boolean (v : Located Value) : Except Fault Bool :=
  match v.value with
  | .boolean b => .ok b
  | other => v.fault (.wrongType other.description "a boolean")

def Located.text (v : Located Value) : Except Fault String :=
  match v.value with
  | .text s => .ok s
  | other => v.fault (.wrongType other.description "a string")

def Located.natural (v : Located Value) (expected : String) : Except Fault Nat := do
  let n ← v.integer expected
  if n < 0 then v.fault (.wrongValue v.value.description expected) else .ok n.toNat

end Toml

namespace Settings

open Toml

def withEntry (s : Settings) (key : String) (v : Located Value) : Except Fault Settings :=
  match key with
  | "min_ir_version" =>
    (v.integer "i64").map fun n => { s with leastVersion := Int64.ofInt n }
  | "max_ir_version" =>
    (v.integer "i64").map fun n => { s with greatestVersion := Int64.ofInt n }
  | "infer_shapes" => v.boolean.map fun inferShapes => { s with inferShapes }
  | "in_place" => v.boolean.map fun inPlace => { s with inPlace }
  | "output_suffix" => v.text.map fun suffix => { s with suffix }
  | "workers" => (v.natural "usize").map fun n => { s with workers? := some n }
  | _ => .ok s

def ofEntries (entries : Entries) : Except Fault Settings :=
  entries.foldlM (fun s (key, v) => s.withEntry key v) {}

def ofToml (text : String) : Except SettingsFault Settings := do
  let s ← ((Toml.read text).bind ofEntries).mapError fun f => .malformed (f.message text)
  s.check
  return s

def flagText (b : Bool) : String := if b then "true" else "false"

/-- The line for the number of workers, if it is set. A document holds no number of `2 ^ 63` or
above. -/
def workersLine (s : Settings) : Except SettingsFault String :=
  match s.workers? with
  | none => .ok ""
  | some n => if n < 0x8000000000000000 then .ok s!"workers = {n}\n" else .error .unwritableWorkers

def toToml (s : Settings) : Except SettingsFault String :=
  s.workersLine.map fun workers =>
    s!"min_ir_version = {s.leastVersion}\n" ++
    s!"max_ir_version = {s.greatestVersion}\n" ++
    s!"infer_shapes = {flagText s.inferShapes}\n" ++
    s!"in_place = {flagText s.inPlace}\n" ++
    s!"output_suffix = {Toml.quoted s.suffix}\n" ++ workers

end Settings

end TensorGraph
