import TensorGraph.Command.Options
import TensorGraph.Settings
import TensorGraph.Text.Columns

/-!
# Commands

The commands of the program and how they are asked for: repairing models, listing what they expect
as their input, and looking at one of them.
-/

namespace TensorGraph.Command

/-- The settings that are given with a command. -/
structure Overrides where
  inPlace : Bool := false
  suffix? : Option String := none
  leastVersion? : Option Int64 := none
  noInference : Bool := false
  workers? : Option Nat := none
deriving DecidableEq, Repr, Inhabited

inductive Format where
  | json
  | table
deriving DecidableEq, Repr

/-- What a command does. -/
inductive Action where
  | repair (selectors : List String) (overrides : Overrides)
  | manifest (selectors : List String) (root? : Option String) (format : Format)
      (output? : Option String)
  | inspect (model : String)
deriving DecidableEq, Repr

/-- A command, and the file of settings that it goes by. -/
structure Invocation where
  settings? : Option String
  action : Action
deriving DecidableEq, Repr

/-- A number with a sign of 64 bits. -/
def int64? (s : String) : Option Int64 :=
  match Text.integer? s with
  | some n =>
    if -0x8000000000000000 ≤ n ∧ n < 0x8000000000000000 then some (Int64.ofInt n) else none
  | none => none

/-- A number without a sign of 64 bits; a plus may stand before it. -/
def count? (s : String) : Option Nat :=
  (match s.toList with
    | '+' :: cs => Text.digits? cs
    | cs => Text.digits? cs).filter fun n => n < 0x10000000000000000

def format? : String → Option Format
  | "json" => some .json
  | "text" => some .table
  | _ => none

def isPath (s : String) : Bool := !s.isEmpty

def commonFlags : List Flag := [
  { long := "config", short? := some 'c', accepts? := some isPath },
  { long := "verbose", short? := some 'v', repeatable := true }]

def outerGrammar : Grammar := { flags := commonFlags, words := false, version := true }

def repairGrammar : Grammar where
  flags := [
    { long := "in-place" },
    { long := "suffix", accepts? := some fun _ => true },
    { long := "min-ir-version", accepts? := some fun s => (int64? s).isSome },
    { long := "no-infer" },
    { long := "workers", short? := some 'w', accepts? := some fun s => (count? s).isSome }] ++
    commonFlags
  words := true

def manifestGrammar : Grammar where
  flags := [
    { long := "root", accepts? := some isPath },
    { long := "format", short? := some 'f', accepts? := some fun s => (format? s).isSome },
    { long := "output", short? := some 'o', accepts? := some isPath }] ++ commonFlags
  words := true

def inspectGrammar : Grammar where
  flags := { long := "model", short? := some 'm', accepts? := some isPath } :: commonFlags
  words := false

/-- The words given, of which there must be one. -/
def Given.someWords (g : Given) : Except Stop (List String) :=
  if g.words.isEmpty then .error .misuse else .ok g.words

def readAction (name : String) (args : List String) : Except Stop (Given × Action) := do
  match name with
  | "repair" =>
    let (g, _) ← repairGrammar.read args
    let overrides : Overrides := {
      inPlace := g.has "in-place"
      suffix? := g.value? "suffix"
      leastVersion? := (g.value? "min-ir-version").bind int64?
      noInference := g.has "no-infer"
      workers? := (g.value? "workers").bind count? }
    return (g, .repair (← g.someWords) overrides)
  | "manifest" =>
    let (g, _) ← manifestGrammar.read args
    let format := ((g.value? "format").bind format?).getD .json
    return (g, .manifest (← g.someWords) (g.value? "root") format (g.value? "output"))
  | "inspect" =>
    match ← inspectGrammar.read args with
    | (g, []) =>
      match g.value? "model" with
      | some model => return (g, .inspect model)
      | none => .error .misuse
    | _ => .error .misuse
  | "help" => .error .help
  | _ => .error .misuse

/-- Reads a command line. A file with settings that is named behind the command counts. -/
def Invocation.ofArgs (args : List String) : Except Stop Invocation := do
  match ← outerGrammar.read args with
  | (_, []) => .error .misuse
  | (outer, name :: rest) =>
    let (inner, action) ← readAction name rest
    return { settings? := (inner.value? "config").or (outer.value? "config"), action }

def Overrides.apply (o : Overrides) (s : Settings) : Settings where
  leastVersion := o.leastVersion?.getD s.leastVersion
  greatestVersion := s.greatestVersion
  inferShapes := s.inferShapes && !o.noInference
  inPlace := s.inPlace || o.inPlace
  suffix := o.suffix?.getD s.suffix
  workers? := o.workers?.or s.workers?

end TensorGraph.Command
