import TensorGraph.Propagation
import TensorGraph.Settings

/-!
# Repair

A repair drops constants from the inputs of a model, raises its version to the least one allowed,
propagates types and checks that the result is valid.
-/

namespace TensorGraph

namespace Graph

/-- Whether an input is to be given from outside, rather than by a constant of the same name. -/
def isProperInput (g : Graph) (v : ValueInfo) : Bool :=
  !(g.initializers.any fun t => t.name == v.name)

/-- Drops the inputs that constants stand for. -/
def normalizeInputs (g : Graph) : Graph := g.retainInputs g.isProperInput

/-- How many inputs the normalization drops. -/
def countConstantInputs (g : Graph) : Nat := g.countDropped g.isProperInput

end Graph

/-- The version of a model before and after its repair. -/
structure VersionChange where
  before : Int64
  after : Int64
deriving DecidableEq, Repr, Inhabited

def VersionChange.changed (c : VersionChange) : Bool := c.before != c.after

/-- What a repair has done. -/
structure RepairReport where
  inputsRemoved : Nat
  version : VersionChange
  propagation? : Option PropagationReport
deriving DecidableEq, Repr, Inhabited

namespace RepairReport

/-- Whether inputs or the version changed; recorded types do not count. -/
def changed (r : RepairReport) : Bool := 0 < r.inputsRemoved || r.version.changed

def summary (r : RepairReport) : String :=
  s!"{r.inputsRemoved} input(s) removed, ir_version {r.version.before} -> " ++
    s!"{r.version.after}, " ++
    r.propagation?.elim "inference disabled" PropagationReport.summary

end RepairReport

/-- Why there is no repaired model, or why a repaired model was not saved. -/
inductive RepairError where
  | model (error : ModelError)
  | invalid (violation : Violation)
  | selection (path reason : String)
  | settings (fault : SettingsFault)
  | aborted (abort : Abort)
deriving DecidableEq, Repr

def RepairError.message : RepairError → String
  | model error => s!"model error: {error.message}"
  | invalid violation => s!"validation failed: {violation.message}"
  | selection path reason => s!"cannot select '{path}': {reason}"
  | settings fault => s!"configuration error: {fault.message}"
  | aborted abort => s!"worker task failed: {abort.message}"

namespace Model

/-- Raises the version of a model to a least one. -/
def raiseVersion (m : Model) (least : Int64) : Model :=
  if m.irVersion < least then { m with irVersion := least } else m

/-- The version of the default collection of operators that propagation goes by. -/
def propagationOpset (m : Model) : Int := (m.defaultOpset?.getD 1).toInt

/-- Propagates types through the graph of a model, and leaves all else as it is. -/
def propagate (m : Model) (rules : Registry) (opset : Int) :
    Except Abort (Model × PropagationReport) :=
  (m.graph.propagate rules opset).map fun (graph, report) => ({ m with graph }, report)

/-- Propagates types if the settings ask for it, by the built-in rules. -/
def propagateIf (m : Model) (s : Settings) : Except Abort (Model × Option PropagationReport) :=
  if s.inferShapes then
    (m.propagate .builtin m.propagationOpset).map fun (m, report) => (m, some report)
  else .ok (m, none)

/-- Repairs a model: normalizes its inputs, raises its version, propagates types and validates the
result, which is returned only if it is valid. -/
def repair (m : Model) (s : Settings) : Except RepairError (Model × RepairReport) := do
  let normalized := { m with graph := m.graph.normalizeInputs }
  let raised := normalized.raiseVersion s.leastVersion
  let (repaired, propagation?) ← (raised.propagateIf s).mapError .aborted
  (repaired.validate s.versions).mapError .invalid
  return (repaired, {
    inputsRemoved := m.graph.countConstantInputs
    version := ⟨m.irVersion, raised.irVersion⟩
    propagation? })

end Model

end TensorGraph
