import TensorGraph.Validity

/-!
# Settings of a repair

What a repair does to a model, which versions of the model format it accepts and where the repaired
model goes.
-/

namespace TensorGraph

/-- The configuration of a repair. -/
structure Settings where
  /-- Models of a lower version are raised to this one. -/
  leastVersion : Int64 := undeclaredConstantsVersion
  greatestVersion : Int64 := 11
  inferShapes : Bool := true
  inPlace : Bool := false
  /-- What is added to the name of a repaired copy. -/
  suffix : String := ".fixed"
  workers? : Option Nat := none
deriving DecidableEq, Repr, Inhabited

/-- Why settings cannot be read, used or written. -/
inductive SettingsFault where
  | unreadable (path reason : String)
  /-- The text is malformed or has a value of a wrong type, as described. -/
  | malformed (description : String)
  | versionBounds (least greatest : Int64)
  | emptySuffix
  | noWorkers
  /-- The number of workers is none that a document can hold. -/
  | unwritableWorkers
deriving DecidableEq, Repr

def SettingsFault.message : SettingsFault → String
  | unreadable path reason => s!"cannot read config '{path}': {reason}"
  | malformed description => s!"TOML parse error: {description}"
  | versionBounds least greatest => s!"min_ir_version {least} outside 1..={greatest}"
  | emptySuffix => "output_suffix must be non-empty unless in_place is set"
  | noWorkers => "workers must be at least 1"
  | unwritableWorkers => "TOML serialise error: out-of-range value for u64 type"

namespace Settings

/-- Accepts settings that a repair can honour: a range of versions that is not empty, a copy that
has a name of its own, and at least one worker. -/
def check (s : Settings) : Except SettingsFault Unit :=
  if s.leastVersion < 1 || s.greatestVersion < s.leastVersion then
    .error (.versionBounds s.leastVersion s.greatestVersion)
  else if !s.inPlace && s.suffix.isEmpty then .error .emptySuffix
  else if s.workers? = some 0 then .error .noWorkers
  else .ok ()

/-- The versions that a repaired model may have. -/
def versions (s : Settings) : VersionRange := { greatest := s.greatestVersion }

end Settings

end TensorGraph
