import TensorGraph.Files.Output
import TensorGraph.Files.Tree
import TensorGraph.Manifest
import TensorGraph.Model.Decode
import TensorGraph.Repair
import TensorGraph.SettingsText

/-!
# Model files

Loading a model, reading settings and repairing a model from a file. A repair writes as its very
last step, so that whatever goes wrong leaves all files as they were.
-/

namespace TensorGraph

/-- What the repair of a file is about to write, and where. -/
structure RepairPlan where
  report : RepairReport
  /-- Nothing if the source is to be replaced but needs no change. -/
  write? : Option (Path × Bytes)
deriving DecidableEq, Repr

/-- What the repair of a file has done; nothing was written if the model was as it should be. -/
structure FileRepair where
  source : Path
  written? : Option Path
  report : RepairReport
deriving DecidableEq, Repr

namespace FileTree

/-- The model in a file. -/
def loadModel (t : FileTree) (p : Path) : Except ModelError Model :=
  match t.contents? p with
  | .error f => .error (.io p.text f.message)
  | .ok none => .error (.io p.text FileFault.unmappable.message)
  | .ok (some contents) =>
    if contents.isEmpty then .error (.malformed (.emptyFile p.text)) else Model.decode contents

def manifest (t : FileTree) (p : Path) : Except RepairError ManifestEntry :=
  ((t.loadModel p).map Model.manifest).mapError .model

/-- The settings in a file. -/
def readSettings (t : FileTree) (p : Path) : Except SettingsFault Settings :=
  match t.contents? p with
  | .error f => .error (.unreadable p.text f.message)
  | .ok none => .error (.unreadable p.text FileFault.folder.message)
  | .ok (some contents) =>
    match String.fromUTF8? contents.toByteArray with
    | none => .error (.unreadable p.text "stream did not contain valid UTF-8")
    | some text => Settings.ofToml text

/-- Repairs the model in a file, without writing it. -/
def planRepair (t : FileTree) (s : Settings) (p : Path) : Except RepairError RepairPlan := do
  let m ← (t.loadModel p).mapError .model
  let (repaired, report) ← m.repair s
  return {
    report
    write? :=
      if s.inPlace && !report.changed then none else some (s.outputPath p, repaired.encode) }

/-- What is said if a file cannot be saved. Where there is no folder for the temporary file, its
path is told. -/
def saveFault (t : FileTree) (dest : Path) (f : FileFault) : String :=
  match t.folderAt dest.folder with
  | .ok _ => f.message
  | .error f => f.message ++ (t.temporaryPath dest.folder (t.tags.headD "")).whereabouts

/-- Writes a file that others see only when it is complete. -/
def save (t : FileTree) (dest : Path) (contents : Bytes) : Except String FileTree :=
  (t.write dest contents).mapError (t.saveFault dest)

/-- Writes what a plan is about to write. -/
def carryOut (t : FileTree) (plan : RepairPlan) : Except RepairError FileTree :=
  match plan.write? with
  | none => .ok t
  | some (p, contents) => (t.save p contents).mapError fun reason => .model (.io p.text reason)

/-- Repairs the model in a file. -/
def repairFile (t : FileTree) (s : Settings) (p : Path) :
    Except RepairError (FileRepair × FileTree) := do
  let plan ← t.planRepair s p
  let repaired ← t.carryOut plan
  return ({ source := p, written? := plan.write?.map Prod.fst, report := plan.report }, repaired)

end FileTree

end TensorGraph
