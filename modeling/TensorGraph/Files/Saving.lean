import TensorGraph.Files.ModelFile

/-!
# Saving models

A model is saved under a temporary name in the folder of its destination, and then moved to the
destination in one step. The disk can refuse every single step. Whichever it refuses, the temporary
file is removed again.
-/

namespace TensorGraph

/-- What a disk refuses to do, each with the reason that it gives. -/
structure Disk where
  /-- To open the source, or to map it into memory. -/
  reading? : Option String := none
  creating? : Option String := none
  /-- To write more than some number of bytes. -/
  filling? : Option (Nat × String) := none
  flushing? : Option String := none
  moving? : Option String := none
deriving DecidableEq, Repr

/-- What is done with the files of a tree, as far as it succeeds. -/
abbrev DiskM (ε : Type) := ExceptT ε (StateM FileTree)

/-- The result, and the tree that is left, whether the result is an error or not. -/
def DiskM.runOn {ε α : Type} (x : DiskM ε α) (t : FileTree) : Except ε α × FileTree :=
  (x.run.run t).run

/-- A temporary file, and the path under which it was made. -/
structure TemporaryFile where
  place : Location
  path : Path
deriving DecidableEq, Repr

namespace FileTree

/-- Removes the file at a location. -/
def erase (t : FileTree) (l : Location) : FileTree :=
  { t with files := t.files.filter fun file => file.1 ≠ l }

/-- Moves a file to a location, in place of the file there. -/
def move (t : FileTree) (source dest : Location) : FileTree :=
  if source = dest then t
  else
    match t.fileAt? source with
    | some contents => (t.erase source).put dest contents
    | none => t

/-- A temporary file to be made in a folder, under the first name that is not in use. -/
def temporaryIn (t : FileTree) (folder : Path) : Except String TemporaryFile :=
  match t.folderAt folder with
  | .error f => .error (f.message ++ (t.temporaryPath folder (t.tags.headD "")).whereabouts)
  | .ok l =>
    match t.tags.find? fun tag => !t.existsAt (l ++ [".tmp" ++ tag]) with
    | some tag => .ok ⟨l ++ [".tmp" ++ tag], t.temporaryPath folder tag⟩
    | none => .error ("too many temporary files exist" ++ (t.basePath.join folder).whereabouts)

end FileTree

namespace Disk

/-- Fails if there is a reason to refuse. -/
def refuse (reason? : Option String) : DiskM String Unit :=
  match reason? with
  | some reason => throw reason
  | none => return

/-- Makes an empty temporary file in a folder. -/
def createIn (d : Disk) (folder : Path) : DiskM String TemporaryFile := do
  let t ← get
  let first := t.temporaryPath folder (t.tags.headD "")
  refuse (d.creating?.map (· ++ first.whereabouts))
  let temp ← MonadExcept.ofExcept (t.temporaryIn folder)
  set (t.put temp.place [])
  return temp

/-- Writes contents to a temporary file; of those that are refused a part may be written. -/
def fill (d : Disk) (temp : TemporaryFile) (contents : Bytes) : DiskM String Unit :=
  match d.filling? with
  | some (n, reason) => do
    modify fun t => t.put temp.place (contents.take n)
    throw (reason ++ temp.path.whereabouts)
  | none => modify fun t => t.put temp.place contents

/-- Moves a temporary file to its destination. -/
def moveTo (d : Disk) (temp : TemporaryFile) (dest : Path) : DiskM String Unit := do
  refuse d.moving?
  let t ← get
  let l ← MonadExcept.ofExcept ((t.target dest).mapError FileFault.message)
  set (t.move temp.place l)

/-- Fills a temporary file and moves it to its destination. -/
def complete (d : Disk) (temp : TemporaryFile) (dest : Path) (contents : Bytes) :
    DiskM String Unit := do
  d.fill temp contents
  refuse d.flushing?
  d.moveTo temp dest

/-- Saves a file by way of a temporary one, which is removed after a failure. -/
def save (d : Disk) (dest : Path) (contents : Bytes) : DiskM String Unit := do
  let temp ← d.createIn dest.folder
  try d.complete temp dest contents
  catch reason =>
    modify fun t => t.erase temp.place
    throw reason

/-- Writes what a plan is about to write, step by step. -/
def carryOut (d : Disk) (plan : RepairPlan) : DiskM RepairError Unit :=
  match plan.write? with
  | none => return
  | some (dest, contents) =>
    (d.save dest contents).adapt fun reason => .model (.io dest.text reason)

/-- Repairs the model in a file, step by step. -/
def repairFile (d : Disk) (s : Settings) (p : Path) : DiskM RepairError FileRepair := do
  (refuse d.reading?).adapt fun reason => .model (.io p.text reason)
  let t ← get
  let plan ← MonadExcept.ofExcept (t.planRepair s p)
  d.carryOut plan
  return { source := p, written? := plan.write?.map Prod.fst, report := plan.report }

end Disk

end TensorGraph
