import TensorGraph.Files.ModelFile
import TensorGraph.ManifestReport

/-!
# Batches

Work on several files, each on its own: one that fails is recorded, and the others go on.
-/

namespace TensorGraph

/-- What has become of the files of a batch, both lists sorted by path. -/
structure Batch (α : Type) where
  successes : List (Path × α) := []
  failures : List (Path × RepairError) := []
deriving DecidableEq, Repr, Inhabited

namespace Batch

variable {α : Type}

def size (b : Batch α) : Nat := b.successes.length + b.failures.length

def allSucceeded (b : Batch α) : Bool := b.failures.isEmpty

def summary (b : Batch α) : String :=
  s!"{b.size} file(s): {b.successes.length} succeeded, {b.failures.length} failed"

/-- Sorts results by path; those for one path keep their order. -/
def sortByPath {β : Type} (results : List (Path × β)) : List (Path × β) :=
  results.mergeSort fun a b => !b.1.before a.1

/-- The batch with the given results, in whatever order they came. -/
def ofResults (results : List (Path × Except RepairError α)) : Batch α where
  successes := sortByPath <| results.filterMap fun (p, r) => r.toOption.map fun a => (p, a)
  failures := sortByPath <| results.filterMap fun
    | (p, .error e) => some (p, e)
    | _ => none

/-- Runs a job that changes nothing on each path. -/
def run (job : Path → Except RepairError α) (paths : List Path) : Batch α :=
  ofResults (paths.map fun p => (p, job p))

end Batch

namespace FileTree

/-- Runs a job that may change files on each path in turn. -/
def runEach {α : Type} (job : FileTree → Path → Except RepairError (α × FileTree)) :
    FileTree → List Path → List (Path × Except RepairError α) × FileTree
  | t, [] => ([], t)
  | t, p :: rest =>
    let (result, next) :=
      match job t p with
      | .ok (a, next) => (.ok a, next)
      | .error e => (.error e, t)
    let (results, last) := runEach job next rest
    ((p, result) :: results, last)

/-- Repairs files one after the other. -/
def repairFiles (t : FileTree) (s : Settings) (paths : List Path) :
    Batch FileRepair × FileTree :=
  let (results, t) := t.runEach (fun t p => t.repairFile s p) paths
  (.ofResults results, t)

/-- The manifest entries of the models in some files. -/
def manifests (t : FileTree) (paths : List Path) : Batch ManifestEntry := .run t.manifest paths

end FileTree

/-- The report on a batch of manifest entries; the key of each is the way to it from a folder. -/
def Batch.manifestReport (b : Batch ManifestEntry) (root : Path) : ManifestReport :=
  .ofList (b.successes.map fun (p, e) => (root.relativeKey p, e))

end TensorGraph
