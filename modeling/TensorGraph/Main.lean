import TensorGraph.Command.Run

/-!
# The program

Loads the files below the working directory, runs the command line on them, writes the files that
have changed and prints what there is to print. Nothing else is loaded: a path to anything outside
of the working directory leads to a file that is missing.
-/

namespace TensorGraph

/-- The entries of a folder, with all that is in them. -/
partial def loadEntries (location : Location) (entries : Array IO.FS.DirEntry) (t : FileTree) :
    IO FileTree :=
  entries.foldlM (fun t entry => do
    let l := location ++ [entry.fileName]
    if ← entry.path.isDir then
      loadEntries l (← entry.path.readDir) { t with folders := t.folders ++ [l] }
    else
      let contents ← IO.FS.readBinFile entry.path
      return { t with files := t.files ++ [(l, contents.toList)] }) t

/-- Writes the files in which a tree differs from another one. -/
def writeChanges (before after : FileTree) : IO Unit :=
  after.files.forM fun (l, contents) => do
    if before.fileAt? l != some contents then
      IO.FS.writeBinFile ("/" ++ "/".intercalate l) contents.toByteArray

/-- The names on the way from the root to a folder. -/
def locationOf (folder : String) : Location :=
  (Text.split '/' folder).filter fun name => !name.isEmpty

/-- Ends for temporary names, as many as are tried. -/
def someTags : List String := (List.range 65536).map fun n => toString (100000 + n)

end TensorGraph

open TensorGraph in
def main (args : List String) : IO UInt32 := do
  let here ← IO.currentDir
  let base := locationOf here.toString
  let t ← loadEntries base (← here.readDir) { base, tags := someTags }
  let r := Command.run t args
  writeChanges t r.files
  IO.print r.output
  IO.eprint r.errors
  return UInt32.ofNat r.code
