import TensorGraph.Files.Path
import TensorGraph.Wire.Varint

/-!
# File trees

Files and folders, and the folder in which a program works. Paths are followed segment by segment,
as written: absolute ones from the root, all others from the working directory.
-/

namespace TensorGraph

/-- The names on the way from the root to a file or folder. -/
abbrev Location := List String

/-- Files with their contents, and folders; a folder that holds something need not be listed. -/
structure FileTree where
  files : List (Location × Bytes) := []
  folders : List Location := []
  /-- The working directory, which is there in any case. -/
  base : Location := []
  /-- Ends for the names of temporary files, in the order in which they are tried. -/
  tags : List String := []
deriving DecidableEq, Repr, Inhabited

/-- Why a path leads to no file or folder, or to the wrong one of them. -/
inductive FileFault where
  | missing
  /-- The path goes on behind something that is no folder. -/
  | notFolder
  | folder
  /-- A folder has no contents that could be mapped. -/
  | unmappable
deriving DecidableEq, Repr

def FileFault.message : FileFault → String
  | missing => "No such file or directory (os error 2)"
  | notFolder => "Not a directory (os error 20)"
  | folder => "Is a directory (os error 21)"
  | unmappable => "No such device (os error 19)"

namespace FileTree

/-- The contents of the file at a location. -/
def fileAt? (t : FileTree) (l : Location) : Option Bytes := t.files.lookup l

/-- All locations at which something is known to be. -/
def listed (t : FileTree) : List Location := t.base :: (t.files.map Prod.fst ++ t.folders)

/-- Whether a location is that of a folder: the working directory or one on the way to it, a listed
folder, or one on the way to something listed. -/
def isFolderAt (t : FileTree) (l : Location) : Bool :=
  l.isPrefixOf t.base || (t.fileAt? l).isNone && t.listed.any fun m => l.isPrefixOf m

/-- Whether there is a file or folder at a location. -/
def existsAt (t : FileTree) (l : Location) : Bool := (t.fileAt? l).isSome || t.isFolderAt l

/-- Goes on from a location along segments; the root is its own parent. -/
def follow (t : FileTree) : Location → List String → Except FileFault Location
  | l, [] => .ok l
  | l, s :: rest =>
    if !t.isFolderAt l then .error .notFolder
    else if s = "" || s = "." then t.follow l rest
    else if s = ".." then t.follow l.dropLast rest
    else if t.existsAt (l ++ [s]) then t.follow (l ++ [s]) rest
    else .error .missing

/-- The location at which a path starts. -/
def start (t : FileTree) (p : Path) : Location := if p.isAbsolute then [] else t.base

/-- The location to which a path leads. -/
def locate (t : FileTree) (p : Path) : Except FileFault Location :=
  if p.text.isEmpty then .error .missing else t.follow (t.start p) p.segments

/-- The path of the working directory. -/
def basePath (t : FileTree) : Path := ⟨"" :: if t.base.isEmpty then [""] else t.base⟩

/-- The path of a temporary file in a folder. -/
def temporaryPath (t : FileTree) (folder : Path) (tag : String) : Path :=
  (t.basePath.join folder).join (.ofText (".tmp" ++ tag))

/-- The contents of the file to which a path leads; nothing for a folder. -/
def contents? (t : FileTree) (p : Path) : Except FileFault (Option Bytes) :=
  (t.locate p).map t.fileAt?

/-- Whether a path leads to a file. -/
def isFile (t : FileTree) (p : Path) : Bool :=
  match t.contents? p with
  | .ok (some _) => true
  | _ => false

/-- The location of a folder to which a path leads. -/
def folderAt (t : FileTree) (p : Path) : Except FileFault Location := do
  let l ← t.locate p
  if t.isFolderAt l then return l else throw .notFolder

/-- Whether a path leads to a folder. -/
def isFolder (t : FileTree) (p : Path) : Bool :=
  match t.contents? p with
  | .ok none => true
  | _ => false

/-- The beginnings of a location that have more than some number of names. -/
def beginnings (count : Nat) (l : Location) : List Location :=
  (List.range (l.length + 1)).filterMap fun n => if count < n then some (l.take n) else none

/-- Ways to all that stands below a location, from there on. -/
def below (t : FileTree) (l : Location) : List Location :=
  (((t.listed.filter fun m => l.isPrefixOf m).flatMap (beginnings l.length)).eraseDups).map
    (List.drop l.length)

/-- Puts contents at a location in place of the file there, or as a new file. -/
def replaceAt (l : Location) (contents : Bytes) : List (Location × Bytes) → List (Location × Bytes)
  | [] => [(l, contents)]
  | (m, old) :: rest =>
    if m = l then (m, contents) :: rest else (m, old) :: replaceAt l contents rest

def put (t : FileTree) (l : Location) (contents : Bytes) : FileTree :=
  { t with files := replaceAt l contents t.files }

/-- The location at which a file can be written to a path: its folder must be there, and no folder
in its place. -/
def target (t : FileTree) (p : Path) : Except FileFault Location :=
  match t.locate p with
  | .ok l => if (t.fileAt? l).isSome then .ok l else .error .folder
  | .error .missing =>
    match p.segments.getLast? with
    | none => .error .missing
    | some name =>
      if p.text.isEmpty then .error .missing
      else do
        let folder ← t.follow (t.start p) p.segments.dropLast
        if !t.isFolderAt folder then .error .notFolder
        else if name = "" then .error .folder
        else if name = "." || name = ".." then .error .missing
        else .ok (folder ++ [name])
  | .error f => .error f

/-- Writes a file, in place of the one to which the path leads. -/
def write (t : FileTree) (p : Path) (contents : Bytes) : Except FileFault FileTree :=
  (t.target p).map fun l => t.put l contents

end FileTree

end TensorGraph
