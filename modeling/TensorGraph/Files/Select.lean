import TensorGraph.Files.Pattern
import TensorGraph.Repair

/-!
# Selection of files

A selector is a folder, for the model files in it at any depth, a file, or a pattern.
-/

namespace TensorGraph

/-- Whether a text is a pattern. -/
def hasMarks (s : String) : Bool := s.toList.any fun c => c = '*' || c = '?' || c = '['

/-- Puts a path into a sorted list, unless there is one for the same way. -/
def insertPath (p : Path) : List Path → List Path
  | [] => [p]
  | q :: rest =>
    if p.before q then p :: q :: rest
    else if p.agrees q then q :: rest
    else q :: insertPath p rest

namespace FileTree

/-- The paths for which a pattern stands; `selector` is what asks for them. -/
def glob (t : FileTree) (selector : String) (pattern : String) : Except RepairError (List Path) :=
  match Pattern.ofText pattern with
  | .ok p => .ok (p.paths t)
  | .error f => .error (.selection selector f.message)

/-- Whether a path leads to a file with the extension of models, in any case of letters. -/
def isModelFile (t : FileTree) (p : Path) : Bool :=
  t.isFile p && p.extension?.any fun e => e.toList.map Char.toLower = "onnx".toList

/-- The model files in a folder, at any depth, sorted. -/
def scan (t : FileTree) (folder : Path) : Except RepairError (List Path) :=
  (t.glob folder.text (Pattern.escape folder.text ++ "/**/*")).map fun paths =>
    (paths.filter t.isModelFile).mergeSort fun p q => !q.before p

/-- The files for which a selector stands. -/
def selected (t : FileTree) (selector : String) : Except RepairError (List Path) :=
  let p := Path.ofText selector
  if t.isFolder p then t.scan p
  else if t.isFile p then .ok [p]
  else if hasMarks selector then
    (t.glob selector selector).map fun paths => paths.filter t.isFile
  else .error (.selection selector "no such file or directory")

/-- The files for which selectors stand, sorted and each once. -/
def select (t : FileTree) (selectors : List String) : Except RepairError (List Path) :=
  selectors.foldlM (fun paths selector => do
    let more ← t.selected selector
    return more.foldl (fun paths p => insertPath p paths) paths) []

end FileTree

end TensorGraph
