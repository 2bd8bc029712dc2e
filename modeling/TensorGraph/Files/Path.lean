import TensorGraph.Text.Pieces

/-!
# Paths

A path is a list of segments with slashes between them. Empty segments and dots are kept as they
are written; paths are compared by what remains without them.
-/

namespace TensorGraph

/-- A path: the segments between the slashes of its text. The first segment of an absolute path
is empty, and that of the empty path is the only one. -/
structure Path where
  segments : List String := [""]
deriving DecidableEq, Repr, Inhabited

/-- What a segment of a path means. -/
inductive PathStep where
  | root
  /-- The directory from which the path starts, written out. -/
  | here
  /-- One directory up. -/
  | up
  | name (name : String)
deriving DecidableEq, Repr

namespace PathStep

def rank : PathStep → Nat
  | root => 0
  | here => 1
  | up => 2
  | name _ => 3

def before : PathStep → PathStep → Bool
  | name a, name b => decide (a < b)
  | a, b => decide (a.rank < b.rank)

end PathStep

namespace Path

def ofText (s : String) : Path := ⟨Text.split '/' s⟩

def text (p : Path) : String := "/".intercalate p.segments

def isAbsolute (p : Path) : Bool :=
  match p.segments with
  | "" :: _ :: _ => true
  | _ => false

/-- The step that a segment means, if it means one; `first` tells that a path starts with it. -/
def stepOf? (first : Bool) (segment : String) : Option PathStep :=
  if segment.isEmpty then none
  else if segment = "." then if first then some .here else none
  else if segment = ".." then some .up
  else some (.name segment)

def laterSteps (segments : List String) : List PathStep := segments.filterMap (stepOf? false)

/-- What a path means, segment by segment. -/
def steps (p : Path) : List PathStep :=
  match p.segments with
  | [] => []
  | first :: rest =>
    (if p.isAbsolute then [.root] else (stepOf? true first).toList) ++ laterSteps rest

/-- Whether a list of steps goes before another one, step by step. -/
def stepsBefore : List PathStep → List PathStep → Bool
  | _, [] => false
  | [], _ :: _ => true
  | a :: as, b :: bs => a.before b || (a == b && stepsBefore as bs)

def before (p q : Path) : Bool := stepsBefore p.steps q.steps

/-- Whether two paths mean the same way. -/
def agrees (p q : Path) : Bool := p.steps == q.steps

/-- The name at the end of a path. -/
def fileName? (p : Path) : Option String :=
  match p.steps.getLast? with
  | some (.name name) => some name
  | _ => none

/-- Splits a file name at its last dot; a dot at the very beginning does not count. -/
def splitName (name : String) : String × Option String :=
  match Text.aroundLast? '.' name.toList with
  | some (c :: front, back) => (String.ofList (c :: front), some (String.ofList back))
  | _ => (name, none)

/-- The name at the end without its extension. -/
def stem? (p : Path) : Option String := p.fileName?.map fun name => (splitName name).1

/-- The extension of the name at the end. -/
def extension? (p : Path) : Option String := p.fileName?.bind fun name => (splitName name).2

/-- Drops the segments at the end that mean no step. -/
def dropIdle (first : Bool) : List String → List String
  | [] => []
  | s :: rest =>
    match dropIdle false rest with
    | [] => if (stepOf? first s).isSome then [s] else []
    | kept => s :: kept

/-- Drops the last segment that means a step, and those around it that mean none. -/
def dropLastStep (first : Bool) (segments : List String) : List String :=
  dropIdle first (dropIdle first segments).dropLast

/-- The path without its last step. -/
def parent (p : Path) : Path :=
  match p.segments with
  | "" :: s :: rest =>
    match dropLastStep false (s :: rest) with
    | [] => ⟨["", ""]⟩
    | kept => ⟨"" :: kept⟩
  | segments =>
    match dropLastStep true segments with
    | [] => ⟨[""]⟩
    | kept => ⟨kept⟩

/-- Continues a path with another one; an absolute one stands for itself. -/
def join (p q : Path) : Path :=
  if q.isAbsolute then q
  else if p.segments.getLast? = some "" then ⟨p.segments.dropLast ++ q.segments⟩
  else ⟨p.segments ++ q.segments⟩

/-- The folder in which a path has its name. -/
def folder (p : Path) : Path := if p.parent.text.isEmpty then ⟨["."]⟩ else p.parent

/-- A character as it shows between quotes. -/
def shownChar (c : Char) : List Char :=
  match c with
  | '\x00' => ['\\', '0']
  | '\t' => ['\\', 't']
  | '\n' => ['\\', 'n']
  | '\r' => ['\\', 'r']
  | '"' => ['\\', '"']
  | '\\' => ['\\', '\\']
  | c =>
    if c.toNat < 32 || c.toNat = 127 then
      ['\\', 'u', '\x7b'] ++ Nat.toDigits 16 c.toNat ++ ['\x7d']
    else [c]

/-- What is added to a fault of a file that has this path. -/
def whereabouts (p : Path) : String :=
  " at path \"" ++ String.ofList (p.text.toList.flatMap shownChar) ++ "\""

/-- The path with another name at its end, or behind its end if there is no name. -/
def withFileName (p : Path) (name : String) : Path :=
  (if p.fileName?.isSome then p.parent else p).join (ofText name)

/-- What remains of a way behind another one with which it starts. -/
def stepsBehind? : List PathStep → List PathStep → Option (List PathStep)
  | [], steps => some steps
  | a :: as, b :: bs => if a = b then stepsBehind? as bs else none
  | _ :: _, [] => none

/-- How a step shows in a key. -/
def keyPart? : PathStep → Option String
  | .root => some ""
  | .name name => some name
  | _ => none

/-- The names on the way from a directory to a path, with slashes between them. A path that does
not start with the directory is taken as it is. -/
def relativeKey (root p : Path) : String :=
  "/".intercalate (((stepsBehind? root.steps p.steps).getD p.steps).filterMap keyPart?)

end Path

end TensorGraph
