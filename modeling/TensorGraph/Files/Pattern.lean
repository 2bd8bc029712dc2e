import TensorGraph.Files.Tree

/-!
# Path patterns

Patterns for paths: a question mark stands for one character, a star for any number of them, a class
in brackets for one of several, and two stars as a segment of their own for folders at any depth.
-/

namespace TensorGraph

/-- The characters from one to another. -/
structure CharRange where
  least : Char
  greatest : Char
deriving DecidableEq, Repr

/-- What one sign of a pattern stands for. -/
inductive Mark where
  | char (c : Char)
  | any
  | many
  | within (ranges : List CharRange)
  | without (ranges : List CharRange)
  /-- Two stars. -/
  | deep
deriving DecidableEq, Repr

/-- Why a text is no pattern; the index tells where. -/
inductive PatternFault where
  | tooManyStars (index : Nat)
  | starsNotAlone (index : Nat)
  | openClass (index : Nat)
deriving DecidableEq, Repr

def PatternFault.message : PatternFault → String
  | tooManyStars index =>
    s!"Pattern syntax error near position {index}: " ++
      "wildcards are either regular `*` or recursive `**`"
  | starsNotAlone index =>
    s!"Pattern syntax error near position {index}: " ++
      "recursive wildcards must form a single path component"
  | openClass index => s!"Pattern syntax error near position {index}: invalid range pattern"

/-- The ranges of a class: characters with a dash between them, and single characters. -/
def charRanges : List Char → List CharRange
  | a :: '-' :: b :: rest => ⟨a, b⟩ :: charRanges rest
  | a :: rest => ⟨a, a⟩ :: charRanges rest
  | [] => []

def inRanges (ranges : List CharRange) (c : Char) : Bool :=
  ranges.any fun r => r.least ≤ c && c ≤ r.greatest

/-- What a class stands for, behind its opening bracket, and the rest. The first character of a
class may be a closing bracket. -/
def charClass? (cs : List Char) : Option (Mark × List Char) :=
  let close (first : Char) (tail : List Char) : Option (List CharRange × List Char) :=
    match tail.dropWhile (· ≠ ']') with
    | [] => none
    | _ :: rest => some (charRanges (first :: tail.takeWhile (· ≠ ']')), rest)
  match cs with
  | '!' :: c :: tail => (close c tail).map fun (ranges, rest) => (.without ranges, rest)
  | '!' :: [] => none
  | c :: tail => (close c tail).map fun (ranges, rest) => (.within ranges, rest)
  | [] => none

/-- The marks of a pattern from some character on, behind the character `before?`, read in at most
`fuel` steps. -/
def marksFrom :
    (fuel index : Nat) → (before? : Option Char) → List Char → Except PatternFault (List Mark)
  | 0, _, _, _ => .ok []
  | fuel + 1, index, before?, cs =>
    match cs with
    | [] => .ok []
    | '?' :: rest => (marksFrom fuel (index + 1) (some '?') rest).map (.any :: ·)
    | '*' :: _ =>
      let run := (cs.takeWhile (· = '*')).length
      let rest := cs.drop run
      if run = 1 then (marksFrom fuel (index + 1) (some '*') rest).map (.many :: ·)
      else if 2 < run then .error (.tooManyStars (index + 2))
      else if before? = none ∨ before? = some '/' then
        match rest with
        | [] => .ok [.deep]
        | '/' :: rest => (marksFrom fuel (index + 3) (some '/') rest).map (.deep :: ·)
        | _ => .error (.starsNotAlone (index + 2))
      else .error (.starsNotAlone (index - 1))
    | '[' :: tail =>
      match charClass? tail with
      | none => .error (.openClass index)
      | some (mark, rest) =>
        (marksFrom fuel (index + (cs.length - rest.length)) (some ']') rest).map (mark :: ·)
    | c :: rest => (marksFrom fuel (index + 1) (some c) rest).map (.char c :: ·)

/-- The marks of a pattern. -/
def marks (cs : List Char) : Except PatternFault (List Mark) :=
  marksFrom (cs.length + 1) 0 none cs

def anywhere (test : List Char → Bool) : List Char → Bool
  | [] => test []
  | c :: cs => test (c :: cs) || anywhere test cs

/-- Whether marks stand for a name. -/
def marksMatch : List Mark → List Char → Bool
  | [], cs => cs.isEmpty
  | .char c :: rest, d :: cs => c = d && marksMatch rest cs
  | .any :: rest, _ :: cs => marksMatch rest cs
  | .within ranges :: rest, c :: cs => inRanges ranges c && marksMatch rest cs
  | .without ranges :: rest, c :: cs => !inRanges ranges c && marksMatch rest cs
  | .many :: rest, cs => anywhere (marksMatch rest) cs
  | .deep :: rest, cs => anywhere (marksMatch rest) cs
  | _, [] => false

/-- A pattern, segment by segment. -/
structure Pattern where
  segments : List (List Mark)
  rooted : Bool
  /-- A slash at the end: only folders are meant. -/
  foldersOnly : Bool
deriving DecidableEq, Repr

namespace Pattern

/-- Reads a pattern. -/
def ofText (s : String) : Except PatternFault Pattern := do
  let _ ← marks s.toList
  let rooted := (Path.ofText s).isAbsolute
  let pieces := Text.pieces '/' (if rooted then s.toList.drop 1 else s.toList)
  let ended := pieces.getLast? = some [] && 1 < pieces.length
  return {
    segments := ← (if ended then pieces.dropLast else pieces).mapM marks
    rooted
    foldersOnly := s.toList.getLast? = some '/' }

/-- The pattern that stands for a text alone. -/
def escape (s : String) : String :=
  String.ofList (s.toList.flatMap fun c =>
    if c = '?' || c = '*' || c = '[' || c = ']' then ['[', c, ']'] else [c])

def literalChar? : Mark → Option Char
  | .char c => some c
  | _ => none

/-- The name for which marks stand alone. -/
def literal? (marks : List Mark) : Option String :=
  (marks.mapM literalChar?).map String.ofList

/-- Goes on from a path to a name; from the working directory the name alone is written. -/
def child (p : Path) (name : String) : Path :=
  if p.steps = [.here] then .ofText name else p.join (.ofText name)

/-- The folder itself and the one above it, where marks that start with a dot stand for them. -/
def dotNames (marks : List Mark) : List String :=
  match marks with
  | .char '.' :: _ => [".", ".."].filter fun name => marksMatch marks name.toList
  | _ => []

/-- Whether a path is there for a segment that names it. Dots are there in a folder. -/
def leadsOn (t : FileTree) (p : Path) (name : String) : Bool :=
  if name = "." ∨ name = ".." then t.isFolder p
  else (t.locate (child p name)).toOption.isSome

/-- The ways from a folder to all that stands below it. -/
def waysBelow (t : FileTree) (p : Path) : List Location :=
  match t.locate p with
  | .ok l => if t.isFolderAt l then t.below l else []
  | .error _ => []

def along (p : Path) : Location → Path
  | [] => p
  | name :: rest => rest.foldl (fun p name => p.join (.ofText name)) (child p name)

/-- The paths that segments of a pattern stand for from a path on. `behindDeep` tells that two stars
have gone before: then the segment may match at any depth. -/
def expand (t : FileTree) : (behindDeep : Bool) → List (List Mark) → Path → List Path
  | false, [], p => [p]
  | true, [], p => ((waysBelow t p).map (along p)).filter t.isFolder
  | _, [.deep] :: rest, p => expand t true rest p
  | true, marks :: rest, p =>
    (waysBelow t p).flatMap fun way =>
      if marksMatch marks (way.getLast?.getD "").toList then expand t false rest (along p way)
      else []
  | false, marks :: rest, p =>
    match literal? marks with
    | some name => if leadsOn t p name then expand t false rest (child p name) else []
    | none =>
      if t.isFolder p then
        ((waysBelow t p).flatMap fun
          | [name] =>
            if marksMatch marks name.toList then expand t false rest (child p name) else []
          | _ => []) ++
        (dotNames marks).flatMap fun name => expand t false rest (p.join (.ofText name))
      else []

/-- All paths for which a pattern stands. -/
def paths (t : FileTree) (p : Pattern) : List Path :=
  let start : Path := if p.rooted then ⟨["", ""]⟩ else ⟨["."]⟩
  (expand t false p.segments start).filter fun q => !p.foldersOnly || t.isFolder q

end Pattern

end TensorGraph
