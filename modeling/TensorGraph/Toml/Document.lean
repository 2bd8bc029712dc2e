import TensorGraph.Toml.Number
import TensorGraph.Toml.Quoted
import TensorGraph.Toml.Table

/-!
# TOML documents

Reads the text of a document: lines with a key and a value, headers of tables, comments.
-/

namespace TensorGraph.Toml

/-- How deep arrays and tables may stand inside of each other, and how many parts a key may have. -/
def nestingLimit : Nat := 80

def skipComment : List Char → List Char
  | '#' :: rest => rest.dropWhile isPlain
  | cs => cs

def lineEnd (cs : List Char) : Except Fault (List Char) :=
  match skipComment (skipBlanks cs) with
  | [] => .ok []
  | cs =>
    match newline? cs with
    | some rest => .ok rest
    | none => faultAt .lineEnd cs

/-- Passes over blanks, comments and line ends, in at most `fuel` steps. -/
def skipLayout : (fuel : Nat) → List Char → List Char
  | 0, cs => cs
  | fuel + 1, cs =>
    let cs := skipBlanks cs
    match newline? (skipComment cs) with
    | some rest => skipLayout fuel rest
    | none => cs

/-! ## Keys -/

def isBare (c : Char) : Bool :=
  ('a' ≤ c && c ≤ 'z') || ('A' ≤ c && c ≤ 'Z') || c.isDigit || c = '_' || c = '-'

def simpleKey : Reader String := fun cs =>
  match cs with
  | '"' :: rest => (basicString rest).map fun (chars, rest) => (String.ofList chars, rest)
  | '\'' :: rest => (literalBody rest).map fun (chars, rest) => (String.ofList chars, rest)
  | _ =>
    let chars := cs.takeWhile isBare
    if chars.isEmpty then faultAt .key cs else .ok (String.ofList chars, cs.dropWhile isBare)

/-- Reads the parts of a key behind the first one, in at most `fuel` steps; the rest starts behind
the blanks that follow. A dot without a part behind it is left. -/
def moreKeys : (fuel : Nat) → Reader (List String)
  | fuel + 1, '.' :: rest =>
    match simpleKey (skipBlanks rest) with
    | .error ⟨.key, _, _⟩ => .ok ([], '.' :: rest)
    | .error f => .error f
    | .ok (key, rest) => do
      let (keys, rest) ← moreKeys fuel (skipBlanks rest)
      return (key :: keys, rest)
  | _, cs => .ok ([], cs)

/-- Reads a key: the parts before the last one, and this one. -/
def dottedKey : Reader (List String × String) := fun cs => do
  let (first, rest) ← simpleKey (skipBlanks cs)
  let (more, rest) ← moreKeys rest.length (skipBlanks rest)
  if nestingLimit < more.length + 1 then faultAt .nesting cs
  else
    match more.getLast? with
    | none => return (([], first), rest)
    | some last => return ((first :: more.dropLast, last), rest)

def keyAndValue (value : Reader Value) : Reader ((List String × String) × Located Value) :=
  fun cs => do
    let (key, rest) ← dottedKey cs
    match rest with
    | '=' :: rest =>
      let (v, rest) ← locate value (skipBlanks rest)
      return ((key, v), rest)
    | _ => faultAt .separator rest

/-! ## Values -/

def items (value : Reader Value) : (fuel : Nat) → Reader (List Value)
  | 0, cs => faultAt .array cs
  | fuel + 1, cs =>
    match skipLayout cs.length cs with
    | ']' :: rest => .ok ([], rest)
    | cs => do
      let (v, rest) ← value cs
      match skipLayout rest.length rest with
      | ',' :: rest =>
        let (more, rest) ← items value fuel rest
        return (v :: more, rest)
      | ']' :: rest => return ([v], rest)
      | cs => faultAt .array cs

/-- Reads the entries of an inline table up to its end, in at most `fuel` steps, and adds them to
those already read. -/
def inlineEntries (value : Reader Value) (start : List Char) :
    (fuel : Nat) → Entries → Reader Entries
  | 0, _, cs => faultAt .inlineTable cs
  | fuel + 1, entries, cs => do
    let (((path, key), v), rest) ← keyAndValue value cs
    match assignInline (fun t => ⟨t, start.length, 1⟩) path key v entries with
    | .error reason => faultAt reason start
    | .ok entries =>
      match skipBlanks rest with
      | ',' :: rest => inlineEntries value start fuel entries rest
      | '\x7d' :: rest => return (entries, rest)
      | cs => faultAt .inlineTable cs

def inlineTable (value : Reader Value) : Reader Value := fun cs =>
  match skipBlanks cs with
  | '\x7d' :: rest => .ok (.table .inline [], rest)
  | cs => (inlineEntries value cs (cs.length + 1) [] cs).map fun (entries, rest) =>
      (.table .inline entries, rest)

def value : (depth : Nat) → Reader Value
  | depth, '[' :: rest =>
    match depth with
    | 0 => faultAt .nesting ('[' :: rest)
    | depth + 1 => (items (value depth) (rest.length + 1) rest).map fun (vs, rest) =>
        (.array vs, rest)
  | depth, '\x7b' :: rest =>
    match depth with
    | 0 => faultAt .nesting ('\x7b' :: rest)
    | depth + 1 => inlineTable (value depth) rest
  | _, 't' :: 'r' :: 'u' :: 'e' :: rest => .ok (.boolean true, rest)
  | _, 'f' :: 'a' :: 'l' :: 's' :: 'e' :: rest => .ok (.boolean false, rest)
  | _, 'i' :: 'n' :: 'f' :: rest => .ok (.float "inf", rest)
  | _, 'n' :: 'a' :: 'n' :: rest => .ok (.float "NaN", rest)
  | _, cs =>
    match cs with
    | c :: _ =>
      if c.isDigit || c = '+' || c = '-' then number cs
      else if c = '"' || c = '\'' then (string cs).map fun (s, rest) => (.text s, rest)
      else faultAt .value cs
    | [] => faultAt .value []

/-! ## Lines -/

/-- What has been read of a document: its entries, and the table to which lines belong. -/
structure Progress where
  root : Entries := []
  table : List String := []

/-- Carries out what a statement says; what is wrong with it shows where it starts. -/
def settle {α : Type} (start : List Char) : Except Reason α → Except Fault α
  | .ok a => .ok a
  | .error reason => faultAt reason start

def assignment (p : Progress) : Reader Progress := fun cs => do
  let (((path, key), v), rest) ← keyAndValue (value (nestingLimit - 1)) cs
  let rest ← lineEnd rest
  let root ← settle cs (assign (fun t => ⟨t, cs.length, 1⟩) p.table path key v p.root)
  return ({ p with root }, rest)

/-- Reads the header of a table whose text begins at `start`, behind its opening brackets. -/
def header (p : Progress) (several : Bool) (start : List Char) : Reader Progress := fun cs => do
  let ((path, key), rest) ← dottedKey cs
  let rest ←
    match several, rest with
    | false, ']' :: rest => pure rest
    | true, ']' :: ']' :: rest => pure rest
    | _, _ => faultAt (if several then .arrayHeader else .header) rest
  let size := start.length - rest.length
  let rest ← lineEnd rest
  let place := fun t => ⟨t, start.length, size⟩
  let root ← settle start
    (if several then addTable place path key p.root else openTable place path key p.root)
  return ({ root, table := path ++ [key] }, rest)

/-- Reads lines up to the end of the text, in at most `fuel` steps. -/
def statements : (fuel : Nat) → Progress → List Char → Except Fault Entries
  | 0, _, cs => faultAt .unexpected cs
  | fuel + 1, p, cs =>
    match skipBlanks cs with
    | [] => .ok p.root
    | '#' :: rest => do
      let rest ← lineEnd ('#' :: rest)
      statements fuel p rest
    | '[' :: '[' :: rest => do
      let (p, rest) ← header p true ('[' :: '[' :: rest) rest
      statements fuel p rest
    | '[' :: rest => do
      let (p, rest) ← header p false ('[' :: rest) rest
      statements fuel p rest
    | cs =>
      match newline? cs with
      | some rest => statements fuel p rest
      | none => do
        if cs.head? = some '\r' then faultAt .unexpected cs
        else
          let (p, rest) ← assignment p cs
          statements fuel p rest

/-- The entries of a document. A byte order mark at its beginning does not count. -/
def read (text : String) : Except Fault Entries :=
  match text.toList with
  | '\uFEFF' :: cs => statements (cs.length + 1) {} cs
  | cs => statements (cs.length + 1) {} cs

end TensorGraph.Toml
