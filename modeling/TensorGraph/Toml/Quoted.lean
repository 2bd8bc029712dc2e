import TensorGraph.Toml.Value

/-!
# TOML strings

Strings between quotes: basic ones, in which a backslash escapes, and literal ones; each also in a
long form that spans lines.
-/

namespace TensorGraph.Toml

/-- Whether a character may stand for itself: all but control characters, a tab aside. -/
def isPlain (c : Char) : Bool := c = '\t' || (32 ≤ c.toNat && c.toNat ≠ 127)

def newline? : List Char → Option (List Char)
  | '\n' :: rest => some rest
  | '\r' :: '\n' :: rest => some rest
  | _ => none

def isBlank (c : Char) : Bool := c = ' ' || c = '\t'

def skipBlanks (cs : List Char) : List Char := cs.dropWhile isBlank

def hexValue? (c : Char) : Option Nat :=
  if '0' ≤ c ∧ c ≤ '9' then some (c.toNat - 48)
  else if 'a' ≤ c ∧ c ≤ 'f' then some (c.toNat - 87)
  else if 'A' ≤ c ∧ c ≤ 'F' then some (c.toNat - 55)
  else none

/-- The character whose code is written with so many digits. -/
def codedChar (digits : Nat) : Reader Char := fun cs =>
  match (cs.take digits).mapM hexValue? with
  | none => faultAt (.code digits) cs
  | some values =>
    let code := values.foldl (fun n d => 16 * n + d) 0
    if values.length = digits ∧ code.isValidChar then .ok (Char.ofNat code, cs.drop digits)
    else faultAt (.code digits) cs

def escapedChar : Reader Char
  | 'b' :: rest => .ok ('\x08', rest)
  | 'f' :: rest => .ok ('\x0c', rest)
  | 'n' :: rest => .ok ('\n', rest)
  | 'r' :: rest => .ok ('\r', rest)
  | 't' :: rest => .ok ('\t', rest)
  | '\\' :: rest => .ok ('\\', rest)
  | '"' :: rest => .ok ('"', rest)
  | 'u' :: rest => codedChar 4 rest
  | 'U' :: rest => codedChar 8 rest
  | _ :: rest => faultAt .escape rest
  | [] => faultAt .escape []

def prepend (front : List Char) (read : Except Fault (List Char × List Char)) :
    Except Fault (List Char × List Char) :=
  read.map fun (chars, rest) => (front ++ chars, rest)

/-- A basic string behind its opening quote, read in at most `fuel` steps. -/
def basicBody : (fuel : Nat) → Reader (List Char)
  | 0, cs => faultAt .basicString cs
  | fuel + 1, cs =>
    match cs with
    | '"' :: rest => .ok ([], rest)
    | '\\' :: rest => do
      let (c, rest) ← escapedChar rest
      prepend [c] (basicBody fuel rest)
    | c :: rest =>
      if isPlain c then prepend [c] (basicBody fuel rest) else faultAt .basicString cs
    | [] => faultAt .basicString cs

def literalBody : Reader (List Char)
  | '\'' :: rest => .ok ([], rest)
  | c :: rest =>
    if isPlain c then prepend [c] (literalBody rest) else faultAt .literalString (c :: rest)
  | [] => faultAt .literalString []

/-- The quotes that end a long string, and up to two before them that belong to it: how many these
are, and the rest. -/
def longEnd? (quote : Char) (cs : List Char) : Option (Nat × List Char) :=
  let run := min 5 (cs.takeWhile (· = quote)).length
  if 3 ≤ run then some (run - 3, cs.drop run) else none

/-- The text behind blanks and line ends, where a backslash that ends a line leads. -/
def skipLines : List Char → List Char
  | '\r' :: '\n' :: rest => skipLines rest
  | c :: rest => if isBlank c || c = '\n' then skipLines rest else c :: rest
  | [] => []

/-- The rest behind a backslash that ends a line. -/
def continued? (cs : List Char) : Option (List Char) :=
  (newline? (skipBlanks cs)).map skipLines

/-- A long basic string behind its opening quotes, read in at most `fuel` steps. -/
def longBasicBody : (fuel : Nat) → Reader (List Char)
  | 0, cs => faultAt .longBasicString cs
  | fuel + 1, cs =>
    match longEnd? '"' cs, newline? cs with
    | some (quotes, rest), _ => .ok (List.replicate quotes '"', rest)
    | none, some rest => prepend ['\n'] (longBasicBody fuel rest)
    | none, none =>
      match cs with
      | '\\' :: rest =>
        match continued? rest with
        | some rest => longBasicBody fuel rest
        | none => do
          let (c, rest) ← escapedChar rest
          prepend [c] (longBasicBody fuel rest)
      | c :: rest =>
        if isPlain c then prepend [c] (longBasicBody fuel rest)
        else faultAt .longBasicString cs
      | [] => faultAt .longBasicString cs

/-- A long literal string behind its opening quotes, read in at most `fuel` steps. -/
def longLiteralBody : (fuel : Nat) → Reader (List Char)
  | 0, cs => faultAt .longLiteralString cs
  | fuel + 1, cs =>
    match longEnd? '\'' cs, newline? cs with
    | some (quotes, rest), _ => .ok (List.replicate quotes '\'', rest)
    | none, some rest => prepend ['\n'] (longLiteralBody fuel rest)
    | none, none =>
      match cs with
      | c :: rest =>
        if isPlain c then prepend [c] (longLiteralBody fuel rest)
        else faultAt .longLiteralString cs
      | [] => faultAt .longLiteralString cs

def basicString (cs : List Char) : Except Fault (List Char × List Char) :=
  basicBody (cs.length + 1) cs

/-- A long string behind its opening quotes; a line end right behind them does not count. -/
def longString (body : Nat → Reader (List Char)) : Reader (List Char) := fun cs =>
  let start := (newline? cs).getD cs
  body (start.length + 1) start

def string : Reader String := fun cs =>
  let chars :=
    match cs with
    | '"' :: '"' :: '"' :: rest => longString longBasicBody rest
    | '"' :: rest => basicString rest
    | '\'' :: '\'' :: '\'' :: rest => longString longLiteralBody rest
    | '\'' :: rest => literalBody rest
    | _ => faultAt .value cs
  chars.map fun (chars, rest) => (String.ofList chars, rest)

/-! ## Writing -/

def upperDigit (n : Nat) : Char := if n < 10 then Char.ofNat (48 + n) else Char.ofNat (55 + n)

def written (long : Bool) (c : Char) : List Char :=
  if c = '\x08' then ['\\', 'b']
  else if c = '\t' then ['\\', 't']
  else if c = '\n' then if long then [c] else ['\\', 'n']
  else if c = '\x0c' then ['\\', 'f']
  else if c = '\r' then ['\\', 'r']
  else if c = '\\' then ['\\', '\\']
  else if c.toNat < 32 || c.toNat = 127 then
    ['\\', 'u', '0', '0', upperDigit (c.toNat / 16), upperDigit (c.toNat % 16)]
  else [c]

/-- The characters of a basic string; of quotes in a row, those beyond `allowed` are escaped, and
`run` have gone before. -/
def writtenAll (long : Bool) (allowed : Nat) : (run : Nat) → List Char → List Char
  | _, [] => []
  | run, c :: rest =>
    if c = '"' then
      if run < allowed then c :: writtenAll long allowed (run + 1) rest
      else '\\' :: c :: writtenAll long allowed 0 rest
    else written long c ++ writtenAll long allowed 0 rest

/-- The length of the longest run of a character; `run` of it have just gone by. -/
def longestRun (mark : Char) : (run : Nat) → List Char → Nat
  | run, [] => run
  | run, c :: rest =>
    if c = mark then longestRun mark (run + 1) rest else max run (longestRun mark 0 rest)

/-- Writes a string in the plainest form that can hold it: basic, literal, long basic or long
literal, all without escapes, else basic with escapes, long if it spans lines. -/
def quoted (s : String) : String :=
  let cs := s.toList
  let controls := cs.any fun c => c ≠ '\t' && c ≠ '\n' && !isPlain c
  let lines := cs.contains '\n'
  let backslash := cs.contains '\\'
  let doubles := longestRun '"' 0 cs
  let singles := longestRun '\'' 0 cs
  let start := if lines then ['\n'] else []
  String.ofList <|
    if !controls && !backslash && doubles = 0 && !lines then
      '"' :: (writtenAll false 0 0 cs ++ ['"'])
    else if !controls && singles = 0 && !lines then '\'' :: (cs ++ ['\''])
    else if !controls && !backslash && doubles ≤ 2 then
      ['"', '"', '"'] ++ start ++ writtenAll true 2 0 cs ++ ['"', '"', '"']
    else if !controls && singles ≤ 2 then
      ['\'', '\'', '\''] ++ start ++ cs ++ ['\'', '\'', '\'']
    else if lines then ['"', '"', '"'] ++ start ++ writtenAll true 2 0 cs ++ ['"', '"', '"']
    else '"' :: (writtenAll false 0 0 cs ++ ['"'])

end TensorGraph.Toml
