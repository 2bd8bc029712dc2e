/-!
# TOML values and faults

The values of a TOML document, and what can be wrong with its text. A fault is located by how much
text is left where it shows.
-/

namespace TensorGraph.Toml

structure Located (α : Type) where
  value : α
  /-- How many characters are left where the text begins. -/
  left : Nat
  size : Nat
deriving Repr, Inhabited

inductive Origin where
  /-- It has a header of its own. -/
  | header
  /-- It is named on the way to the table of a header. -/
  | implied
  /-- It is named on the way of a dotted key. -/
  | dotted
  /-- It is written as a value. -/
  | inline
deriving DecidableEq, Repr

inductive Value where
  | text (value : String)
  | integer (value : Int)
  | float (written : String)
  | boolean (value : Bool)
  | moment
  | array (items : List Value)
  | table (origin : Origin) (entries : List (String × Located Value))
  /-- The tables of one header in double brackets, in order. -/
  | tables (each : List (List (String × Located Value)))
deriving Repr, Inhabited

/-- The values of a table under their keys, in order. -/
abbrev Entries := List (String × Located Value)

inductive Reason where
  | key
  /-- A key is not followed by an equals sign. -/
  | separator
  | value
  /-- A line goes on where it should end. -/
  | lineEnd
  /-- The header of a table is not closed. -/
  | header
  | arrayHeader
  | array
  | inlineTable
  | basicString
  | longBasicString
  | literalString
  | longLiteralString
  | escape
  /-- The code of a character is not written with so many digits. -/
  | code (digits : Nat)
  | integer
  | integerTooLarge
  | integerTooSmall
  | float
  | moment
  | nesting
  /-- A key is given twice; where is known if a table cannot take it. -/
  | duplicate (key : String) (table? : Option (List String))
  | notTable (path : List String) (found : String)
  | wrongType (found expected : String)
  | wrongValue (found expected : String)
  | unexpected
deriving DecidableEq, Repr

def Reason.message : Reason → String
  | key => "invalid key"
  | separator => "expected `.`, `=`"
  | value => "invalid string\nexpected `\"`, `'`"
  | lineEnd => "expected newline, `#`"
  | header => "invalid table header\nexpected `.`, `]`"
  | arrayHeader => "invalid table header\nexpected `.`, `]]`"
  | array => "invalid array\nexpected `]`"
  | inlineTable => "invalid inline table\nexpected `\x7d`"
  | basicString => "invalid basic string"
  | longBasicString => "invalid multiline basic string"
  | literalString => "invalid literal string"
  | longLiteralString => "invalid multiline literal string"
  | escape =>
    "invalid escape sequence\nexpected `b`, `f`, `n`, `r`, `t`, `u`, `U`, `\\`, `\"`"
  | code digits => s!"invalid unicode {digits}-digit hex code"
  | integer => "invalid integer\nexpected digit"
  | integerTooLarge => "invalid integer\nnumber too large to fit in target type"
  | integerTooSmall => "invalid integer\nnumber too small to fit in target type"
  | float => "invalid floating-point number"
  | moment => "invalid date-time"
  | nesting => "recursion limit exceeded"
  | duplicate name none => s!"duplicate key `{name}`"
  | duplicate name (some []) => s!"duplicate key `{name}` in document root"
  | duplicate name (some path) =>
    s!"duplicate key `{name}` in table `" ++ ".".intercalate path ++ "`"
  | notTable path found =>
    "dotted key `" ++ ".".intercalate path ++
      s!"` attempted to extend non-table type ({found})"
  | wrongType found expected => s!"invalid type: {found}, expected {expected}"
  | wrongValue found expected => s!"invalid value: {found}, expected {expected}"
  | unexpected => ""

structure Fault where
  reason : Reason
  /-- How many characters are left where the fault shows. -/
  left : Nat
  size : Nat := 1
deriving DecidableEq, Repr

/-- Reads a value from the beginning of a text and gives the rest. -/
abbrev Reader (α : Type) := List Char → Except Fault (α × List Char)

def faultAt {α : Type} (reason : Reason) (cs : List Char) : Except Fault α :=
  .error { reason, left := cs.length }

/-- Keeps the place of what is read. -/
def locate {α : Type} (read : Reader α) : Reader (Located α) := fun cs => do
  let (value, rest) ← read cs
  let size := (String.ofList (cs.take (cs.length - rest.length))).utf8ByteSize
  return (⟨value, cs.length, size⟩, rest)

namespace Fault

/-- The line of a place, counted from zero, and the number of characters before it in that line.
The end of a text counts to the line of the last character. -/
def position (f : Fault) (cs : List Char) : Nat × Nat :=
  let front := cs.take (cs.length - f.left)
  let front := if f.left = 0 then front.dropLast else front
  let column := (front.reverse.takeWhile fun c => c != '\n').length
  (front.count '\n', if f.left = 0 && !cs.isEmpty then column + 1 else column)

/-- Shows a fault in the line where it is. -/
def message (f : Fault) (text : String) : String :=
  let cs := text.toList
  let (line, column) := f.position cs
  let number := toString (line + 1)
  let margin := String.ofList (List.replicate (number.length + 1) ' ')
  let content := ((text.splitOn "\n")[line]?).getD ""
  let marks := max 1 (min f.size content.utf8ByteSize)
  s!"TOML parse error at line {number}, column {column + 1}\n" ++
    margin ++ "|\n" ++ number ++ " | " ++ content ++ "\n" ++
    margin ++ "|" ++ String.ofList (List.replicate (column + 1) ' ') ++
    String.ofList (List.replicate marks '^') ++ "\n" ++ f.reason.message ++ "\n"

end Fault

end TensorGraph.Toml
