/-!
# JSON

Values of the JSON data format, and their text with one entry a line.
-/

namespace TensorGraph

/-- A JSON value. Numbers with a fraction are kept as their digits and the number of places. -/
inductive Json where
  | null
  | bool (value : Bool)
  | int (value : Int)
  | decimal (digits : Int) (places : Nat)
  | string (value : String)
  | array (values : List Json)
  | object (fields : List (String × Json))
deriving Inhabited, Repr

namespace Json

def hexDigit (n : Nat) : Char :=
  if n < 10 then Char.ofNat (48 + n) else Char.ofNat (87 + n)

/-- How a character is written inside of quotes: only quotes, backslashes and control characters
are escaped. -/
def escaped (c : Char) : List Char :=
  if c = '"' then ['\\', '"']
  else if c = '\\' then ['\\', '\\']
  else if c = '\n' then ['\\', 'n']
  else if c = '\r' then ['\\', 'r']
  else if c = '\t' then ['\\', 't']
  else if c = '\x08' then ['\\', 'b']
  else if c = '\x0c' then ['\\', 'f']
  else if c.toNat < 32 then
    ['\\', 'u', '0', '0', hexDigit (c.toNat / 16), hexDigit (c.toNat % 16)]
  else [c]

def quoted (s : String) : String := String.ofList ('"' :: (s.toList.flatMap escaped ++ ['"']))

def lineStart (level : Nat) : String := String.ofList ('\n' :: List.replicate (2 * level) ' ')

/-- Entries between brackets, each on a line of its own. -/
def enclose (level : Nat) (opening closing : String) (entries : List String) : String :=
  if entries.isEmpty then opening ++ closing
  else
    opening ++ ",".intercalate (entries.map fun e => lineStart (level + 1) ++ e) ++
      lineStart level ++ closing

def decimalText (digits : Int) (places : Nat) : String :=
  let whole := toString (digits.natAbs / Nat.pow 10 places)
  let fraction := toString (digits.natAbs % Nat.pow 10 places)
  let zeros := String.ofList (List.replicate (places - fraction.length) '0')
  (if digits < 0 then "-" else "") ++ whole ++ "." ++ zeros ++ fraction

mutual

def textAt (level : Nat) : Json → String
  | null => "null"
  | bool true => "true"
  | bool false => "false"
  | int n => toString n
  | decimal digits places => decimalText digits places
  | string s => quoted s
  | array values => enclose level "[" "]" (textsAt (level + 1) values)
  | object fields => enclose level "\x7b" "\x7d" (fieldTextsAt (level + 1) fields)

def textsAt (level : Nat) : List Json → List String
  | [] => []
  | v :: rest => v.textAt level :: textsAt level rest

def fieldTextsAt (level : Nat) : List (String × Json) → List String
  | [] => []
  | (name, v) :: rest => (quoted name ++ ": " ++ v.textAt level) :: fieldTextsAt level rest

end

def text (v : Json) : String := v.textAt 0

def field? (v : Json) (name : String) : Option Json :=
  match v with
  | object fields => fields.lookup name
  | _ => none

def int? : Json → Option Int
  | int n => some n
  | _ => none

def string? : Json → Option String
  | string s => some s
  | _ => none

/-- The word for one of several alternatives: a string, or an object whose only field has that name
and no value. -/
def word? : Json → Option String
  | string s => some s
  | object [(name, null)] => some name
  | _ => none

/-- A whole number in a range, its upper end excluded. -/
def intIn? (low high : Int) (v : Json) : Option Int :=
  v.int?.filter fun n => low ≤ n && n < high

/-- What a field holds, where a missing field and one without a value hold nothing. -/
def optional? {α : Type} (read : Json → Option α) : Option Json → Option (Option α)
  | none => some none
  | some null => some none
  | some v => (read v).map some

end Json

end TensorGraph
