import TensorGraph.Toml.Moment

/-!
# TOML numbers

Integers of 64 bits, in base ten with or without a sign or in base sixteen, eight or two, and
numbers with a fraction or an exponent. Single underscores may stand between digits.
-/

namespace TensorGraph.Toml

/-- The digits at the beginning of a text, without the underscores between them. -/
def moreDigits (isDigit : Char → Bool) : List Char → List Char × List Char
  | '_' :: c :: rest =>
    if isDigit c then
      let (digits, rest) := moreDigits isDigit rest
      (c :: digits, rest)
    else ([], '_' :: c :: rest)
  | c :: rest =>
    if isDigit c then
      let (digits, rest) := moreDigits isDigit rest
      (c :: digits, rest)
    else ([], c :: rest)
  | [] => ([], [])

/-- The digits at the beginning of a text; there must be one, and no underscore may follow. -/
def digits (isDigit : Char → Bool) (reason : Reason) : Reader (List Char)
  | c :: rest =>
    if isDigit c then
      match moreDigits isDigit rest with
      | (_, '_' :: rest) => faultAt reason rest
      | (more, rest) => .ok (c :: more, rest)
    else faultAt reason (c :: rest)
  | [] => faultAt reason []

def valueOf (base : Nat) (ds : List Char) : Nat :=
  ds.foldl (fun n c =>
    base * n + (if c.isDigit then c.toNat - 48 else if c.isUpper then c.toNat - 55
      else c.toNat - 87)) 0

/-- An integer of 64 bits whose text begins at `start`. -/
def bounded (n : Int) (start rest : List Char) : Except Fault (Value × List Char) :=
  if 0x8000000000000000 ≤ n then faultAt .integerTooLarge start
  else if n < -0x8000000000000000 then faultAt .integerTooSmall start
  else .ok (.integer n, rest)

/-- The digits before the point: a zero alone, or digits that start with another one. -/
def wholeDigits : Reader (List Char)
  | '0' :: rest => .ok (['0'], rest)
  | cs => digits Char.isDigit .integer cs

def fraction? : Reader (Option (List Char))
  | '.' :: rest => do
    let (ds, rest) ← digits Char.isDigit .float rest
    return (some ds, rest)
  | cs => .ok (none, cs)

def sign : List Char → Bool × List Char
  | '-' :: rest => (true, rest)
  | '+' :: rest => (false, rest)
  | cs => (false, cs)

def signed (negative : Bool) (n : Nat) : Int := if negative then -(n : Int) else n

def exponent? (cs : List Char) : Except Fault (Option Int × List Char) :=
  match cs with
  | c :: rest =>
    if c = 'e' ∨ c = 'E' then do
      let (negative, rest) := sign rest
      let (ds, rest) ← digits Char.isDigit .float rest
      return (some (signed negative (valueOf 10 ds)), rest)
    else .ok (none, cs)
  | [] => .ok (none, [])

/-- Whether `m * 10 ^ e` is too large for a double: at least half a step above the greatest one. -/
def overflows (m : Nat) (e : Int) : Bool :=
  let magnitude := (Nat.toDigits 10 m).length + e
  if m = 0 || magnitude < 300 then false
  else if 310 < magnitude then true
  else
    let limit := (1 <<< 1024) - (1 <<< 970)
    if 0 ≤ e then limit ≤ m * Nat.pow 10 e.toNat else limit * Nat.pow 10 (-e).toNat ≤ m

def based (base : Nat) (isDigit : Char → Bool) (start rest : List Char) :
    Except Fault (Value × List Char) := do
  let (ds, rest) ← digits isDigit .integer rest
  bounded (valueOf base ds) start rest

def isHexDigit (c : Char) : Bool :=
  c.isDigit || ('a' ≤ c && c ≤ 'f') || ('A' ≤ c && c ≤ 'F')

/-- Reads a number in base ten whose text begins at `start`, behind its sign. -/
def decimal (negative : Bool) (start cs : List Char) : Except Fault (Value × List Char) := do
  let (whole, rest) ← wholeDigits cs
  let (places?, rest) ← fraction? rest
  let (power?, rest) ← exponent? rest
  if places?.isNone && power?.isNone then bounded (signed negative (valueOf 10 whole)) start rest
  else
    let places := places?.getD []
    if !negative && overflows (valueOf 10 (whole ++ places)) (power?.getD 0 - places.length) then
      faultAt .float start
    else
      let written := start.take (start.length - rest.length)
      .ok (.float (String.ofList (written.filter (· ≠ '_'))), rest)

def number : Reader Value := fun cs =>
  match moment? cs with
  | some (some rest) => .ok (.moment, rest)
  | some none => faultAt .moment cs
  | none =>
    match cs with
    | '0' :: 'x' :: rest => based 16 isHexDigit cs rest
    | '0' :: 'o' :: rest => based 8 (fun c => '0' ≤ c && c ≤ '7') cs rest
    | '0' :: 'b' :: rest => based 2 (fun c => c = '0' || c = '1') cs rest
    | _ =>
      let (negative, digits) := sign cs
      match digits with
      | 'i' :: 'n' :: 'f' :: rest => .ok (.float (if negative then "-inf" else "inf"), rest)
      | 'n' :: 'a' :: 'n' :: rest => .ok (.float "NaN", rest)
      | _ => decimal negative cs digits

end TensorGraph.Toml
