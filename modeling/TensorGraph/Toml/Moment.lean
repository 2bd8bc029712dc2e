import TensorGraph.Toml.Value

/-!
# TOML dates and times

A date, a time of day, or a date and a time with or without an offset. They are checked; what they
say is not kept.
-/

namespace TensorGraph.Toml

def fixedNumber? (digits : Nat) (cs : List Char) : Option (Nat × List Char) :=
  let front := cs.take digits
  if front.length = digits ∧ front.all Char.isDigit then
    some (front.foldl (fun n c => 10 * n + (c.toNat - 48)) 0, cs.drop digits)
  else none

def pair? (least greatest : Nat) (cs : List Char) : Option (Nat × List Char) :=
  (fixedNumber? 2 cs).filter fun (n, _) => least ≤ n && n ≤ greatest

def pass? (mark : Char) : List Char → Option (List Char)
  | c :: rest => if c = mark then some rest else none
  | [] => none

def daysIn (year month : Nat) : Nat :=
  if month = 2 then if year % 4 = 0 ∧ (year % 100 ≠ 0 ∨ year % 400 = 0) then 29 else 28
  else if month = 4 ∨ month = 6 ∨ month = 9 ∨ month = 11 then 30
  else 31

def monthAndDay? (year : Nat) (cs : List Char) : Option (List Char) := do
  let (month, cs) ← pair? 1 12 cs
  let (_, cs) ← pair? 1 (daysIn year month) (← pass? '-' cs)
  return cs

def skipFraction : List Char → List Char
  | '.' :: c :: rest => if c.isDigit then rest.dropWhile Char.isDigit else '.' :: c :: rest
  | cs => cs

def minuteAndSecond? (cs : List Char) : Option (List Char) := do
  let (_, cs) ← pair? 0 59 cs
  let (_, cs) ← pair? 0 60 (← pass? ':' cs)
  return skipFraction cs

def hour? (cs : List Char) : Option (List Char) := do
  let (_, cs) ← pair? 0 23 cs
  pass? ':' cs

def year? (cs : List Char) : Option (Nat × List Char) := do
  let (year, cs) ← fixedNumber? 4 cs
  return (year, ← pass? '-' cs)

def offset? : List Char → Option (List Char)
  | c :: rest =>
    if c = 'Z' ∨ c = 'z' then some rest
    else if c = '+' ∨ c = '-' then do
      let (_, rest) ← pair? 0 59 (← hour? rest)
      return rest
    else some (c :: rest)
  | [] => some []

def timeOfDate? (cs : List Char) : Option (List Char) :=
  match cs with
  | c :: rest =>
    match if c = 'T' ∨ c = 't' ∨ c = ' ' then hour? rest else none with
    | some rest => do offset? (← minuteAndSecond? rest)
    | none => some cs
  | [] => some []

/-- Reads a date or a time where a text begins like one: the rest, or nothing if it goes on
wrongly. -/
def moment? (cs : List Char) : Option (Option (List Char)) :=
  match year? cs with
  | some (year, rest) => some ((monthAndDay? year rest).bind timeOfDate?)
  | none => (hour? cs).map minuteAndSecond?

end TensorGraph.Toml
