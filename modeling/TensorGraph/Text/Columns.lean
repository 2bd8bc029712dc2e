/-!
# Columns of text

Text is filled with blanks up to a width, counted in characters.
-/

namespace TensorGraph.Text

def fill (width : Nat) (s : String) : String :=
  String.ofList (List.replicate (width - s.length) ' ')

def left (width : Nat) (s : String) : String := s ++ fill width s

def right (width : Nat) (s : String) : String := fill width s ++ s

def dashes (width : Nat) : String := String.ofList (List.replicate width '-')

def digits? (cs : List Char) : Option Nat :=
  if cs.isEmpty then none
  else cs.foldlM (fun n c => if c.isDigit then some (10 * n + (c.toNat - 48)) else none) 0

def integer? (s : String) : Option Int :=
  match s.toList with
  | '-' :: cs => (digits? cs).map fun n => -(n : Int)
  | '+' :: cs => (digits? cs).map fun n => (n : Int)
  | cs => (digits? cs).map fun n => (n : Int)

end TensorGraph.Text
