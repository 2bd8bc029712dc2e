/-!
# Pieces of text

Text is cut at a character: everywhere or at its last place.
-/

namespace TensorGraph.Text

/-- The pieces of a text between the places where a character stands. -/
def pieces (mark : Char) : List Char → List (List Char)
  | [] => [[]]
  | c :: cs =>
    if c = mark then [] :: pieces mark cs
    else
      match pieces mark cs with
      | [] => [[c]]
      | piece :: rest => (c :: piece) :: rest

/-- What stands before and behind the last place of a character. -/
def aroundLast? (mark : Char) : List Char → Option (List Char × List Char)
  | [] => none
  | c :: cs =>
    match aroundLast? mark cs with
    | some (front, back) => some (c :: front, back)
    | none => if c = mark then some ([], cs) else none

def split (mark : Char) (s : String) : List String := (pieces mark s.toList).map String.ofList

end TensorGraph.Text
