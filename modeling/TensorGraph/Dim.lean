/-!
# Dimensions

One extent of a tensor, which may be a number, a name that stands for one number, or unknown.
Two descriptions of the same extent are merged, two aligned extents are broadcast.
-/

namespace TensorGraph

/-- One extent of a tensor. -/
inductive Dim where
  | known (extent : Nat)
  /-- The extent is the number that this name stands for. -/
  | param (name : String)
  | unknown
deriving DecidableEq, Repr, Inhabited

namespace Dim

/-- The number, if the extent is one. -/
def extent? : Dim → Option Nat
  | known n => some n
  | _ => none

def isKnown (d : Dim) : Bool := d.extent?.isSome

/-- Whether the extent is exactly `n`; a name or an unknown extent equals no number. -/
def is (d : Dim) (n : Nat) : Bool := d.extent? == some n

/-- Combines two descriptions of one extent, numbers before names before nothing, the left name
before the right one. Two different numbers cannot be combined. -/
def merge : Dim → Dim → Option Dim
  | known a, known b => if a = b then some (known a) else none
  | known a, _ => some (known a)
  | _, known b => some (known b)
  | param p, _ => some (param p)
  | unknown, d => some d

/-- Broadcasts two aligned extents: a one stretches to the other side, any other number pins it,
and two extents without a number agree only if they carry the same name. -/
def broadcast : Dim → Dim → Option Dim
  | known a, known b =>
    if a = b ∨ b = 1 then some (known a) else if a = 1 then some (known b) else none
  | known a, d => if a = 1 then some d else some (known a)
  | d, known b => if b = 1 then some d else some (known b)
  | param p, param q => if p = q then some (param p) else some unknown
  | _, _ => some unknown

def text : Dim → String
  | known n => toString n
  | param p => p
  | unknown => "?"

end Dim

end TensorGraph
