/-!
# Floating-point words

Floating-point numbers are kept as the words that files store. This module reads a word as a
number `± m · 2 ^ e`, rounds such a number to a format, to nearest with ties to even, and compares
words as the numbers they stand for.
-/

namespace TensorGraph

/-- What a floating-point word stands for. -/
inductive Binary where
  | nan
  | infinite (negative : Bool)
  /-- The number `mantissa * 2 ^ exponent`, or its negative. -/
  | finite (negative : Bool) (mantissa : Nat) (exponent : Int)
deriving DecidableEq, Repr

namespace Binary

/-- A floating-point format: the bits of a mantissa, and the least and the greatest exponent of
its last bit. -/
structure Format where
  precision : Nat
  least : Int
  greatest : Int
deriving DecidableEq, Repr

def single : Format := ⟨24, -149, 104⟩

def double : Format := ⟨53, -1074, 971⟩

namespace Format

/-- The number of exponents a word of the format distinguishes. -/
def exponents (f : Format) : Nat := (f.greatest - f.least).toNat + 3

/-- Reads a word: sign, exponent field and fraction field from the top. -/
def read (f : Format) (word : Nat) : Binary :=
  let unit := 1 <<< (f.precision - 1)
  let fraction := word % unit
  let field := word / unit % f.exponents
  let negative := decide (f.exponents ≤ word / unit)
  if field + 1 = f.exponents then
    if fraction = 0 then .infinite negative else .nan
  else if field = 0 then .finite negative fraction f.least
  else .finite negative (fraction + unit) (f.least + field - 1)

/-- Rounds `m / 2 ^ shift` to the nearest whole number, a tie to the even one. -/
def roundShift (m shift : Nat) : Nat :=
  let unit := 1 <<< shift
  let quotient := m / unit
  let twice := 2 * (m % unit)
  if unit < twice ∨ (twice = unit ∧ quotient % 2 = 1) then quotient + 1 else quotient

/-- The word nearest to a number. -/
def write (f : Format) : Binary → Nat
  | .nan => (f.exponents - 1) <<< (f.precision - 1) + 1 <<< (f.precision - 2)
  | .infinite negative =>
    (if negative then f.exponents else 0) <<< (f.precision - 1) +
      (f.exponents - 1) <<< (f.precision - 1)
  | .finite negative 0 _ => (if negative then f.exponents else 0) <<< (f.precision - 1)
  | .finite negative m e =>
    let unit := 1 <<< (f.precision - 1)
    let scale := max (e + m.log2 + 1 - f.precision) f.least
    let rounded := if scale ≤ e then m <<< (e - scale).toNat else roundShift m (scale - e).toNat
    let magnitude := min ((scale - f.least).toNat * unit + rounded) ((f.exponents - 1) * unit)
    (if negative then f.exponents else 0) * unit + magnitude

end Format

/-- The word of 32 bits nearest to the number that a word of 64 bits stands for. -/
def narrow (word : UInt64) : UInt32 :=
  UInt32.ofNat (single.write (double.read word.toNat))

/-- The product of two numbers, not rounded. -/
def mul : Binary → Binary → Binary
  | .finite s m e, .finite t n f => .finite (s != t) (m * n) (e + f)
  | .infinite s, .infinite t => .infinite (s != t)
  | .infinite s, .finite t m _ => if m = 0 then .nan else .infinite (s != t)
  | .finite s m _, .infinite t => if m = 0 then .nan else .infinite (s != t)
  | _, _ => .nan

/-- The greatest whole number that is not above a number, kept inside of an unsigned range; zero
for what is no number. -/
def floorBelow (limit : Nat) : Binary → Nat
  | .nan => 0
  | .infinite negative => if negative then 0 else limit - 1
  | .finite true _ _ => 0
  | .finite false m e => min (if 0 ≤ e then m <<< e.toNat else m >>> (-e).toNat) (limit - 1)

def Format.round (f : Format) (b : Binary) : Binary := f.read (f.write b)

/-- Whether two words of a format stand for equal numbers: the two zeros do, and a word that is not
a number equals nothing. -/
def Format.agree (f : Format) (a b : Nat) : Bool :=
  match f.read a, f.read b with
  | .nan, _ => false
  | _, .nan => false
  | .finite _ 0 _, .finite _ 0 _ => true
  | x, y => x == y

def agree32 (a b : UInt32) : Bool := single.agree a.toNat b.toNat

def agree64 (a b : UInt64) : Bool := double.agree a.toNat b.toNat

def isZero32 (w : UInt32) : Bool := w == 0 || w == 0x80000000

end Binary

end TensorGraph
