import TensorGraph.Wire.Varint

/-!
# Reading damaged text

Text is stored as UTF-8. Bytes that are no UTF-8 are still read: every longest beginning of a
character that is not continued as it should be becomes one replacement character.
-/

namespace TensorGraph.Text

def replacement : Char := '\uFFFD'

/-- A character of which some bytes are still to come: how many, the range of the next one, and the
bits read so far. -/
structure Pending where
  missing : Nat
  low : UInt8
  high : UInt8
  bits : Nat
deriving DecidableEq, Repr

/-- What a byte means at the start of a character: a character of its own, the start of a longer
one, or nothing. -/
def start (b : UInt8) : List Char × Option Pending :=
  if b < 0x80 then ([Char.ofNat b.toNat], none)
  else if b < 0xC2 then ([replacement], none)
  else if b < 0xE0 then ([], some ⟨1, 0x80, 0xBF, b.toNat % 32⟩)
  else if b < 0xF0 then
    ([], some ⟨2, if b = 0xE0 then 0xA0 else 0x80, if b = 0xED then 0x9F else 0xBF, b.toNat % 16⟩)
  else if b < 0xF5 then
    ([], some ⟨3, if b = 0xF0 then 0x90 else 0x80, if b = 0xF4 then 0x8F else 0xBF, b.toNat % 8⟩)
  else ([replacement], none)

/-- The characters that bytes stand for, behind the start of a character. -/
def repair : Option Pending → Bytes → List Char
  | none, [] => []
  | some _, [] => [replacement]
  | none, b :: rest =>
    let (chars, pending) := start b
    chars ++ repair pending rest
  | some p, b :: rest =>
    if p.low ≤ b ∧ b ≤ p.high then
      let bits := p.bits * 64 + b.toNat % 64
      if p.missing ≤ 1 then Char.ofNat bits :: repair none rest
      else repair (some ⟨p.missing - 1, 0x80, 0xBF, bits⟩) rest
    else
      let (chars, pending) := start b
      replacement :: (chars ++ repair pending rest)

def ofBytes (b : Bytes) : String :=
  match String.fromUTF8? b.toByteArray with
  | some s => s
  | none => String.ofList (repair none b)

def toBytes (s : String) : Bytes := s.toUTF8.toList

end TensorGraph.Text
