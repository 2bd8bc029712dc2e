import TensorGraph.Wire.Varint
import TensorGraph.Wire.Schema

/-!
# Keys

Every field value is preceded by a key, a number that joins the number of the field with the way
in which the value is written. The way of writing alone says where the value ends, so that a reader
can pass over fields that it does not know.
-/

namespace TensorGraph.Wire

/-- How the bytes of a value are laid out. -/
inductive WireType where
  | varint | fixed64 | chunk | groupStart | groupEnd | fixed32
deriving DecidableEq, Repr

def WireType.code : WireType → Nat
  | varint => 0 | fixed64 => 1 | chunk => 2 | groupStart => 3 | groupEnd => 4 | fixed32 => 5

/-- The way of writing that three bits stand for; two of the eight values are not in use. -/
def WireType.ofCode? : Nat → Option WireType
  | 0 => some varint | 1 => some fixed64 | 2 => some chunk | 3 => some groupStart
  | 4 => some groupEnd | 5 => some fixed32 | _ => none

theorem WireType.ofCode?_code (w : WireType) : ofCode? w.code = some w := by cases w <;> rfl

def Scalar.wireType : Scalar → WireType
  | .int32 | .int64 | .uint64 => .varint
  | .float => .fixed32
  | .double => .fixed64
  | .text | .bytes => .chunk

def FieldType.wireType : FieldType → WireType
  | .scalar s => s.wireType
  | .message _ => .chunk

def writeKey (number : Nat) (w : WireType) : Bytes := writeVarint (number * 8 + w.code)

/-- Writes bytes behind their number. -/
def writeChunk (b : Bytes) : Bytes := writeVarint b.length ++ b

/-- Reads a key: a number of 32 bits whose field number is not zero. -/
def readKey (bytes : Bytes) : Option ((Nat × WireType) × Bytes) :=
  match readVarint bytes with
  | some (n, rest) =>
    if 8 ≤ n ∧ n < 0x100000000 then (WireType.ofCode? (n % 8)).map fun w => ((n / 8, w), rest)
    else none
  | none => none

theorem readKey_shorter {bytes rest : Bytes} {key : Nat × WireType}
    (h : readKey bytes = some (key, rest)) : rest.length < bytes.length := by
  unfold readKey at h
  split at h
  · rename_i n tail hread
    split at h
    · obtain ⟨w, _, heq⟩ := Option.map_eq_some_iff.1 h
      simp only [Prod.mk.injEq] at heq
      rw [← heq.2]
      exact readVarint_shorter hread
    · simp at h
  · simp at h

/-- A field value as written, before its field is looked up. -/
inductive RawValue where
  | varint (n : Nat)
  | fixed32 (n : Nat)
  | fixed64 (n : Nat)
  | chunk (b : Bytes)
deriving DecidableEq, Repr

def readRaw : WireType → Bytes → Option (RawValue × Bytes)
  | .varint, bytes => (readVarint bytes).map fun (n, rest) => (.varint n, rest)
  | .fixed32, bytes => (readChunk 4 bytes).map fun (b, rest) => (.fixed32 (wordOf b), rest)
  | .fixed64, bytes => (readChunk 8 bytes).map fun (b, rest) => (.fixed64 (wordOf b), rest)
  | .chunk, bytes => (readVarint bytes).bind fun (n, rest) =>
      (readChunk n rest).map fun (b, rest) => (.chunk b, rest)
  | .groupStart, _ => none
  | .groupEnd, _ => none

theorem readRaw_shorter {w : WireType} {bytes rest : Bytes} {v : RawValue}
    (h : readRaw w bytes = some (v, rest)) : rest.length ≤ bytes.length := by
  cases w with
  | varint =>
    obtain ⟨⟨n, tail⟩, hread, heq⟩ := Option.map_eq_some_iff.1 h
    simp only [Prod.mk.injEq] at heq
    rw [← heq.2]
    exact Nat.le_of_lt (readVarint_shorter hread)
  | fixed32 =>
    obtain ⟨⟨b, tail⟩, hread, heq⟩ := Option.map_eq_some_iff.1 h
    simp only [Prod.mk.injEq] at heq
    rw [← heq.2]
    exact readChunk_shorter hread
  | fixed64 =>
    obtain ⟨⟨b, tail⟩, hread, heq⟩ := Option.map_eq_some_iff.1 h
    simp only [Prod.mk.injEq] at heq
    rw [← heq.2]
    exact readChunk_shorter hread
  | chunk =>
    obtain ⟨⟨n, middle⟩, hlength, hrest⟩ := Option.bind_eq_some_iff.1 h
    obtain ⟨⟨b, tail⟩, hread, heq⟩ := Option.map_eq_some_iff.1 hrest
    simp only [Prod.mk.injEq] at heq
    rw [← heq.2]
    exact Nat.le_trans (readChunk_shorter hread) (Nat.le_of_lt (readVarint_shorter hlength))
  | groupStart => simp [readRaw] at h
  | groupEnd => simp [readRaw] at h

/-- Passes over the rest of the innermost of some open groups, and of the groups around it. Every
group ends with its own field number; inside of `limit` open groups nothing but ends may follow. -/
def skipGroups (limit : Nat) (opened : List Nat) (bytes : Bytes) : Option Bytes :=
  match opened with
  | [] => some bytes
  | innermost :: outer =>
    match h : readKey bytes with
    | none => none
    | some ((number, .groupEnd), rest) =>
      have := readKey_shorter h
      if number = innermost then skipGroups limit outer rest else none
    | some ((number, .groupStart), rest) =>
      have := readKey_shorter h
      if outer.length + 1 < limit then skipGroups limit (number :: innermost :: outer) rest
      else none
    | some ((_, w), rest) =>
      have := readKey_shorter h
      if outer.length + 1 < limit then
        match hraw : readRaw w rest with
        | none => none
        | some (_, rest) =>
          have := readRaw_shorter hraw
          skipGroups limit (innermost :: outer) rest
      else none
termination_by bytes.length

theorem skipGroups_shorter {limit : Nat} {opened : List Nat} {bytes rest : Bytes}
    (h : skipGroups limit opened bytes = some rest) : rest.length ≤ bytes.length := by
  fun_induction skipGroups limit opened bytes with
  | case1 bytes =>
    simp only [Option.some.injEq] at h
    simp [h]
  | case3 bytes outer number rest' hkey hlt ih => exact Nat.le_trans (ih h) (Nat.le_of_lt hlt)
  | case5 bytes innermost outer number rest' hkey hlt hdepth ih =>
    exact Nat.le_trans (ih h) (Nat.le_of_lt hlt)
  | case8 bytes innermost outer number w rest' hkey _ _ hlt hdepth v rest'' hraw hle ih =>
    exact Nat.le_trans (ih h) (Nat.le_trans hle (Nat.le_of_lt hlt))
  | _ => simp_all

end TensorGraph.Wire
