/-!
# Numbers on the wire

A message is a sequence of bytes. Whole numbers are written in groups of seven bits, least
significant group first, each group but the last marked by the top bit; words of fixed width are
written least significant byte first. Every reader returns what it read and the bytes that follow.
-/

namespace TensorGraph

abbrev Bytes := List UInt8

namespace Wire

def writeVarint (n : Nat) : Bytes :=
  if n < 128 then [UInt8.ofNat n]
  else UInt8.ofNat (n % 128 + 128) :: writeVarint (n / 128)
termination_by n

/-- Reads the group at a given position and those after it. Ten groups are the most, and the
tenth may only be zero or one, so the number is below `2 ^ 64`. -/
def readGroups : (position : Nat) → Bytes → Option (Nat × Bytes)
  | _, [] => none
  | position, b :: rest =>
    if b < 128 then
      if position = 9 ∧ 2 ≤ b then none else some (b.toNat, rest)
    else if 9 ≤ position then none
    else (readGroups (position + 1) rest).map fun (high, rest) =>
      (b.toNat % 128 + 128 * high, rest)

def readVarint (bytes : Bytes) : Option (Nat × Bytes) := readGroups 0 bytes

theorem readGroups_shorter {position : Nat} {bytes rest : Bytes} {n : Nat}
    (h : readGroups position bytes = some (n, rest)) : rest.length < bytes.length := by
  induction bytes generalizing position n rest with
  | nil => simp [readGroups] at h
  | cons b tail ih =>
    unfold readGroups at h
    split at h
    · split at h
      · simp at h
      · simp only [Option.some.injEq, Prod.mk.injEq] at h
        simp [← h.2]
    · split at h
      · simp at h
      · obtain ⟨⟨high, rest'⟩, hread, heq⟩ := Option.map_eq_some_iff.1 h
        simp only [Prod.mk.injEq] at heq
        have := ih hread
        simp only [← heq.2, List.length_cons]
        omega

theorem readVarint_shorter {bytes rest : Bytes} {n : Nat}
    (h : readVarint bytes = some (n, rest)) : rest.length < bytes.length :=
  readGroups_shorter h

/-- Writes the `width` low bytes of a number, least significant first. -/
def writeWord : (width : Nat) → Nat → Bytes
  | 0, _ => []
  | width + 1, n => UInt8.ofNat (n % 256) :: writeWord width (n / 256)

/-- The number whose bytes are given, least significant first. -/
def wordOf : Bytes → Nat
  | [] => 0
  | b :: rest => b.toNat + 256 * wordOf rest

def readChunk (n : Nat) (bytes : Bytes) : Option (Bytes × Bytes) :=
  if n ≤ bytes.length then some (bytes.take n, bytes.drop n) else none

theorem readChunk_shorter {n : Nat} {bytes chunk rest : Bytes}
    (h : readChunk n bytes = some (chunk, rest)) : rest.length ≤ bytes.length := by
  unfold readChunk at h
  split at h
  · simp only [Option.some.injEq, Prod.mk.injEq] at h
    simp [← h.2]
  · simp at h

/-- Splits a byte sequence into consecutive chunks of `width` bytes and leaves out a short rest. -/
def chunksExact (width : Nat) (bytes : Bytes) : List Bytes :=
  if _h : 0 < width ∧ width ≤ bytes.length then
    bytes.take width :: chunksExact width (bytes.drop width)
  else []
termination_by bytes.length
decreasing_by simp only [List.length_drop]; omega

end Wire

end TensorGraph
