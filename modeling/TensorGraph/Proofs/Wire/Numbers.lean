import Mathlib.Algebra.Group.Nat.Defs
import Mathlib.Tactic.Lemma
import TensorGraph.Text.Lossy
import TensorGraph.Wire.Decode
import TensorGraph.Wire.Encode

/-!
# Numbers and texts survive

Every reader gets back what the writer has put in front of the remaining bytes: numbers below
`2 ^ 64`, words of fixed width, counted bytes, keys, and texts.
-/

namespace TensorGraph

namespace Wire

lemma readGroups_writeVarint {n position : Nat} (hposition : position ≤ 9)
    (hn : n < 2 ^ (64 - 7 * position)) (rest : Bytes) :
    readGroups position (writeVarint n ++ rest) = some (n, rest) := by
  fun_induction writeVarint n generalizing position with
  | case1 n hlow =>
    have hbyte : (UInt8.ofNat n).toNat = n := by
      rw [UInt8.toNat_ofNat']
      omega
    have hsmall : UInt8.ofNat n < 128 := by
      rw [UInt8.lt_iff_toNat_lt, hbyte]
      exact hlow
    have hlast : ¬(position = 9 ∧ 2 ≤ UInt8.ofNat n) := by
      rintro ⟨rfl, htwo⟩
      rw [UInt8.le_iff_toNat_le, hbyte] at htwo
      exact absurd htwo (Nat.not_le.mpr hn)
    simp only [List.cons_append, List.nil_append, readGroups, if_pos hsmall, if_neg hlast, hbyte]
  | case2 n hlow ih =>
    have hbyte : (UInt8.ofNat (n % 128 + 128)).toNat = n % 128 + 128 := by
      rw [UInt8.toNat_ofNat']
      omega
    have hlarge : ¬UInt8.ofNat (n % 128 + 128) < 128 := by
      rw [UInt8.lt_iff_toNat_lt, hbyte]
      exact Nat.not_lt.mpr (Nat.le_add_left 128 _)
    have hnext : ¬9 ≤ position := by
      intro hle
      obtain rfl : position = 9 := by omega
      omega
    have hhigh : n / 128 < 2 ^ (64 - 7 * (position + 1)) := by
      have hsplit : 64 - 7 * position = 64 - 7 * (position + 1) + 7 := by omega
      rw [Nat.div_lt_iff_lt_mul (by omega)]
      rwa [hsplit, Nat.pow_add] at hn
    simp only [List.cons_append, readGroups, if_neg hlarge, if_neg hnext, hbyte,
      ih (by omega) hhigh, Option.map_some]
    rw [Nat.add_mod_right, Nat.mod_mod, Nat.mod_add_div]

lemma readVarint_writeVarint {n : Nat} (hn : n < 2 ^ 64) (rest : Bytes) :
    readVarint (writeVarint n ++ rest) = some (n, rest) :=
  readGroups_writeVarint (Nat.zero_le 9) hn rest

@[simp] lemma length_writeWord (width n : Nat) : (writeWord width n).length = width := by
  induction width generalizing n with
  | zero => rfl
  | succ width ih => simp [writeWord, ih]

lemma wordOf_writeWord {width n : Nat} (hn : n < 256 ^ width) : wordOf (writeWord width n) = n := by
  induction width generalizing n with
  | zero =>
    simp only [Nat.pow_zero] at hn
    simp [writeWord, wordOf]
    omega
  | succ width ih =>
    have hhigh : n / 256 < 256 ^ width := by
      rw [Nat.div_lt_iff_lt_mul (by omega)]
      rwa [Nat.pow_succ] at hn
    simp only [writeWord, wordOf, ih hhigh, UInt8.toNat_ofNat']
    omega

lemma readChunk_append (chunk rest : Bytes) :
    readChunk chunk.length (chunk ++ rest) = some (chunk, rest) := by
  simp [readChunk]

lemma readKey_writeKey {number : Nat} (w : WireType) (hpos : 1 ≤ number) (hlt : number < 2 ^ 29)
    (rest : Bytes) : readKey (writeKey number w ++ rest) = some ((number, w), rest) := by
  have hcode : w.code < 8 := by cases w <;> decide
  have hmod : (number * 8 + w.code) % 8 = w.code := by omega
  have hdiv : (number * 8 + w.code) / 8 = number := by omega
  have hbounds : 8 ≤ number * 8 + w.code ∧ number * 8 + w.code < 0x100000000 := by omega
  unfold readKey writeKey
  rw [readVarint_writeVarint (by omega)]
  simp only [if_pos hbounds, hmod, hdiv, WireType.ofCode?_code, Option.map_some]

end Wire

namespace Text

lemma toList_loop (b : ByteArray) (i : Nat) (r : List UInt8) :
    ByteArray.toList.loop b i r = r.reverse ++ b.data.toList.drop i := by
  fun_induction ByteArray.toList.loop b i r with
  | case1 i r hlt ih =>
    have hbound : i < b.data.toList.length := hlt
    have hget : b.get! i = b.data.toList[i] := getElem!_pos b.data i hlt
    rw [ih, List.reverse_cons, List.append_assoc, hget, List.singleton_append,
      ← List.drop_eq_getElem_cons]
  | case2 i r hge =>
    have hlength : b.data.toList.length ≤ i := Nat.not_lt.mp hge
    rw [List.drop_eq_nil_of_le hlength, List.append_nil]

lemma fromUTF8?_toByteArray_toBytes (s : String) :
    String.fromUTF8? (toBytes s).toByteArray = some s := by
  have hbytes : (toBytes s).toByteArray = s.toByteArray := by
    unfold toBytes
    rw [String.toUTF8_eq_toByteArray, ByteArray.toList, toList_loop]
    ext1
    simp
  rw [hbytes, String.fromUTF8?, dif_pos s.isValidUTF8]
  rfl

lemma ofBytes_toBytes (s : String) : ofBytes (toBytes s) = s := by
  unfold ofBytes
  rw [fromUTF8?_toByteArray_toBytes]

end Text

end TensorGraph
