import TensorGraph.Proofs.Storage.Constants

/-!
# Whole numbers of stored constants

A constant that is written and read again stands for the same whole numbers, unless it leaves no
trace: of a list without elements, no field of the file tells that it was there.
-/

namespace TensorGraph

open Wire Wire.Message

namespace Payload

/-- Whether elements are in no field of a file. -/
def isTraceless : Payload → Bool
  | raw b => b.isEmpty
  | floats ws => ws.isEmpty
  | int32s vs => vs.isEmpty
  | int64s vs => vs.isEmpty
  | doubles ws => ws.isEmpty
  | uint64s ws => ws.isEmpty
  | strings vs => vs.isEmpty
  | external _ => false
  | empty => true

/-- The elements as a file gives them back. -/
def reread (p : Payload) : Payload := if p.isTraceless then empty else p

lemma storable_of_not_isTraceless {p : Payload} (hp : p.isTraceless = false) : p.Storable := by
  cases p with
  | external entries => trivial
  | empty => trivial
  | _ => exact List.isEmpty_eq_false_iff.mp hp

lemma storable_reread (p : Payload) : p.reread.Storable := by
  unfold reread
  split_ifs with hp
  · trivial
  · exact storable_of_not_isTraceless (Bool.not_eq_true _ ▸ hp)

end Payload

namespace Tensor

/-- A constant of a known element type as a file gives it back. -/
def reread (t : Tensor) : Tensor := { t with payload := t.payload.reread, otherCode? := none }

lemma elem?_isSome_of_ints? {t : Tensor} {vs : List Int64} (h : t.ints? = some vs) :
    t.elem?.isSome = true := by
  unfold ints? at h
  cases helem : t.elem? with
  | none => simp [helem] at h
  | some elem => rfl

lemma toMessage_empty {t : Tensor} (ht : t.payload.isTraceless = true) :
    { t with payload := .empty }.toMessage = t.toMessage := by
  obtain ⟨name, elem?, extents, payload, doc, otherCode?⟩ := t
  cases payload with
  | external entries => cases ht
  | empty => rfl
  | _ =>
    obtain rfl := List.isEmpty_iff.mp ht
    rfl

lemma toMessage_reread {t : Tensor} (ht : t.elem?.isSome = true) :
    t.reread.toMessage = t.toMessage := by
  obtain ⟨elem, helem⟩ := Option.isSome_iff_exists.mp ht
  have hcode : { t with otherCode? := none }.toMessage = t.toMessage := by
    simp only [toMessage, helem]
  rw [← hcode, reread, Payload.reread]
  split_ifs with hp
  · exact toMessage_empty (t := { t with otherCode? := none }) hp
  · rfl

lemma ints?_reread (t : Tensor) :
    t.reread.ints? = if t.payload.isTraceless then none else t.ints? := by
  rw [reread, Payload.reread]
  split_ifs
  · cases t.elem? <;> rfl
  · rfl

lemma storable_reread {t : Tensor} (ht : ∀ n ∈ t.extents, n < 2 ^ 63) : t.reread.Storable :=
  ⟨ht, t.payload.storable_reread, nofun⟩

/-- A constant that stands for whole numbers is read back from its bytes, and it still stands for
these numbers exactly if it was stored with a field in use. No sequence of bytes in memory has
`2 ^ 64` bytes or more. -/
theorem ints?_of_decode_encode {t : Tensor} {vs : List Int64}
    (hextents : ∀ n ∈ t.extents, n < 2 ^ 63) (hints : t.ints? = some vs)
    (hlength : (t.toMessage.encode .tensor).length < 2 ^ 64) :
    ∃ m u, Message.decode? .tensor (t.toMessage.encode .tensor) = some m ∧
      Tensor.ofMessage m = .ok u ∧
      u.ints? = if t.payload.isTraceless then none else some vs := by
  have hmessage := toMessage_reread (elem?_isSome_of_ints? hints)
  refine ⟨t.reread.toMessage, t.reread, ?_, ofMessage_toMessage (storable_reread hextents), ?_⟩
  · rw [← hmessage] at hlength ⊢
    exact Kind.decodeNested?_encode (t.reread.conforms_toMessage _) hlength
  · rw [ints?_reread, hints]

/-- Numbers of 32 bits, with one byte left over. -/
def ragged : Tensor where
  name := "sizes"
  elem? := some .int32
  extents := [2]
  payload := .raw [1, 0, 0, 0, 0xFF, 0xFF, 0xFF, 0xFF, 7]

theorem ints?_of_decode_encode_ragged :
    (∀ n ∈ ragged.extents, n < 2 ^ 63) ∧ ragged.ints? = some [1, -1] ∧
      (ragged.toMessage.encode .tensor).length < 2 ^ 64 ∧
      ∃ m u, Message.decode? .tensor (ragged.toMessage.encode .tensor) = some m ∧
        Tensor.ofMessage m = .ok u ∧ u.ints? = some [1, -1] := by
  have hextents : ∀ n ∈ ragged.extents, n < 2 ^ 63 := by decide
  have hints : ragged.ints? = some [1, -1] := by decide +kernel
  have hbytes : (ragged.toMessage.encode .tensor).length = 22 := by decide +kernel
  have hlength : (ragged.toMessage.encode .tensor).length < 2 ^ 64 := by
    rw [hbytes]
    decide
  exact ⟨hextents, hints, hlength, ints?_of_decode_encode hextents hints hlength⟩

/-- A list of no axes. -/
def noAxes : Tensor := .ofIntegers "axes" [0] []

/-- A file does not tell a list of no numbers from a constant that has no numbers. -/
theorem ints?_lost_without_elements :
    noAxes.ints? = some [] ∧
      (Message.decode? .tensor (noAxes.toMessage.encode .tensor)).map
        (fun m => (Tensor.ofMessage m).map Tensor.ints?) = some (.ok none) := by
  constructor
  · rfl
  · decide +kernel

end Tensor

end TensorGraph
