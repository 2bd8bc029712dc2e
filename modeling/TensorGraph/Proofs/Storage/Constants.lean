import TensorGraph.Proofs.Storage.Types

/-!
# Constants survive

A constant that can be stored comes back from its message with its elements in the form in which
they were. What was read can be stored: extents are below `2 ^ 63`, a list of elements is not
empty, and a code is kept only if no element type has it.
-/

namespace TensorGraph

open Wire Wire.Message

/-! ### Keys and values -/

lemma assembled_entry (inner : Kind → Message → Prop) (key value : String) :
    Kind.entry.Assembled inner [ofText EntryField.key key, ofText EntryField.value value]
      (ofText EntryField.key key ++ ofText EntryField.value value) where
  flatten_eq := by simp
  holds := .cons (holds_ofText _ _) (.cons (holds_ofText _ _) .nil)

lemma conforms_of_mem_entryMessages {entries : List (String × String)} {limit : Nat}
    {m : Message} (hm : m ∈ entryMessages entries) :
    Kind.entry.Conforms Value.isNothing limit m := by
  obtain ⟨⟨key, value⟩, _, rfl⟩ := List.mem_map.mp hm
  exact Kind.conforms_of_forall fun inner =>
    (assembled_entry inner key value).conformsWith (by decide)

lemma entriesOfMessages_entryMessages (entries : List (String × String)) :
    entriesOfMessages (entryMessages entries) = entries := by
  rw [entriesOfMessages, entryMessages, List.map_map]
  refine List.map_congr_left (g := id) (fun entry _ => ?_) |>.trans (List.map_id entries)
  obtain ⟨key, value⟩ := entry
  have hvalues := (assembled_entry (fun _ _ => True) key value).values
  simp only [Kind.fields, List.forall₂_cons] at hvalues
  exact Prod.ext (text_eq hvalues.1) (text_eq hvalues.2.1)

/-! ### Elements -/

namespace Payload

/-- Elements are stored in a list only if there are any. -/
def Storable : Payload → Prop
  | raw b => b ≠ []
  | floats ws => ws ≠ []
  | int32s vs => vs ≠ []
  | int64s vs => vs ≠ []
  | doubles ws => ws ≠ []
  | uint64s ws => ws ≠ []
  | strings vs => vs ≠ []
  | external _ => True
  | empty => True

lemma storable_ofMessage (m : Message) : (Payload.ofMessage m).Storable := by
  unfold Payload.ofMessage
  split_ifs <;> simp_all [Storable, Message.int32s, Message.int64s]

/-! What each field of a constant has of the elements. -/

def storedFloats : Payload → List UInt32 | floats ws => ws | _ => []
def storedInt32s : Payload → List Int32 | int32s vs => vs | _ => []
def storedStrings : Payload → List Bytes | strings vs => vs | _ => []
def storedInt64s : Payload → List Int64 | int64s vs => vs | _ => []
def storedRaw : Payload → Bytes | raw b => b | _ => []
def storedDoubles : Payload → List UInt64 | doubles ws => ws | _ => []
def storedUInt64s : Payload → List UInt64 | uint64s ws => ws | _ => []
def storedEntries : Payload → List (String × String) | external entries => entries | _ => []
def location : Payload → Int32 | external _ => externalLocation | _ => 0

end Payload

/-! ### Constants -/

namespace Tensor

/-- A constant that comes back from a file. -/
structure Storable (t : Tensor) : Prop where
  extents : ∀ n ∈ t.extents, n < 2 ^ 63
  payload : t.payload.Storable
  otherCode : ∀ code, t.otherCode? = some code →
    t.elem? = none ∧ code ≠ 0 ∧ ElemType.ofCode? code.toInt = none

/-- The stored code of the element type. -/
def code (t : Tensor) : Int32 :=
  match t.elem? with
  | some elem => elemCode (some elem)
  | none => t.otherCode?.getD 0

/-- The blocks of the message of a constant. -/
def blocks (t : Tensor) : List Message :=
  [ofInt64s TensorField.dims (t.extents.map fun n => (UInt64.ofNat n).toInt64),
    ofInt32 TensorField.elemType t.code,
    ofFixed32s TensorField.floatData t.payload.storedFloats,
    ofInt32s TensorField.int32Data t.payload.storedInt32s,
    ofChunks TensorField.stringData t.payload.storedStrings,
    ofInt64s TensorField.int64Data t.payload.storedInt64s,
    ofText TensorField.name t.name,
    ofChunk TensorField.rawData t.payload.storedRaw,
    ofFixed64s TensorField.doubleData t.payload.storedDoubles,
    ofUInt64s TensorField.uint64Data t.payload.storedUInt64s,
    ofText TensorField.doc t.doc,
    ofMessages TensorField.externalData (entryMessages t.payload.storedEntries),
    ofInt32 TensorField.location t.payload.location]

lemma toMessage_eq (t : Tensor) : t.toMessage = t.blocks.flatten := by
  obtain ⟨name, elem?, extents, payload, doc, otherCode?⟩ := t
  cases payload <;> simp [toMessage, blocks] <;> rfl

lemma assembled_toMessage (t : Tensor) (limit : Nat) :
    Kind.tensor.Assembled (Kind.Conforms Value.isNothing limit) t.blocks t.toMessage where
  flatten_eq := t.toMessage_eq
  holds :=
    .cons (holds_ofInt64s _ (by decide) _) <| .cons (holds_ofInt32 _ _) <|
    .cons (holds_ofFixed32s _ (by decide) _) <| .cons (holds_ofInt32s _ _) <|
    .cons (holds_ofChunks _ _) <| .cons (holds_ofInt64s _ (by decide) _) <|
    .cons (holds_ofText _ _) <| .cons (holds_ofChunk _ _) <| .cons (holds_ofFixed64s _ _) <|
    .cons (holds_ofUInt64s _ _) <| .cons (holds_ofText _ _) <|
    .cons (holds_ofMessages _ fun _ hm => conforms_of_mem_entryMessages hm) <|
    .cons (holds_ofInt32 _ _) .nil

lemma conforms_toMessage (t : Tensor) (limit : Nat) :
    Kind.tensor.Conforms Value.isNothing (limit + 1) t.toMessage :=
  (t.assembled_toMessage limit).conformsWith (by decide)

lemma payload_toMessage {t : Tensor} (ht : t.payload.Storable) :
    Payload.ofMessage t.toMessage = t.payload := by
  have hvalues := (t.assembled_toMessage 0).values
  simp only [Kind.fields, Field.array, Field.many, Field.one, Field.inners, blocks,
    List.forall₂_cons] at hvalues
  obtain ⟨-, -, hfloats, hint32s, hstrings, hint64s, -, hraw, hdoubles, huint64s, -, hentries,
    hlocation, -⟩ := hvalues
  have hfloats := fixed32s_eq hfloats
  have hint32s := int32s_eq hint32s
  have hstrings := chunks_eq hstrings
  have hint64s := int64s_eq hint64s
  have hraw := chunk_eq hraw
  have hdoubles := fixed64s_eq hdoubles
  have huint64s := words_eq huint64s
  have hentries := messages_eq hentries
  have hlocation := int32_eq hlocation
  rw [Payload.ofMessage, ← isEmpty_int32s, ← isEmpty_int64s, hfloats, hint32s, hstrings, hint64s,
    hraw, hdoubles, huint64s, hentries, hlocation, entriesOfMessages_entryMessages]
  cases hp : t.payload with
  | external entries => rfl
  | empty => rfl
  | _ =>
    rw [hp] at ht
    simp_all [Payload.Storable, Payload.location, externalLocation, Payload.storedRaw,
      Payload.storedFloats, Payload.storedInt32s, Payload.storedInt64s, Payload.storedDoubles,
      Payload.storedUInt64s, Payload.storedStrings]

lemma ofCode?_code {t : Tensor} (ht : t.Storable) : ElemType.ofCode? t.code.toInt = t.elem? := by
  unfold code
  cases helem : t.elem? with
  | some elem => exact ofCode?_elemCode (some elem)
  | none =>
    cases hother : t.otherCode? with
    | none => rfl
    | some code => exact (ht.otherCode code hother).2.2

lemma otherCode?_eq {t : Tensor} (ht : t.Storable) :
    (if t.elem?.isNone && t.code != 0 then some t.code else none) = t.otherCode? := by
  unfold code
  cases hother : t.otherCode? with
  | none => cases t.elem? <;> rfl
  | some code =>
    obtain ⟨helem, hcode, -⟩ := ht.otherCode code hother
    simp [helem, hcode]

lemma toInt_toInt64_ofNat {n : Nat} (hn : n < 2 ^ 63) : (UInt64.ofNat n).toInt64.toInt = n :=
  Int64.toInt_ofNat_of_lt hn

/-- A constant comes back from its message. -/
theorem ofMessage_toMessage {t : Tensor} (ht : t.Storable) :
    Tensor.ofMessage t.toMessage = .ok t := by
  have hpayload := payload_toMessage ht.payload
  have hvalues := (t.assembled_toMessage 0).values
  simp only [Kind.fields, blocks, List.forall₂_cons] at hvalues
  obtain ⟨hdims, hcode, -, -, -, -, hname, -, -, -, hdoc, -⟩ := hvalues
  have hdims : t.toMessage.int64s TensorField.dims =
      t.extents.map fun n => (UInt64.ofNat n).toInt64 := int64s_eq hdims
  have hcode : t.toMessage.int32 TensorField.elemType = t.code := int32_eq hcode
  have hname : t.toMessage.text TensorField.name = t.name := text_eq hname
  have hdoc : t.toMessage.text TensorField.doc = t.doc := text_eq hdoc
  have hextents : (t.extents.map fun n => (UInt64.ofNat n).toInt64).mapM (fun d =>
      if d < 0 then Except.error (t.name, d) else .ok d.toInt.toNat) = .ok t.extents := by
    refine mapM_map_eq_ok fun n hn => ?_
    have hvalue := toInt_toInt64_ofNat (ht.extents n hn)
    have hnonneg : ¬(UInt64.ofNat n).toInt64 < 0 := by
      rw [Int64.lt_iff_toInt_lt, hvalue]
      exact Int.not_lt.mpr (Int.natCast_nonneg n)
    rw [if_neg hnonneg, hvalue, Int.toNat_natCast]
  rw [Tensor.ofMessage, hdims, hcode, hname, hdoc, hpayload, hextents]
  change Except.ok (Tensor.mk t.name (ElemType.ofCode? t.code.toInt) t.extents t.payload t.doc
    (if (ElemType.ofCode? t.code.toInt).isNone && t.code != 0 then some t.code else none)) = .ok t
  rw [ofCode?_code ht, otherCode?_eq ht]

/-- Every constant that was read can be stored. -/
theorem storable_of_ofMessage {m : Message} {t : Tensor} (h : Tensor.ofMessage m = .ok t) :
    t.Storable := by
  obtain ⟨extents, hextents, hpure⟩ := bind_eq_ok_iff.mp h
  obtain rfl := Except.ok.inj hpure
  refine ⟨forall_mem_of_mapM_eq_ok hextents fun d _ n hn => ?_, Payload.storable_ofMessage m,
    fun code hcode => ?_⟩
  · split_ifs at hn
    obtain rfl := Except.ok.inj hn
    have hlt := d.toInt_lt
    omega
  · dsimp only at hcode ⊢
    split_ifs at hcode with hunknown
    obtain rfl := Option.some.inj hcode
    rw [Bool.and_eq_true, Option.isNone_iff_eq_none, bne_iff_ne] at hunknown
    exact ⟨hunknown.1, hunknown.2, hunknown.1⟩

end Tensor

end TensorGraph
