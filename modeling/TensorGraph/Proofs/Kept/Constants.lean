import TensorGraph.Proofs.Kept.Values
import TensorGraph.Proofs.Storage.Constants

/-!
# What is kept of constants

A constant that is read and written again has its name, its remark, its extents and the code of its
element type, known or not. Of its elements it has those of the first field in use, or the entries
that say in which file they are.
-/

namespace TensorGraph

open Wire Wire.Message

/-! ### Fields in use -/

/-- The fields that elements may be in. If several are in use, the first one counts. -/
def elementFields : List Nat :=
  [TensorField.rawData, TensorField.floatData, TensorField.int32Data, TensorField.int64Data,
    TensorField.doubleData, TensorField.uint64Data, TensorField.stringData]

/-- The fields that say where the elements are if they are in another file. -/
def externalFields : List Nat := [TensorField.externalData, TensorField.location]

/-- The first of some fields that is not empty. -/
def fieldInUse (t : Message) (numbers : List Nat) : List Nat :=
  (numbers.find? fun n => !(t.values n).isEmpty).toList

/-- The fields that the elements of a constant are taken from. -/
def storedFields (t : Message) : List Nat :=
  if t.int32 TensorField.location = externalLocation then externalFields
  else fieldInUse t elementFields

/-- The fields that the elements are taken from stay, and all others are empty. -/
structure KeepsTensor (t t' : Message) : Prop where
  same : SameIn [TensorField.name, TensorField.doc, TensorField.dims, TensorField.elemType] t t'
  elements : ∀ n ∈ elementFields ++ externalFields,
    t'.values n = if n ∈ storedFields t then t.values n else []

section Emptiness

variable {inner : Kind → Message → Prop} {kind : Kind} {m : Message} {number : Nat}

lemma isEmpty_chunk (hm : kind.ConformsWith Value.isDefault inner m)
    (hf : Field.one number .bytes ∈ kind.fields) :
    (m.chunk number).isEmpty = (m.values number).isEmpty := by
  rw [← hm.rewrite_chunk hf, ofChunk, values_ofValue]
  cases m.chunk number <;> rfl

lemma isEmpty_eq_of_values_eq {α : Type} {wrap : α → Value} {as : List α}
    (h : values (ofValues number (as.map wrap)) number = m.values number) :
    as.isEmpty = (m.values number).isEmpty := by
  rw [← h, values_ofValues, if_pos rfl, List.isEmpty_map]

end Emptiness

/-! ### Elements -/

namespace Payload

/-- What the message of a constant has of the elements. -/
def toMessage : Payload → Message
  | raw b => ofChunk TensorField.rawData b
  | floats ws => ofFixed32s TensorField.floatData ws
  | int32s vs => ofInt32s TensorField.int32Data vs
  | int64s vs => ofInt64s TensorField.int64Data vs
  | doubles ws => ofFixed64s TensorField.doubleData ws
  | uint64s ws => ofUInt64s TensorField.uint64Data ws
  | strings vs => ofChunks TensorField.stringData vs
  | external entries => ofMessages TensorField.externalData (entryMessages entries) ++
      ofInt32 TensorField.location externalLocation
  | empty => []

/-- The blocks of the elements in the message of a constant. -/
def blocks (p : Payload) : List Message :=
  [ofFixed32s TensorField.floatData p.storedFloats,
    ofInt32s TensorField.int32Data p.storedInt32s,
    ofChunks TensorField.stringData p.storedStrings,
    ofInt64s TensorField.int64Data p.storedInt64s,
    ofChunk TensorField.rawData p.storedRaw,
    ofFixed64s TensorField.doubleData p.storedDoubles,
    ofUInt64s TensorField.uint64Data p.storedUInt64s,
    ofMessages TensorField.externalData (entryMessages p.storedEntries),
    ofInt32 TensorField.location p.location]

lemma ofInt32_zero (number : Nat) : ofInt32 number 0 = [] := rfl

lemma toMessage_eq (p : Payload) : p.toMessage = p.blocks.flatten := by
  cases p <;>
  simp [toMessage, blocks, storedFloats, storedInt32s, storedStrings, storedInt64s, storedRaw,
    storedDoubles, storedUInt64s, storedEntries, location, ofFixed32s, ofInt32s, ofChunks,
    ofInt64s, ofFixed64s, ofUInt64s, ofMessages, entryMessages, ofValues, ofChunk, ofValue,
    Value.isDefault, ofInt32_zero]

/-- The fields of these blocks. -/
def blockFields : List Field :=
  [.array TensorField.floatData .float, .array TensorField.int32Data .int32,
    .many TensorField.stringData .bytes, .array TensorField.int64Data .int64,
    .one TensorField.rawData .bytes, .array TensorField.doubleData .double,
    .array TensorField.uint64Data .uint64, .inners TensorField.externalData .entry,
    .one TensorField.location .int32]

lemma values_toMessage (p : Payload) :
    List.Forall₂ (fun f block => p.toMessage.values f.number = Message.values block f.number)
      blockFields p.blocks := by
  rw [p.toMessage_eq]
  exact forall₂_values_flatten (by decide) <|
    .cons (fills_ofValues _ _) <| .cons (fills_ofValues _ _) <| .cons (fills_ofValues _ _) <|
    .cons (fills_ofValues _ _) <| .cons (fills_ofValue _ _) <| .cons (fills_ofValues _ _) <|
    .cons (fills_ofValues _ _) <| .cons (fills_ofValues _ _) <| .cons (fills_ofValue _ _) .nil

end Payload

lemma Wire.Field.Fills.values_eq_ite {t block : Message} {f : Field} (h : f.Fills block)
    (hvalues : Message.values block f.number = t.values f.number) (n : Nat) :
    Message.values block n = if n = f.number then t.values n else [] := by
  split_ifs with hn
  · rw [hn, hvalues]
  · exact h.values_of_ne (Ne.symm hn)

lemma Payload.values_ite {t : Message} {f : Field} {p q : Payload} {numbers : List Nat} {n : Nat}
    (hfills : f.Fills p.toMessage) (hp : p.toMessage.values f.number = t.values f.number)
    (hq : q.toMessage.values n = if n ∈ fieldInUse t numbers then t.values n else []) :
    (if !(t.values f.number).isEmpty then p else q).toMessage.values n =
      if n ∈ fieldInUse t (f.number :: numbers) then t.values n else [] := by
  cases hempty : (t.values f.number).isEmpty with
  | true =>
    rw [fieldInUse, List.find?_cons_of_neg (by rw [hempty]; decide)]
    exact hq
  | false =>
    rw [fieldInUse, List.find?_cons_of_pos (by rw [hempty]; rfl), Option.toList_some]
    simp only [List.mem_singleton]
    exact hfills.values_eq_ite hp n

lemma entryMessages_entriesOfMessages {ms : List Message}
    (hms : ∀ m ∈ ms, Kind.entry.Readable m) : entryMessages (entriesOfMessages ms) = ms := by
  rw [entryMessages, entriesOfMessages, List.map_map]
  refine (List.map_congr_left (g := id) fun m hm => ?_).trans (List.map_id ms)
  have hconforms := (hms m hm).conformsWith
  have heq : m = [ofText EntryField.key (m.text EntryField.key),
      ofText EntryField.value (m.text EntryField.value)].flatten :=
    hconforms.eq_flatten (.cons (fills_ofValue _ _) <| .cons (fills_ofValue _ _) .nil) <|
      .cons (hconforms.rewrite_text (by decide)) <|
      .cons (hconforms.rewrite_text (by decide)) .nil
  rw [List.flatten_cons, List.flatten_singleton] at heq
  exact heq.symm

/-- The entries that say where the elements are stay as they were read. -/
lemma Payload.values_external {t : Message} (ht : Kind.tensor.Readable t)
    (hlocation : t.int32 TensorField.location = externalLocation) (n : Nat) :
    (Payload.external
      (entriesOfMessages (t.messages TensorField.externalData))).toMessage.values n =
      if n ∈ externalFields then t.values n else [] := by
  have hconforms := ht.conformsWith
  have hfield : Field.inners TensorField.externalData .entry ∈ Kind.tensor.fields := by decide
  have hentries : entryMessages (entriesOfMessages (t.messages TensorField.externalData)) =
      t.messages TensorField.externalData :=
    entryMessages_entriesOfMessages fun _ hm => hconforms.inner_of_mem_messages hfield hm
  have hdata : Message.values (ofMessages TensorField.externalData
      (t.messages TensorField.externalData)) n =
      if n = TensorField.externalData then t.values n else [] :=
    (fills_ofValues (Field.inners TensorField.externalData .entry) _).values_eq_ite
      (hconforms.rewrite_messages hfield) n
  have hplace : Message.values (ofInt32 TensorField.location (t.int32 TensorField.location)) n =
      if n = TensorField.location then t.values n else [] :=
    (fills_ofValue (Field.one TensorField.location .int32) _).values_eq_ite
      (hconforms.rewrite_int32 (by decide)) n
  rw [toMessage, hentries, ← hlocation, values_append, hdata, hplace]
  by_cases hn : n = TensorField.externalData
  · subst hn
    exact List.append_nil _
  · rw [if_neg hn, List.nil_append]
    simp only [externalFields, List.mem_cons, hn, List.not_mem_nil, or_false, false_or]

/-- The elements that are read are those of the first field in use. -/
lemma Payload.values_toMessage_ofMessage {t : Message} (ht : Kind.tensor.Readable t) (n : Nat) :
    (Payload.ofMessage t).toMessage.values n =
      if n ∈ storedFields t then t.values n else [] := by
  have hconforms := ht.conformsWith
  have hraw := hconforms.rewrite_chunk
    (show Field.one TensorField.rawData .bytes ∈ Kind.tensor.fields by decide)
  have hfloats := hconforms.rewrite_fixed32s
    (show Field.array TensorField.floatData .float ∈ Kind.tensor.fields by decide)
  have hint32s := hconforms.rewrite_int32s
    (show Field.array TensorField.int32Data .int32 ∈ Kind.tensor.fields by decide)
  have hint64s := hconforms.rewrite_int64s
    (show Field.array TensorField.int64Data .int64 ∈ Kind.tensor.fields by decide)
  have hdoubles := hconforms.rewrite_fixed64s
    (show Field.array TensorField.doubleData .double ∈ Kind.tensor.fields by decide)
  have huint64s := hconforms.rewrite_words
    (show Field.array TensorField.uint64Data .uint64 ∈ Kind.tensor.fields by decide)
  have hstrings := hconforms.rewrite_chunks
    (show Field.many TensorField.stringData .bytes ∈ Kind.tensor.fields by decide)
  rw [Payload.ofMessage, storedFields]
  by_cases hlocation : t.int32 TensorField.location = externalLocation
  · rw [if_pos hlocation, if_pos hlocation]
    exact values_external ht hlocation n
  · rw [if_neg hlocation, if_neg hlocation, isEmpty_chunk hconforms (by decide),
      isEmpty_eq_of_values_eq hfloats, ← isEmpty_int32s, isEmpty_eq_of_values_eq hint32s,
      ← isEmpty_int64s, isEmpty_eq_of_values_eq hint64s, isEmpty_eq_of_values_eq hdoubles,
      isEmpty_eq_of_values_eq huint64s, isEmpty_eq_of_values_eq hstrings]
    exact
      values_ite (f := Field.one TensorField.rawData .bytes) (fills_ofValue _ _) hraw <|
      values_ite (f := Field.array TensorField.floatData .float) (fills_ofValues _ _) hfloats <|
      values_ite (f := Field.array TensorField.int32Data .int32) (fills_ofValues _ _) hint32s <|
      values_ite (f := Field.array TensorField.int64Data .int64) (fills_ofValues _ _) hint64s <|
      values_ite (f := Field.array TensorField.doubleData .double) (fills_ofValues _ _) hdoubles <|
      values_ite (f := Field.array TensorField.uint64Data .uint64) (fills_ofValues _ _) huint64s <|
      values_ite (f := Field.many TensorField.stringData .bytes) (fills_ofValues _ _) hstrings rfl

/-! ### Constants -/

namespace Tensor

variable {t : Message} {u : Tensor}

lemma values_toMessage (u : Tensor) :
    List.Forall₂ (fun f block => u.toMessage.values f.number = Message.values block f.number)
      Kind.tensor.fields u.blocks :=
  (u.assembled_toMessage 0).values

/-- Each field of the elements has what their payload puts there. -/
lemma values_toMessage_payload (u : Tensor) :
    ∀ n ∈ elementFields ++ externalFields,
      u.toMessage.values n = u.payload.toMessage.values n := by
  have hvalues := u.values_toMessage
  simp only [Kind.fields, blocks, List.forall₂_cons] at hvalues
  have hpayload := u.payload.values_toMessage
  simp only [Payload.blockFields, Payload.blocks, List.forall₂_cons] at hpayload
  obtain ⟨-, -, hfloats, hint32s, hstrings, hint64s, -, hraw, hdoubles, huint64s, -, hentries,
    hlocation, -⟩ := hvalues
  obtain ⟨hfloats', hint32s', hstrings', hint64s', hraw', hdoubles', huint64s', hentries',
    hlocation', -⟩ := hpayload
  simp only [elementFields, externalFields, List.cons_append, List.nil_append,
    List.forall_mem_cons]
  exact ⟨hraw.trans hraw'.symm, hfloats.trans hfloats'.symm, hint32s.trans hint32s'.symm,
    hint64s.trans hint64s'.symm, hdoubles.trans hdoubles'.symm, huint64s.trans huint64s'.symm,
    hstrings.trans hstrings'.symm, hentries.trans hentries'.symm, hlocation.trans hlocation'.symm,
    List.forall_mem_nil _⟩

lemma toInt64_ofNat_toNat {d : Int64} (hd : ¬d < 0) :
    (UInt64.ofNat d.toInt.toNat).toInt64 = d := by
  have hnonneg : 0 ≤ d.toInt := by
    rwa [Int64.lt_iff_toInt_lt, Int.not_lt] at hd
  have hlt := d.toInt_lt
  rw [← Int64.toInt_inj, toInt_toInt64_ofNat (by omega), Int.toNat_of_nonneg hnonneg]

/-- What a constant that was read has from the fields of its message. -/
lemma of_ofMessage_eq_ok (h : Tensor.ofMessage t = .ok u) :
    u.name = t.text TensorField.name ∧ u.doc = t.text TensorField.doc ∧
      u.payload = Payload.ofMessage t ∧
      u.extents.map (fun n => (UInt64.ofNat n).toInt64) = t.int64s TensorField.dims ∧
      u.code = t.int32 TensorField.elemType := by
  obtain ⟨extents, hextents, hpure⟩ := bind_eq_ok_iff.mp h
  obtain rfl := Except.ok.inj hpure
  refine ⟨rfl, rfl, rfl, ?_, ?_⟩
  · have hread := mapM_eq_ok_iff.mp hextents
    clear h hpure hextents
    generalize t.int64s TensorField.dims = words at hread ⊢
    induction hread with
    | nil => rfl
    | cons hd _ ih =>
      split_ifs at hd with hneg
      obtain rfl := Except.ok.inj hd
      rw [List.map_cons, ih, toInt64_ofNat_toNat hneg]
  · dsimp only [code]
    cases helem : ElemType.ofCode? (t.int32 TensorField.elemType).toInt with
    | some e => exact elemCode_eq (ElemType.ofCode?_eq_some_iff.mp helem)
    | none => by_cases hzero : t.int32 TensorField.elemType = 0 <;> simp [hzero]

/-- A constant that was read is written with all that was read. -/
lemma keepsTensor_toMessage (ht : Kind.tensor.Readable t) (h : Tensor.ofMessage t = .ok u) :
    KeepsTensor t u.toMessage := by
  have hconforms := ht.conformsWith
  have hvalues := u.values_toMessage
  simp only [Kind.fields, blocks, List.forall₂_cons] at hvalues
  obtain ⟨hdims, hcode, -, -, -, -, hname, -, -, -, hdoc, -⟩ := hvalues
  obtain ⟨hreadName, hreadDoc, hpayload, hreadDims, hreadCode⟩ := of_ofMessage_eq_ok h
  rw [hreadName] at hname
  rw [hreadDoc] at hdoc
  rw [hreadDims] at hdims
  rw [hreadCode] at hcode
  constructor
  · simp only [SameIn, List.forall_mem_cons]
    refine ⟨hname.trans ?_, hdoc.trans ?_, hdims.trans ?_, hcode.trans ?_, List.forall_mem_nil _⟩
    · exact hconforms.rewrite_text (by decide)
    · exact hconforms.rewrite_text (by decide)
    · exact hconforms.rewrite_int64s
        (show Field.many TensorField.dims .int64 ∈ Kind.tensor.fields by decide)
    · exact hconforms.rewrite_int32 (by decide)
  · intro n hn
    rw [u.values_toMessage_payload n hn, hpayload]
    exact Payload.values_toMessage_ofMessage ht n

end Tensor

end TensorGraph
