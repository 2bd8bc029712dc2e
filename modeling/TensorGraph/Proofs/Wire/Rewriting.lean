import TensorGraph.Proofs.RelatedLists
import TensorGraph.Proofs.Storage.Assembly

/-!
# Fields written as they were read

A message that is put together block by block has in each field the values of its block. If a block
is made of what was read from a field of a conforming message, these are the values of that field.
-/

namespace TensorGraph.Wire

variable {inner inner' : Kind → Message → Prop}

/-! ### Blocks -/

lemma Message.values_append (m m' : Message) (number : Nat) :
    Message.values (m ++ m') number = m.values number ++ m'.values number :=
  under_append number m m'

/-- The block holds values of one field only. -/
def Field.Fills (f : Field) (block : Message) : Prop := ∃ vs, block = Message.ofValues f.number vs

lemma fills_ofValue (f : Field) (v : Value) : f.Fills (Message.ofValue f.number v) :=
  ⟨_, Message.ofValue_eq f.number v⟩

lemma fills_ofValues (f : Field) (vs : List Value) : f.Fills (Message.ofValues f.number vs) :=
  ⟨vs, rfl⟩

section Blocks

variable {fields : List Field} {blocks : List Message} {f : Field} {block : Message} {number : Nat}

lemma Field.Fills.values_of_ne (h : f.Fills block) (hne : f.number ≠ number) :
    Message.values block number = [] := by
  obtain ⟨vs, rfl⟩ := h
  rw [Message.values_ofValues, if_neg hne]

lemma values_flatten_of_notMem (h : List.Forall₂ Field.Fills fields blocks)
    (hnumber : number ∉ fields.map Field.number) : Message.values blocks.flatten number = [] := by
  induction h with
  | nil => rfl
  | cons hblock _ ih =>
    rw [List.map_cons, List.mem_cons, not_or] at hnumber
    rw [List.flatten_cons, Message.values_append, hblock.values_of_ne (Ne.symm hnumber.1),
      ih hnumber.2, List.append_nil]

lemma forall₂_values_flatten (hnodup : (fields.map Field.number).Nodup)
    (h : List.Forall₂ Field.Fills fields blocks) :
    List.Forall₂ (fun f block =>
      Message.values blocks.flatten f.number = Message.values block f.number) fields blocks := by
  induction h with
  | nil => exact .nil
  | @cons f block fields blocks hblock hblocks ih =>
    rw [List.map_cons, List.nodup_cons] at hnodup
    refine .cons ?_ (forall₂_imp_of_mem (ih hnodup.2) fun g hg block' hvalues => ?_)
    · rw [List.flatten_cons, Message.values_append, values_flatten_of_notMem hblocks hnodup.1,
        List.append_nil]
    · have hne : f.number ≠ g.number := fun heq => hnodup.1 (heq ▸ List.mem_map_of_mem hg)
      rw [List.flatten_cons, Message.values_append, hblock.values_of_ne hne, List.nil_append,
        hvalues]

end Blocks

lemma Kind.forall₂_values {kind : Kind} {blocks : List Message} {m : Message}
    (hm : m = blocks.flatten) (h : List.Forall₂ Field.Fills kind.fields blocks) :
    List.Forall₂ (fun f block => m.values f.number = Message.values block f.number)
      kind.fields blocks := by
  subst hm
  exact forall₂_values_flatten kind.numbers_nodup h

/-! ### Values that were read -/

/-- A message that may have been read, with inner messages nested to any depth. -/
def Kind.Readable (kind : Kind) (m : Message) : Prop :=
  ∃ limit, kind.Conforms Value.isDefault limit m

lemma Kind.ConformsWith.imp {kind : Kind} {absent : Value → Bool} {m : Message}
    (hinner : ∀ k m, inner k m → inner' k m) (hm : kind.ConformsWith absent inner m) :
    kind.ConformsWith absent inner' m :=
  ⟨hm.ordered, fun f hf => ⟨fun v hv => ((hm.accepts f hf).admits v hv).imp fun k m _ => hinner k m,
    (hm.accepts f hf).single⟩, hm.choice⟩

lemma Kind.Readable.conformsWith {kind : Kind} {m : Message} (hm : kind.Readable m) :
    kind.ConformsWith Value.isDefault Kind.Readable m := by
  obtain ⟨limit, hm⟩ := hm
  cases limit with
  | zero => exact Kind.ConformsWith.imp (fun _ _ hfalse => hfalse.elim) hm
  | succ limit => exact Kind.ConformsWith.imp (fun _ _ hinner => ⟨limit, hinner⟩) hm

lemma Field.Accepts.single_cases {absent : Value → Bool} {f : Field} {vs : List Value}
    (h : f.Accepts absent inner vs) (hsingle : f.occurs = .single) :
    vs = [] ∨ ∃ v, vs = [v] ∧ f.type.Admits inner v ∧ absent v = false := by
  obtain ⟨hshort, hpresent⟩ := h.single hsingle
  cases vs with
  | nil => exact .inl rfl
  | cons v vs =>
    obtain rfl : vs = [] := List.length_eq_zero_iff.mp (by simpa using hshort)
    exact .inr ⟨v, rfl, h.admits v List.mem_cons_self, hpresent v List.mem_cons_self⟩

/-! ### What a value of each type is read and written as -/

section Admits

variable {v : Value}

lemma exists_text_of_admits (h : (FieldType.scalar .text).Admits inner v) :
    ∃ s, v.text? = some s ∧ Value.text s = v := by
  cases v with
  | text s => exact ⟨s, rfl, rfl⟩
  | _ => exact absurd h id

lemma exists_bytes_of_admits (h : (FieldType.scalar .bytes).Admits inner v) :
    ∃ b, v.bytes? = some b ∧ Value.bytes b = v := by
  cases v with
  | bytes b => exact ⟨b, rfl, rfl⟩
  | _ => exact absurd h id

lemma exists_fixed32_of_admits (h : (FieldType.scalar .float).Admits inner v) :
    ∃ w, v.fixed32? = some w ∧ Value.fixed32 w = v := by
  cases v with
  | fixed32 w => exact ⟨w, rfl, rfl⟩
  | _ => exact absurd h id

lemma exists_fixed64_of_admits (h : (FieldType.scalar .double).Admits inner v) :
    ∃ w, v.fixed64? = some w ∧ Value.fixed64 w = v := by
  cases v with
  | fixed64 w => exact ⟨w, rfl, rfl⟩
  | _ => exact absurd h id

lemma exists_uint64_of_admits (h : (FieldType.scalar .uint64).Admits inner v) :
    ∃ w, v.word? = some w ∧ Value.varint w = v := by
  cases v with
  | varint w => exact ⟨w, rfl, rfl⟩
  | _ => exact absurd h id

lemma exists_int64_of_admits (h : (FieldType.scalar .int64).Admits inner v) :
    ∃ w, v.word? = some w ∧ Value.varint w.toInt64.toUInt64 = v := by
  cases v with
  | varint w => exact ⟨w, rfl, rfl⟩
  | _ => exact absurd h id

lemma exists_int32_of_admits (h : (FieldType.scalar .int32).Admits inner v) :
    ∃ w, v.word? = some w ∧ Value.varint w.toUInt32.toInt32.toInt64.toUInt64 = v := by
  cases v with
  | varint w => exact ⟨w, rfl, congrArg Value.varint h.symm⟩
  | _ => exact absurd h id

lemma exists_message_of_admits {k : Kind} (h : (FieldType.message k).Admits inner v) :
    ∃ fields, v.message? = some fields ∧ Value.message fields = v := by
  cases v with
  | message fields => exact ⟨fields, rfl, rfl⟩
  | _ => exact absurd h id

end Admits

namespace Kind.ConformsWith

open Message

variable {kind : Kind} {m : Message} {number : Nat}

lemma rewrite_value {α : Type} (wrap : α → Value) (read? : Value → Option α) (default : α)
    (hm : kind.ConformsWith Value.isDefault inner m) {type : FieldType}
    (hf : ⟨number, type, .single⟩ ∈ kind.fields) (hdefault : (wrap default).isDefault = true)
    (hread : ∀ v, type.Admits inner v → ∃ a, read? v = some a ∧ wrap a = v) :
    values (ofValue number (wrap (((m.values number).filterMap read?).head?.getD default)))
      number = m.values number := by
  have haccepts : (Field.mk number type .single).Accepts Value.isDefault inner (m.values number) :=
    hm.accepts _ hf
  rcases haccepts.single_cases rfl with hnone | ⟨v, hsome, hadmits, hpresent⟩
  · rw [values_ofValue, hnone]
    exact if_pos hdefault
  · obtain ⟨a, ha, rfl⟩ := hread v hadmits
    rw [values_ofValue, hsome, List.filterMap_cons_some ha]
    exact if_neg (Bool.eq_false_iff.mp hpresent)

/-- A field that occurs any number of times is written with the values that were read. -/
lemma rewrite_values {α : Type} (wrap : α → Value) (read? : Value → Option α)
    (hm : kind.ConformsWith Value.isDefault inner m) {type : FieldType} {occurs : Occurrence}
    (hf : ⟨number, type, occurs⟩ ∈ kind.fields)
    (hread : ∀ v, type.Admits inner v → ∃ a, read? v = some a ∧ wrap a = v) :
    values (ofValues number (((m.values number).filterMap read?).map wrap)) number =
      m.values number := by
  have hadmits : ∀ v ∈ m.values number, type.Admits inner v := (hm.accepts _ hf).admits
  rw [values_ofValues, if_pos rfl]
  generalize m.values number = vs at hadmits
  induction vs with
  | nil => rfl
  | cons v vs ih =>
    obtain ⟨hv, hvs⟩ := List.forall_mem_cons.mp hadmits
    obtain ⟨a, ha, rfl⟩ := hread v hv
    rw [List.filterMap_cons_some ha, List.map_cons, ih hvs]

variable {occurs : Occurrence}

lemma rewrite_text (hm : kind.ConformsWith Value.isDefault inner m)
    (hf : Field.one number .text ∈ kind.fields) :
    values (ofText number (m.text number)) number = m.values number :=
  hm.rewrite_value .text Value.text? "" hf rfl fun _ => exists_text_of_admits

lemma rewrite_chunk (hm : kind.ConformsWith Value.isDefault inner m)
    (hf : Field.one number .bytes ∈ kind.fields) :
    values (ofChunk number (m.chunk number)) number = m.values number :=
  hm.rewrite_value .bytes Value.bytes? [] hf rfl fun _ => exists_bytes_of_admits

lemma rewrite_fixed32 (hm : kind.ConformsWith Value.isDefault inner m)
    (hf : Field.one number .float ∈ kind.fields) :
    values (ofFixed32 number (m.fixed32 number)) number = m.values number :=
  hm.rewrite_value .fixed32 Value.fixed32? 0 hf rfl fun _ => exists_fixed32_of_admits

lemma rewrite_int64 (hm : kind.ConformsWith Value.isDefault inner m)
    (hf : Field.one number .int64 ∈ kind.fields) :
    values (ofInt64 number (m.int64 number)) number = m.values number :=
  hm.rewrite_value (fun w : UInt64 => .varint w.toInt64.toUInt64) Value.word? 0 hf rfl
    fun _ => exists_int64_of_admits

lemma rewrite_int32 (hm : kind.ConformsWith Value.isDefault inner m)
    (hf : Field.one number .int32 ∈ kind.fields) :
    values (ofInt32 number (m.int32 number)) number = m.values number :=
  hm.rewrite_value (fun w : UInt64 => .varint w.toUInt32.toInt32.toInt64.toUInt64) Value.word? 0
    hf rfl fun _ => exists_int32_of_admits

lemma rewrite_message? {k : Kind} (hm : kind.ConformsWith Value.isDefault inner m)
    (hf : Field.inner number k ∈ kind.fields) :
    values (ofMessage? number (m.message? number)) number = m.values number := by
  have haccepts : (Field.inner number k).Accepts Value.isDefault inner (m.values number) :=
    hm.accepts _ hf
  rcases haccepts.single_cases rfl with hnone | ⟨v, hsome, hadmits, _⟩
  · rw [message?, messages, hnone]
    rfl
  · obtain ⟨fields, hfields, rfl⟩ := exists_message_of_admits hadmits
    rw [message?, messages, hsome, List.filterMap_cons_some hfields, ofMessage?, ofMessages,
      values_ofValues, if_pos rfl]
    rfl

lemma rewrite_texts (hm : kind.ConformsWith Value.isDefault inner m)
    (hf : ⟨number, .scalar .text, occurs⟩ ∈ kind.fields) :
    values (ofTexts number (m.texts number)) number = m.values number :=
  hm.rewrite_values .text Value.text? hf fun _ => exists_text_of_admits

lemma rewrite_chunks (hm : kind.ConformsWith Value.isDefault inner m)
    (hf : ⟨number, .scalar .bytes, occurs⟩ ∈ kind.fields) :
    values (ofChunks number (m.chunks number)) number = m.values number :=
  hm.rewrite_values .bytes Value.bytes? hf fun _ => exists_bytes_of_admits

lemma rewrite_fixed32s (hm : kind.ConformsWith Value.isDefault inner m)
    (hf : ⟨number, .scalar .float, occurs⟩ ∈ kind.fields) :
    values (ofFixed32s number (m.fixed32s number)) number = m.values number :=
  hm.rewrite_values .fixed32 Value.fixed32? hf fun _ => exists_fixed32_of_admits

lemma rewrite_fixed64s (hm : kind.ConformsWith Value.isDefault inner m)
    (hf : ⟨number, .scalar .double, occurs⟩ ∈ kind.fields) :
    values (ofFixed64s number (m.fixed64s number)) number = m.values number :=
  hm.rewrite_values .fixed64 Value.fixed64? hf fun _ => exists_fixed64_of_admits

lemma rewrite_words (hm : kind.ConformsWith Value.isDefault inner m)
    (hf : ⟨number, .scalar .uint64, occurs⟩ ∈ kind.fields) :
    values (ofUInt64s number (m.words number)) number = m.values number :=
  hm.rewrite_values .varint Value.word? hf fun _ => exists_uint64_of_admits

lemma rewrite_int64s (hm : kind.ConformsWith Value.isDefault inner m)
    (hf : ⟨number, .scalar .int64, occurs⟩ ∈ kind.fields) :
    values (ofInt64s number (m.int64s number)) number = m.values number := by
  rw [ofInt64s, int64s, List.map_map]
  exact hm.rewrite_values (fun w : UInt64 => .varint w.toInt64.toUInt64) Value.word? hf
    fun _ => exists_int64_of_admits

lemma rewrite_int32s (hm : kind.ConformsWith Value.isDefault inner m)
    (hf : ⟨number, .scalar .int32, occurs⟩ ∈ kind.fields) :
    values (ofInt32s number (m.int32s number)) number = m.values number := by
  rw [ofInt32s, int32s, List.map_map]
  exact hm.rewrite_values (fun w : UInt64 => .varint w.toUInt32.toInt32.toInt64.toUInt64)
    Value.word? hf fun _ => exists_int32_of_admits

lemma rewrite_messages {k : Kind} (hm : kind.ConformsWith Value.isDefault inner m)
    (hf : ⟨number, .message k, occurs⟩ ∈ kind.fields) :
    values (ofMessages number (m.messages number)) number = m.values number :=
  hm.rewrite_values .message Value.message? hf fun _ => exists_message_of_admits

/-- A message that is written without a change in any of its fields is the message that was read. -/
lemma eq_flatten (hm : kind.ConformsWith Value.isDefault inner m) {blocks : List Message}
    (hfills : List.Forall₂ Field.Fills kind.fields blocks)
    (hvalues : List.Forall₂ (fun f block => values block f.number = m.values f.number)
      kind.fields blocks) : m = blocks.flatten := by
  have hblocks : kind.fields.map (fun f => ofValues f.number (m.values f.number)) = blocks := by
    generalize kind.fields = fields at hfills hvalues
    induction hfills with
    | nil => rfl
    | cons hblock _ ih =>
      obtain ⟨hhead, htail⟩ := List.forall₂_cons.mp hvalues
      obtain ⟨vs, rfl⟩ := hblock
      rw [values_ofValues, if_pos rfl] at hhead
      rw [List.map_cons, ih htail, hhead]
  rw [← hblocks, ← List.flatMap_def]
  exact hm.ordered

end Kind.ConformsWith

end TensorGraph.Wire
