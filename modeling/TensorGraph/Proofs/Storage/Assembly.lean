import TensorGraph.Proofs.Wire.PositiveZero

/-!
# Messages put together field by field

The message of a stored part is made of one block of values for each field of its kind. Such a
message conforms, and every field is read back from its own block.
-/

namespace TensorGraph.Wire

variable {inner : Kind → Message → Prop}

/-- The values of a message that belong to one field, none of which would be left out. -/
def Field.Holds (inner : Kind → Message → Prop) (f : Field) (block : Message) : Prop :=
  ∃ vs, block = Message.ofValues f.number vs ∧ f.Accepts Value.isNothing inner vs

/-- A message is made of one block for each field of its kind. -/
structure Kind.Assembled (inner : Kind → Message → Prop) (kind : Kind) (blocks : List Message)
    (m : Message) : Prop where
  flatten_eq : m = blocks.flatten
  holds : List.Forall₂ (Field.Holds inner) kind.fields blocks

lemma exists_map_of_holds {fields : List Field} {blocks : List Message}
    (hnodup : fields.Nodup) (h : List.Forall₂ (Field.Holds inner) fields blocks) :
    ∃ vs : Field → List Value,
      blocks = fields.map (fun f => Message.ofValues f.number (vs f)) ∧
        ∀ f ∈ fields, f.Accepts Value.isNothing inner (vs f) := by
  induction h with
  | nil => exact ⟨fun _ => [], rfl, nofun⟩
  | @cons f block fields blocks hblock _ ih =>
    obtain ⟨hf, hnodup⟩ := List.nodup_cons.mp hnodup
    obtain ⟨ws, rfl, hws⟩ := hblock
    obtain ⟨vs, rfl, hvs⟩ := ih hnodup
    have hne : ∀ g ∈ fields, g ≠ f := fun g hg h => hf (h ▸ hg)
    refine ⟨Function.update vs f ws, ?_, List.forall_mem_cons.mpr ⟨?_, ?_⟩⟩
    · rw [List.map_cons, Function.update_self]
      congr 1
      exact List.map_congr_left fun g hg => by rw [Function.update_of_ne (hne g hg)]
    · rwa [Function.update_self]
    · intro g hg
      rw [Function.update_of_ne (hne g hg)]
      exact hvs g hg

namespace Kind.Assembled

variable {kind : Kind} {blocks : List Message} {m : Message}

lemma exists_values (h : kind.Assembled inner blocks m) :
    blocks = kind.fields.map (fun f => Message.ofValues f.number (m.values f.number)) ∧
      ∀ f ∈ kind.fields, f.Accepts Value.isNothing inner (m.values f.number) := by
  obtain ⟨vs, hblocks, hvs⟩ :=
    exists_map_of_holds (List.Nodup.of_map _ kind.numbers_nodup) h.holds
  have hvalues : ∀ f ∈ kind.fields, m.values f.number = vs f := by
    intro f hf
    rw [h.flatten_eq, hblocks, ← List.flatMap_def]
    exact under_flatMap kind.numbers_nodup vs hf
  refine ⟨?_, fun f hf => ?_⟩
  · rw [hblocks]
    refine List.map_congr_left fun f hf => ?_
    rw [hvalues f hf]
  · rw [hvalues f hf]
    exact hvs f hf

lemma conformsWith (h : kind.Assembled inner blocks m)
    (hchoice : ∀ f ∈ kind.fields, f.occurs ≠ .choice) :
    kind.ConformsWith Value.isNothing inner m := by
  obtain ⟨hblocks, haccepts⟩ := h.exists_values
  refine ⟨?_, haccepts, fun f hf hoccurs => absurd hoccurs (hchoice f hf)⟩
  rw [List.flatMap_def, ← hblocks]
  exact h.flatten_eq

lemma values (h : kind.Assembled inner blocks m) :
    List.Forall₂ (fun f block => m.values f.number = Message.values block f.number)
      kind.fields blocks := by
  rw [h.exists_values.1, List.forall₂_map_right_iff, List.forall₂_same]
  intro f _
  rw [Message.values_ofValues, if_pos rfl]

end Kind.Assembled

/-! ### Blocks -/

lemma holds_ofValue {number : Nat} {type : FieldType} {v : Value} (hv : type.Admits inner v)
    (habsent : v.isNegativeZero = false) :
    (Field.mk number type .single).Holds inner (Message.ofValue number v) := by
  refine ⟨_, Message.ofValue_eq number v, ?_⟩
  cases hdefault : v.isDefault with
  | true => exact Field.accepts_nil _ _ _
  | false =>
    have hnothing : v.isNothing = false := by rw [Value.isNothing_eq, hdefault, habsent]; rfl
    exact ⟨List.forall_mem_singleton.mpr hv, fun _ =>
      ⟨Nat.le_refl 1, List.forall_mem_singleton.mpr hnothing⟩⟩

lemma holds_ofText (number : Nat) (s : String) :
    (Field.one number .text).Holds inner (Message.ofText number s) := holds_ofValue trivial rfl

lemma holds_ofInt64 (number : Nat) (n : Int64) :
    (Field.one number .int64).Holds inner (Message.ofInt64 number n) := holds_ofValue trivial rfl

lemma holds_ofInt32 (number : Nat) (n : Int32) :
    (Field.one number .int32).Holds inner (Message.ofInt32 number n) :=
  holds_ofValue (signExtend32_toNat n).symm rfl

lemma holds_ofChunk (number : Nat) (b : Bytes) :
    (Field.one number .bytes).Holds inner (Message.ofChunk number b) := holds_ofValue trivial rfl

lemma holds_ofFixed32 (number : Nat) {w : UInt32} (hw : w ≠ 0x80000000) :
    (Field.one number .float).Holds inner (Message.ofFixed32 number w) :=
  holds_ofValue trivial (beq_eq_false_iff_ne.mpr hw)

lemma holds_ofValues {number : Nat} {type : FieldType} {occurs : Occurrence} {vs : List Value}
    (hoccurs : occurs ≠ .single) (hvs : ∀ v ∈ vs, type.Admits inner v) :
    (Field.mk number type occurs).Holds inner (Message.ofValues number vs) :=
  ⟨vs, rfl, hvs, fun hsingle => absurd hsingle hoccurs⟩

lemma holds_ofTexts (number : Nat) (ss : List String) :
    (Field.many number .text).Holds inner (Message.ofTexts number ss) :=
  holds_ofValues (by decide) (by simp [FieldType.Admits])

lemma holds_ofChunks (number : Nat) (bs : List Bytes) :
    (Field.many number .bytes).Holds inner (Message.ofChunks number bs) :=
  holds_ofValues (by decide) (by simp [FieldType.Admits])

lemma holds_ofFixed32s (number : Nat) {occurs : Occurrence} (hoccurs : occurs ≠ .single)
    (ws : List UInt32) :
    (Field.mk number (.scalar .float) occurs).Holds inner (Message.ofFixed32s number ws) :=
  holds_ofValues hoccurs (by simp [FieldType.Admits])

lemma holds_ofFixed64s (number : Nat) (ws : List UInt64) :
    (Field.array number .double).Holds inner (Message.ofFixed64s number ws) :=
  holds_ofValues (by decide) (by simp [FieldType.Admits])

lemma holds_ofUInt64s (number : Nat) (ws : List UInt64) :
    (Field.array number .uint64).Holds inner (Message.ofUInt64s number ws) :=
  holds_ofValues (by decide) (by simp [FieldType.Admits])

lemma holds_ofInt64s (number : Nat) {occurs : Occurrence} (hoccurs : occurs ≠ .single)
    (ns : List Int64) :
    (Field.mk number (.scalar .int64) occurs).Holds inner (Message.ofInt64s number ns) :=
  holds_ofValues hoccurs (by simp [FieldType.Admits])

lemma holds_ofInt32s (number : Nat) (ns : List Int32) :
    (Field.array number .int32).Holds inner (Message.ofInt32s number ns) :=
  holds_ofValues (by decide) (by simp [FieldType.Admits, signExtend32_toNat])

lemma holds_ofMessages (number : Nat) {kind : Kind} {ms : List Message}
    (hms : ∀ m ∈ ms, inner kind m) :
    (Field.inners number kind).Holds inner (Message.ofMessages number ms) :=
  holds_ofValues (by decide) (by simpa [FieldType.Admits] using hms)

lemma holds_ofMessage? (number : Nat) {kind : Kind} {m? : Option Message}
    (hm : ∀ m, m? = some m → inner kind m) :
    (Field.inner number kind).Holds inner (Message.ofMessage? number m?) := by
  cases m? with
  | none => exact ⟨[], rfl, Field.accepts_nil _ _ _⟩
  | some m =>
    exact ⟨[.message m], rfl, List.forall_mem_singleton.mpr (hm m rfl), fun _ =>
      ⟨Nat.le_refl 1, List.forall_mem_singleton.mpr rfl⟩⟩

lemma holds_nil (f : Field) : f.Holds inner [] :=
  ⟨[], rfl, Field.accepts_nil _ _ f⟩

/-! ### Reading a block -/

namespace Message

variable {m : Message} {number : Nat}

lemma values_ofValue (number : Nat) (v : Value) :
    values (ofValue number v) number = if v.isDefault then [] else [v] := by
  rw [ofValue_eq, values_ofValues, if_pos rfl]

lemma text_eq {s : String} (h : m.values number = values (ofText number s) number) :
    m.text number = s := by
  rw [ofText, values_ofValue] at h
  rw [text, texts, h]
  by_cases hs : s = ""
  · subst hs; rfl
  · simp [Value.isDefault, hs, Value.text?]

lemma chunk_eq {b : Bytes} (h : m.values number = values (ofChunk number b) number) :
    m.chunk number = b := by
  rw [ofChunk, values_ofValue] at h
  rw [chunk, chunks, h]
  cases b <;> rfl

lemma word_eq {w : UInt64} (h : m.values number = values (ofValue number (.varint w)) number) :
    m.word number = w := by
  rw [values_ofValue] at h
  rw [word, words, h]
  by_cases hw : w = 0
  · subst hw; rfl
  · simp [Value.isDefault, hw, Value.word?]

lemma int64_eq {n : Int64} (h : m.values number = values (ofInt64 number n) number) :
    m.int64 number = n := by
  rw [int64, word_eq h, Int64.toInt64_toUInt64]

lemma int32_eq {n : Int32} (h : m.values number = values (ofInt32 number n) number) :
    m.int32 number = n := by
  rw [int32, word_eq h, toInt32_toUInt32_toInt64]

lemma fixed32_eq {w : UInt32} (h : m.values number = values (ofFixed32 number w) number) :
    m.fixed32 number = w := by
  rw [ofFixed32, values_ofValue] at h
  rw [fixed32, fixed32s, h]
  by_cases hw : w = 0
  · subst hw; rfl
  · simp [Value.isDefault, hw, Value.fixed32?]

lemma read_eq {α : Type} (wrap : α → Value) (read? : Value → Option α)
    (hread : ∀ a, read? (wrap a) = some a) {as : List α}
    (h : m.values number = values (ofValues number (as.map wrap)) number) :
    (m.values number).filterMap read? = as := by
  rw [h, values_ofValues, if_pos rfl, List.filterMap_map]
  have hsome : read? ∘ wrap = some := funext hread
  rw [hsome, List.filterMap_some]

lemma texts_eq {ss : List String} (h : m.values number = values (ofTexts number ss) number) :
    m.texts number = ss := read_eq .text Value.text? (fun _ => rfl) h

lemma chunks_eq {bs : List Bytes} (h : m.values number = values (ofChunks number bs) number) :
    m.chunks number = bs := read_eq .bytes Value.bytes? (fun _ => rfl) h

lemma fixed32s_eq {ws : List UInt32}
    (h : m.values number = values (ofFixed32s number ws) number) : m.fixed32s number = ws :=
  read_eq .fixed32 Value.fixed32? (fun _ => rfl) h

lemma fixed64s_eq {ws : List UInt64}
    (h : m.values number = values (ofFixed64s number ws) number) : m.fixed64s number = ws :=
  read_eq .fixed64 Value.fixed64? (fun _ => rfl) h

lemma words_eq {ws : List UInt64} (h : m.values number = values (ofUInt64s number ws) number) :
    m.words number = ws := read_eq .varint Value.word? (fun _ => rfl) h

lemma messages_eq {ms : List Message}
    (h : m.values number = values (ofMessages number ms) number) : m.messages number = ms :=
  read_eq .message Value.message? (fun _ => rfl) h

lemma int64s_eq {ns : List Int64} (h : m.values number = values (ofInt64s number ns) number) :
    m.int64s number = ns := by
  have hwords : m.words number = ns.map Int64.toUInt64 :=
    words_eq (by rw [h, ofInt64s, ofUInt64s, List.map_map]; rfl)
  rw [int64s, hwords, List.map_map]
  simp [Function.comp_def]

lemma int32s_eq {ns : List Int32} (h : m.values number = values (ofInt32s number ns) number) :
    m.int32s number = ns := by
  have hwords : m.words number = ns.map fun n => n.toInt64.toUInt64 :=
    words_eq (by rw [h, ofInt32s, ofUInt64s, List.map_map]; rfl)
  rw [int32s, hwords, List.map_map]
  simp [Function.comp_def, toInt32_toUInt32_toInt64]

lemma isEmpty_int64s (m : Message) (number : Nat) :
    (m.int64s number).isEmpty = (m.words number).isEmpty := List.isEmpty_map

lemma isEmpty_int32s (m : Message) (number : Nat) :
    (m.int32s number).isEmpty = (m.words number).isEmpty := List.isEmpty_map

lemma message?_eq {m? : Option Message}
    (h : m.values number = values (ofMessage? number m?) number) : m.message? number = m? := by
  rw [message?, messages_eq h]
  cases m? <;> rfl

end Message

end TensorGraph.Wire
