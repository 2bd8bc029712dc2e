import TensorGraph.Proofs.Storage.Types
import TensorGraph.Proofs.Wire.Rewriting

/-!
# What is kept of described values

Reading a described value and writing it again gives a message that tells as much as the one that
was read. It is said field by field what that means: which fields are the same, which types are not
looked into, and which extents stay.
-/

namespace TensorGraph

open Wire Wire.Message

/-- In each of these fields the second message has the values of the first one. -/
def Wire.Message.SameIn (numbers : List Nat) (m m' : Message) : Prop :=
  ∀ n ∈ numbers, m'.values n = m.values n

/-! ### Extents and types -/

/-- A number that is not negative and a name that is not empty stay. -/
structure KeepsDim (d d' : Message) : Prop where
  number : ∀ w : UInt64, d.values DimField.value = [.varint w] →
    w.toNat < 0x8000000000000000 → d'.values DimField.value = [.varint w]
  name : ∀ s : String, d.values DimField.param = [.text s] → s ≠ "" →
    d'.values DimField.param = [.text s]

lemma KeepsDim.refl (d : Message) : KeepsDim d d := ⟨fun _ h _ => h, fun _ h _ => h⟩

/-- The code of the element type stays, and each extent of a shape does at its position. -/
structure KeepsTensorType (t t' : Message) : Prop where
  elemType : t'.values TensorTypeField.elemType = t.values TensorTypeField.elemType
  shape : Option.Rel
    (fun s s' => List.Forall₂ KeepsDim (s.messages ShapeField.dim) (s'.messages ShapeField.dim))
    (t.message? TensorTypeField.shape) (t'.message? TensorTypeField.shape)

lemma KeepsTensorType.refl (t : Message) : KeepsTensorType t t where
  elemType := rfl
  shape := by
    cases t.message? TensorTypeField.shape with
    | none => exact .none
    | some s => exact .some (List.forall₂_same.mpr fun d _ => .refl d)

variable {inner : Kind → Message → Prop}

lemma keepsDim_toMessage {d : Message}
    (hd : Kind.dimension.ConformsWith Value.isDefault inner d) :
    KeepsDim d (Dim.ofMessage d).toMessage := by
  constructor
  · intro w hw hlt
    have hword : (d.words DimField.value).head? = some w := by
      rw [words, hw]
      rfl
    have hdim : Dim.ofMessage d = .known w.toNat := by
      rw [Dim.ofMessage, hword]
      exact if_pos hlt
    rw [hdim, Dim.toMessage, values_ofValues, if_pos rfl, UInt64.ofNat_toNat]
  · intro s hs hne
    -- an extent with a name has no number
    have hnone : d.values DimField.value = [] := by
      by_contra hvalue
      have hparam : d.values DimField.param ≠ [] := by simp [hs]
      have heq := (hd.choice (Field.alternative DimField.param .text) (by decide) rfl hparam).2
        (Field.alternative DimField.value .int64) (by decide) rfl hvalue
      cases heq
    have hword : (d.words DimField.value).head? = none := by
      rw [words, hnone]
      rfl
    have htext : (d.texts DimField.param).head? = some s := by
      rw [texts, hs]
      rfl
    have hdim : Dim.ofMessage d = .param s := by
      rw [Dim.ofMessage, hword, htext]
      exact if_neg (by simpa using hne)
    rw [hdim, Dim.toMessage, values_ofValues, if_pos rfl]

lemma messages_dim_toMessage (s : Shape) :
    s.toMessage.messages ShapeField.dim = s.dims.map Dim.toMessage := by
  obtain ⟨hdims, _⟩ := List.forall₂_cons.mp (s.assembled_toMessage 0).values
  exact messages_eq hdims

lemma keepsDims_toMessage {s : Message} (hs : Kind.shape.Readable s) :
    List.Forall₂ KeepsDim (s.messages ShapeField.dim)
      ((Shape.ofMessage s).toMessage.messages ShapeField.dim) := by
  rw [messages_dim_toMessage, Shape.ofMessage, List.map_map, List.forall₂_map_right_iff,
    List.forall₂_same]
  intro d hd
  have hreadable : Kind.dimension.Readable d := hs.conformsWith.inner_of_mem_messages
    (show Field.inners ShapeField.dim .dimension ∈ Kind.shape.fields by decide) hd
  exact keepsDim_toMessage hreadable.conformsWith

/-- Whether the code of the element type is absent or that of a known type. -/
def HasKnownCode (t : Message) : Prop :=
  t.int32 TensorTypeField.elemType = 0 ∨
    ∃ e : ElemType, (t.int32 TensorTypeField.elemType).toInt = e.code

lemma elemCode_eq {c : Int32} {e : ElemType} (h : c.toInt = e.code) : elemCode (some e) = c := by
  have hcast : elemCode (some e) = Int32.ofInt (e.code : Int) := by
    cases e <;> rfl
  rw [hcast, ← h, Int32.ofInt_toInt]

lemma elemCode_ofCode? {c : Int32} (h : c = 0 ∨ ∃ e : ElemType, c.toInt = e.code) :
    elemCode (ElemType.ofCode? c.toInt) = c := by
  rcases h with rfl | ⟨e, he⟩
  · rfl
  · rw [ElemType.ofCode?_eq_some_iff.mpr he, elemCode_eq he]

lemma keepsTensorType_content {t : Message} (ht : Kind.tensorType.Readable t)
    (hcode : HasKnownCode t) : KeepsTensorType t (TensorType.ofMessage t).content := by
  have hvalues := ((TensorType.ofMessage t).assembled_content 0).values
  simp only [Kind.fields, List.forall₂_cons] at hvalues
  constructor
  · have helem : elemCode (TensorType.ofMessage t).elem? = t.int32 TensorTypeField.elemType :=
      elemCode_ofCode? hcode
    refine hvalues.1.trans ?_
    rw [helem]
    exact ht.conformsWith.rewrite_int32 (by decide)
  · have hshape : (TensorType.ofMessage t).content.message? TensorTypeField.shape =
        (TensorType.ofMessage t).shape?.map Shape.toMessage := message?_eq hvalues.2.1
    rw [hshape, TensorType.ofMessage]
    cases hs : t.message? TensorTypeField.shape with
    | none => exact .none
    | some s =>
      refine .some (keepsDims_toMessage ?_)
      exact ht.conformsWith.inner_of_mem_messages
        (show Field.inner TensorTypeField.shape .shape ∈ Kind.tensorType.fields by decide)
        (List.mem_of_head? hs)

/-! ### Described values -/

/-- A type of something that is no tensor, or of a tensor whose elements have an unknown code. -/
def IsForeign (type : Message) : Prop :=
  (∃ n ∈ [TypeField.sequence, TypeField.map, TypeField.sparseTensor, TypeField.optional],
    (type.message? n).isSome) ∨
    ∃ t, type.message? TypeField.tensor = some t ∧ ¬HasKnownCode t

lemma isForeignType_iff {type : Message} : isForeignType type = true ↔ IsForeign type := by
  have hcode (t : Message) : (t.int32 TensorTypeField.elemType != 0 &&
      (ElemType.ofCode? (t.int32 TensorTypeField.elemType).toInt).isNone) = true ↔
      ¬HasKnownCode t := by
    rw [HasKnownCode, not_or, Bool.and_eq_true, bne_iff_ne, Option.isNone_iff_eq_none,
      Option.eq_none_iff_forall_ne_some, not_exists]
    exact and_congr_right fun _ => forall_congr' fun _ => not_congr ElemType.ofCode?_eq_some_iff
  rw [isForeignType, Bool.or_eq_true, List.any_eq_true, Option.any_eq_true]
  exact or_congr_right <| exists_congr fun t => and_congr_right fun _ => hcode t

/-- The tensor type that a value is described by, and an empty message if there is none. -/
def storedTensorType (v : Message) : Message :=
  ((v.message? ValueField.type).bind fun type => type.message? TypeField.tensor).getD []

/-- The name and the remark stay, a type that no tensor has is not looked into, and a tensor type
tells the same. -/
structure KeepsValue (v v' : Message) : Prop where
  same : SameIn [ValueField.name, ValueField.doc] v v'
  foreign : ∀ type, v.message? ValueField.type = some type → IsForeign type →
    v'.values ValueField.type = v.values ValueField.type
  tensor : KeepsTensorType (storedTensorType v) (storedTensorType v')

lemma ValueInfo.values_toMessage (v : ValueInfo) :
    List.Forall₂ (fun f block => v.toMessage.values f.number = Message.values block f.number)
      Kind.valueInfo.fields v.blocks :=
  Kind.forall₂_values v.toMessage_eq <|
    .cons (fills_ofValue _ _) <| .cons (fills_ofValues _ _) <| .cons (fills_ofValue _ _) .nil

lemma storedTensorType_toMessage {v : ValueInfo} (hplain : v.foreign? = none) :
    storedTensorType v.toMessage = v.type.content := by
  have hvalues := v.values_toMessage
  simp only [Kind.fields, ValueInfo.blocks, List.forall₂_cons] at hvalues
  have htype : v.toMessage.message? ValueField.type = v.type? := message?_eq hvalues.2.1
  rw [storedTensorType, htype, ValueInfo.type?, hplain]
  dsimp only
  split_ifs with hunknown
  · generalize v.type = t at hunknown
    obtain ⟨elem?, shape?⟩ := t
    obtain ⟨rfl, rfl⟩ : elem? = none ∧ shape? = none := by
      simpa [TensorType.isUnknown] using hunknown
    rfl
  · rw [Option.bind_some, v.type.message?_toMessage, Option.getD_some]

/-- A value whose type is looked into; no type at all is read like an empty one. -/
lemma ValueInfo.ofMessage_of_not_isForeignType {v : Message}
    (h : ∀ type, v.message? ValueField.type = some type → ¬IsForeign type) :
    ValueInfo.ofMessage v =
      { name := v.text ValueField.name, doc := v.text ValueField.doc,
        type := TensorType.ofMessage (storedTensorType v) } := by
  unfold ValueInfo.ofMessage storedTensorType
  cases htype : v.message? ValueField.type with
  | none => rfl
  | some type =>
    rw [Option.bind_some]
    dsimp only
    rw [if_neg (mt isForeignType_iff.mp (h type htype))]
    cases type.message? TypeField.tensor with
    | none => rfl
    | some tensor => rfl

lemma ValueInfo.ofMessage_of_isForeignType {v type : Message}
    (htype : v.message? ValueField.type = some type) (h : IsForeign type) :
    ValueInfo.ofMessage v =
      { name := v.text ValueField.name, doc := v.text ValueField.doc, foreign? := some type } := by
  rw [ValueInfo.ofMessage, htype]
  exact if_pos (isForeignType_iff.mpr h)

lemma ValueInfo.texts_ofMessage (v : Message) :
    (ValueInfo.ofMessage v).name = v.text ValueField.name ∧
      (ValueInfo.ofMessage v).doc = v.text ValueField.doc := by
  by_cases h : ∃ type, v.message? ValueField.type = some type ∧ IsForeign type
  · obtain ⟨type, htype, hforeign⟩ := h
    rw [ValueInfo.ofMessage_of_isForeignType htype hforeign]
    exact ⟨rfl, rfl⟩
  · rw [ValueInfo.ofMessage_of_not_isForeignType fun type htype hforeign =>
      h ⟨type, htype, hforeign⟩]
    exact ⟨rfl, rfl⟩

lemma readable_nil (kind : Kind) : kind.Readable [] := by
  refine ⟨0, Kind.conforms_of_forall fun inner => ⟨?_, fun f _ => ?_, fun f _ _ hne => ?_⟩⟩
  · exact (List.flatMap_eq_nil_iff.mpr fun f _ => rfl).symm
  · exact Field.accepts_nil _ _ f
  · exact absurd rfl hne

lemma readable_storedTensorType {v : Message} (hv : Kind.valueInfo.Readable v) :
    Kind.tensorType.Readable (storedTensorType v) := by
  unfold storedTensorType
  cases htype : v.message? ValueField.type with
  | none => exact readable_nil _
  | some type =>
    have hreadable : Kind.type.Readable type := hv.conformsWith.inner_of_mem_messages
      (show Field.inner ValueField.type .type ∈ Kind.valueInfo.fields by decide)
      (List.mem_of_head? htype)
    rw [Option.bind_some]
    cases htensor : type.message? TypeField.tensor with
    | none => exact readable_nil _
    | some tensor =>
      exact hreadable.conformsWith.inner_of_mem_messages
        (show Field.inner TypeField.tensor .tensorType ∈ Kind.type.fields by decide)
        (List.mem_of_head? htensor)

lemma hasKnownCode_storedTensorType {v : Message}
    (h : ∀ type, v.message? ValueField.type = some type → ¬IsForeign type) :
    HasKnownCode (storedTensorType v) := by
  unfold storedTensorType
  cases htype : v.message? ValueField.type with
  | none => exact .inl rfl
  | some type =>
    rw [Option.bind_some]
    cases htensor : type.message? TypeField.tensor with
    | none => exact .inl rfl
    | some tensor =>
      by_contra hcode
      exact h type htype (.inr ⟨tensor, htensor, hcode⟩)

lemma keepsValue_toMessage {v : Message} (hv : Kind.valueInfo.Readable v) :
    KeepsValue v (ValueInfo.ofMessage v).toMessage := by
  have hvalues := (ValueInfo.ofMessage v).values_toMessage
  simp only [Kind.fields, ValueInfo.blocks, List.forall₂_cons] at hvalues
  obtain ⟨hname, htype, hdoc, -⟩ := hvalues
  obtain ⟨hreadName, hreadDoc⟩ := ValueInfo.texts_ofMessage v
  rw [hreadName] at hname
  rw [hreadDoc] at hdoc
  have hsame : SameIn [ValueField.name, ValueField.doc] v (ValueInfo.ofMessage v).toMessage := by
    simp only [SameIn, List.forall_mem_cons]
    refine ⟨hname.trans ?_, hdoc.trans ?_, List.forall_mem_nil _⟩
    · exact hv.conformsWith.rewrite_text (by decide)
    · exact hv.conformsWith.rewrite_text (by decide)
  by_cases hforeign : ∃ type, v.message? ValueField.type = some type ∧ IsForeign type
  · obtain ⟨type, hstored, hforeign⟩ := hforeign
    have hread := ValueInfo.ofMessage_of_isForeignType hstored hforeign
    have htype' : (ValueInfo.ofMessage v).type? = v.message? ValueField.type := by
      rw [hread, hstored]
      rfl
    rw [htype'] at htype
    refine ⟨hsame, fun _ _ _ => ?_, ?_⟩
    · exact htype.trans (hv.conformsWith.rewrite_message?
        (show Field.inner ValueField.type .type ∈ Kind.valueInfo.fields by decide))
    · have hwritten : (ValueInfo.ofMessage v).toMessage.message? ValueField.type =
          v.message? ValueField.type := message?_eq htype
      rw [storedTensorType, storedTensorType, hwritten]
      exact .refl _
  · have hplain : ∀ type, v.message? ValueField.type = some type → ¬IsForeign type :=
      fun type hstored h => hforeign ⟨type, hstored, h⟩
    have hread := ValueInfo.ofMessage_of_not_isForeignType hplain
    refine ⟨hsame, fun type hstored h => ?_, ?_⟩
    · exact absurd ⟨type, hstored, h⟩ hforeign
    · rw [storedTensorType_toMessage (by rw [hread]), hread]
      exact keepsTensorType_content (readable_storedTensorType hv)
        (hasKnownCode_storedTensorType hplain)

end TensorGraph
