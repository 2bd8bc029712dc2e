import TensorGraph.Model.Decode
import TensorGraph.Proofs.Storage.Assembly

/-!
# Types survive

A type comes back from its message, and so does a described value, but for extents that a file does
not tell from unknown ones. What was read can be stored: extents are below `2 ^ 63`, no name is
empty, and a type is kept as a message only if no tensor has it.
-/

namespace TensorGraph

open Wire Wire.Message

/-! ### Extents and shapes -/

/-- An extent that a file tells from the others. -/
def Dim.Storable : Dim → Prop
  | known n => n < 0x8000000000000000
  | param p => p ≠ ""
  | unknown => True

lemma Dim.storable_ofMessage (m : Message) : (Dim.ofMessage m).Storable := by
  unfold Dim.ofMessage
  split
  · split_ifs with hlt
    · exact hlt
    · trivial
  · split_ifs with hempty
    · trivial
    · simpa [Dim.Storable] using hempty
  · trivial

lemma accepts_alternative {absent : Value → Bool} {inner : Kind → Message → Prop} {number : Nat}
    {s : Scalar} {v : Value} (hv : (FieldType.scalar s).Admits inner v) :
    (Field.alternative number s).Accepts absent inner [v] :=
  ⟨List.forall_mem_singleton.mpr hv, nofun⟩

lemma Dim.conforms_toMessage (d : Dim) (limit : Nat) :
    Kind.dimension.Conforms Value.isNothing limit d.toMessage := by
  refine Kind.conforms_of_forall fun inner => ?_
  have hnil (f : Field) := Field.accepts_nil Value.isNothing inner f
  cases d with
  | known n =>
    refine ⟨rfl, ?_, ?_⟩
    · exact List.forall_mem_cons.mpr ⟨accepts_alternative trivial,
        List.forall_mem_cons.mpr ⟨hnil _, List.forall_mem_singleton.mpr (hnil _)⟩⟩
    · simp [Kind.fields, Field.alternative, Field.one, Dim.toMessage, DimField.value,
        DimField.param]
  | param p =>
    refine ⟨rfl, ?_, ?_⟩
    · exact List.forall_mem_cons.mpr ⟨hnil _,
        List.forall_mem_cons.mpr ⟨accepts_alternative trivial,
          List.forall_mem_singleton.mpr (hnil _)⟩⟩
    · simp [Kind.fields, Field.alternative, Field.one, Dim.toMessage, DimField.value,
        DimField.param]
  | unknown =>
    refine ⟨rfl, ?_, ?_⟩
    · exact fun f _ => hnil f
    · exact fun f _ _ hne => absurd rfl hne

/-- An extent as a file gives it back: numbers are stored as signed words, of which the negative
ones say nothing, and so does an empty name. -/
def Dim.reread : Dim → Dim
  | known n =>
    if n % 0x10000000000000000 < 0x8000000000000000 then known (n % 0x10000000000000000)
    else unknown
  | param p => if p.isEmpty then unknown else param p
  | unknown => unknown

lemma Dim.ofMessage_toMessage (d : Dim) : Dim.ofMessage d.toMessage = d.reread := by
  cases d with
  | known n =>
    have hword : (UInt64.ofNat n).toNat = n % 0x10000000000000000 := UInt64.toNat_ofNat'
    have hwords : (Dim.known n).toMessage.words DimField.value = [UInt64.ofNat n] := by
      simp [Dim.toMessage, Message.words, Value.word?]
    rw [Dim.ofMessage, hwords, List.head?_cons]
    dsimp only
    rw [hword, Dim.reread]
  | param p =>
    simp [Dim.ofMessage, Dim.toMessage, Dim.reread, Message.words, Message.texts, Value.text?]
  | unknown => rfl

lemma Dim.reread_eq_self_iff {d : Dim} : d.reread = d ↔ d.Storable := by
  cases d with
  | known n =>
    unfold Dim.reread Dim.Storable
    dsimp only
    split_ifs with hlt
    · rw [Dim.known.injEq]
      omega
    · constructor
      · nofun
      · intro hn
        omega
  | param p =>
    unfold Dim.reread Dim.Storable
    dsimp only
    split_ifs with hempty
    · simpa using hempty
    · simpa using hempty
  | unknown => exact ⟨fun _ => trivial, fun _ => rfl⟩

/-- A shape with extents that a file tells from the others. -/
def Shape.Storable (s : Shape) : Prop := ∀ d ∈ s.dims, d.Storable

lemma Shape.storable_ofMessage (m : Message) : (Shape.ofMessage m).Storable := by
  intro d hd
  obtain ⟨dim, _, rfl⟩ := List.mem_map.mp hd
  exact Dim.storable_ofMessage dim

lemma Shape.assembled_toMessage (s : Shape) (limit : Nat) :
    Kind.shape.Assembled (Kind.Conforms Value.isNothing limit) [s.toMessage] s.toMessage where
  flatten_eq := by simp
  holds := by
    refine .cons (holds_ofMessages _ fun m hm => ?_) .nil
    obtain ⟨d, _, rfl⟩ := List.mem_map.mp hm
    exact d.conforms_toMessage limit

/-- A shape as a file gives it back. -/
def Shape.reread (s : Shape) : Shape := ⟨s.dims.map Dim.reread⟩

lemma Shape.ofMessage_toMessage (s : Shape) : Shape.ofMessage s.toMessage = s.reread := by
  obtain ⟨hdims, _⟩ := List.forall₂_cons.mp (s.assembled_toMessage 0).values
  have hdims : s.toMessage.messages ShapeField.dim = s.dims.map Dim.toMessage := messages_eq hdims
  have hsame : s.dims.map (Dim.ofMessage ∘ Dim.toMessage) = s.dims.map Dim.reread :=
    List.map_congr_left fun d _ => d.ofMessage_toMessage
  rw [Shape.ofMessage, hdims, List.map_map, hsame, Shape.reread]

lemma Shape.reread_eq_self_iff {s : Shape} : s.reread = s ↔ s.Storable := by
  obtain ⟨dims⟩ := s
  have hmap : dims.map Dim.reread = dims ↔ ∀ d ∈ dims, d.reread = d := by
    conv_lhs => rhs; rw [← List.map_id dims]
    exact List.map_inj_left
  rw [Shape.reread, Shape.mk.injEq, hmap]
  exact forall₂_congr fun _ _ => Dim.reread_eq_self_iff

lemma Shape.conforms_toMessage (s : Shape) (limit : Nat) :
    Kind.shape.Conforms Value.isNothing (limit + 1) s.toMessage :=
  (s.assembled_toMessage limit).conformsWith (by decide)

/-! ### Tensor types -/

lemma ofCode?_elemCode (elem? : Option ElemType) :
    ElemType.ofCode? (elemCode elem?).toInt = elem? := by
  cases elem? with
  | none => rfl
  | some t => cases t <;> rfl

/-- A tensor type with extents that a file tells from the others. -/
def TensorType.Storable (t : TensorType) : Prop := ∀ s, t.shape? = some s → s.Storable

lemma TensorType.storable_unknown : TensorType.unknown.Storable := nofun

lemma TensorType.storable_ofMessage (m : Message) : (TensorType.ofMessage m).Storable := by
  intro s hs
  obtain ⟨shape, _, rfl⟩ := Option.map_eq_some_iff.mp hs
  exact Shape.storable_ofMessage shape

/-- The message of a tensor type, without the type message around it. -/
def TensorType.content (t : TensorType) : Message :=
  ofInt32 TensorTypeField.elemType (elemCode t.elem?) ++
    ofMessage? TensorTypeField.shape (t.shape?.map Shape.toMessage)

lemma TensorType.assembled_content (t : TensorType) (limit : Nat) :
    Kind.tensorType.Assembled (Kind.Conforms Value.isNothing (limit + 1))
      [ofInt32 TensorTypeField.elemType (elemCode t.elem?),
        ofMessage? TensorTypeField.shape (t.shape?.map Shape.toMessage)] t.content where
  flatten_eq := by simp [TensorType.content]
  holds := by
    refine .cons (holds_ofInt32 _ _) (.cons (holds_ofMessage? _ fun m hm => ?_) .nil)
    obtain ⟨s, _, rfl⟩ := Option.map_eq_some_iff.mp hm
    exact s.conforms_toMessage limit

lemma TensorType.int32_content (t : TensorType) :
    t.content.int32 TensorTypeField.elemType = elemCode t.elem? := by
  obtain ⟨helem, _⟩ := List.forall₂_cons.mp (t.assembled_content 0).values
  exact int32_eq helem

/-- A type as a file gives it back. -/
def TensorType.reread (t : TensorType) : TensorType := ⟨t.elem?, t.shape?.map Shape.reread⟩

lemma TensorType.ofMessage_content (t : TensorType) :
    TensorType.ofMessage t.content = t.reread := by
  have hvalues := (t.assembled_content 0).values
  simp only [Kind.fields, List.forall₂_cons] at hvalues
  have hshape : t.content.message? TensorTypeField.shape = t.shape?.map Shape.toMessage :=
    message?_eq hvalues.2.1
  have hsame : (t.shape?.map Shape.toMessage).map Shape.ofMessage = t.shape?.map Shape.reread := by
    rw [Option.map_map]
    exact congrFun (congrArg Option.map (funext Shape.ofMessage_toMessage)) t.shape?
  rw [TensorType.ofMessage, t.int32_content, ofCode?_elemCode, hshape, hsame, TensorType.reread]

lemma TensorType.reread_eq_self_iff {t : TensorType} : t.reread = t ↔ t.Storable := by
  obtain ⟨elem?, shape?⟩ := t
  cases shape? with
  | none => exact ⟨fun _ => nofun, fun _ => rfl⟩
  | some s =>
    have hshape : (⟨elem?, some s⟩ : TensorType).Storable ↔ s.Storable :=
      ⟨fun h => h s rfl, fun h s' hs' => Option.some.inj hs' ▸ h⟩
    rw [hshape, ← Shape.reread_eq_self_iff]
    simp [TensorType.reread]

lemma TensorType.assembled_toMessage (t : TensorType) (limit : Nat) :
    Kind.type.Assembled (Kind.Conforms Value.isNothing (limit + 2))
      [ofMessage? TypeField.tensor (some t.content), [], [], [], [], []] t.toMessage where
  flatten_eq := by simp [TensorType.toMessage, TensorType.content]
  holds := by
    have hnil (f : Field) : f.Holds (Kind.Conforms Value.isNothing (limit + 2)) [] := holds_nil f
    refine .cons (holds_ofMessage? _ fun m hm => ?_)
      (.cons (hnil _) (.cons (hnil _) (.cons (hnil _) (.cons (hnil _) (.cons (hnil _) .nil)))))
    obtain rfl := Option.some.inj hm
    exact (t.assembled_content limit).conformsWith (by decide)

lemma TensorType.conforms_toMessage (t : TensorType) (limit : Nat) :
    Kind.type.Conforms Value.isNothing (limit + 3) t.toMessage :=
  (t.assembled_toMessage limit).conformsWith (by decide)

/-! ### Described values -/

lemma Wire.Kind.ConformsWith.inner_of_mem_messages {absent : Value → Bool}
    {inner : Kind → Message → Prop} {kind k : Kind} {m : Message} {number : Nat}
    {occurs : Occurrence} (hm : kind.ConformsWith absent inner m)
    (hf : ⟨number, .message k, occurs⟩ ∈ kind.fields) {fields : Message}
    (hfields : fields ∈ m.messages number) : inner k fields := by
  obtain ⟨v, hv, hmessage⟩ := List.mem_filterMap.mp hfields
  have hadmits := (hm.accepts _ hf).admits v hv
  cases v with
  | message w =>
    obtain rfl := Option.some.inj hmessage
    exact hadmits
  | _ => exact absurd hadmits id

/-- A described value that can be written: a type that was kept as a message is one that no tensor
has. -/
def ValueInfo.Writable (limit : Nat) (v : ValueInfo) : Prop :=
  ∀ m, v.foreign? = some m →
    v.type = .unknown ∧ isForeignType m = true ∧ Kind.type.Conforms Value.isNothing limit m

/-- A described value that comes back from a file. -/
structure ValueInfo.Storable (limit : Nat) (v : ValueInfo) : Prop where
  type : v.type.Storable
  writable : v.Writable limit

lemma ValueInfo.storable_ofMessage {limit : Nat} {m : Message}
    (hm : Kind.valueInfo.Conforms Value.isDefault (limit + 1) m) :
    (ValueInfo.ofMessage m).Storable limit := by
  unfold ValueInfo.ofMessage
  split
  · exact ⟨TensorType.storable_unknown, nofun⟩
  · rename_i type htype
    split_ifs with hforeign
    · refine ⟨TensorType.storable_unknown, fun m hm' => ?_⟩
      obtain rfl := Option.some.inj hm'
      have hconforms : Kind.type.Conforms Value.isDefault limit type :=
        hm.inner_of_mem_messages
          (show Field.inner ValueField.type .type ∈ Kind.valueInfo.fields by decide)
          (List.mem_of_head? htype)
      exact ⟨rfl, hforeign, hconforms.isNothing rfl⟩
    · split
      · exact ⟨TensorType.storable_unknown, nofun⟩
      · exact ⟨TensorType.storable_ofMessage _, nofun⟩

/-- The stored type of a value. -/
def ValueInfo.type? (v : ValueInfo) : Option Message :=
  match v.foreign? with
  | some type => some type
  | none => if v.type.isUnknown then none else some v.type.toMessage

/-- The blocks of the message of a value. -/
def ValueInfo.blocks (v : ValueInfo) : List Message :=
  [ofText ValueField.name v.name, ofMessage? ValueField.type v.type?, ofText ValueField.doc v.doc]

lemma ValueInfo.toMessage_eq (v : ValueInfo) : v.toMessage = v.blocks.flatten := by
  change ofText ValueField.name v.name ++ ofMessage? ValueField.type v.type? ++
    ofText ValueField.doc v.doc = _
  simp [blocks]

lemma ValueInfo.assembled_toMessage {limit : Nat} {v : ValueInfo}
    (hv : v.Writable (limit + 3)) :
    Kind.valueInfo.Assembled (Kind.Conforms Value.isNothing (limit + 3)) v.blocks v.toMessage where
  flatten_eq := v.toMessage_eq
  holds := by
    refine .cons (holds_ofText _ _)
      (.cons (holds_ofMessage? _ fun m hm => ?_) (.cons (holds_ofText _ _) .nil))
    unfold ValueInfo.type? at hm
    split at hm
    · rename_i type hforeign
      obtain rfl := Option.some.inj hm
      exact (hv type hforeign).2.2
    · split_ifs at hm
      obtain rfl := Option.some.inj hm
      exact v.type.conforms_toMessage limit

lemma ValueInfo.conforms_toMessage {limit : Nat} {v : ValueInfo} (hv : v.Writable (limit + 3)) :
    Kind.valueInfo.Conforms Value.isNothing (limit + 4) v.toMessage :=
  (ValueInfo.assembled_toMessage hv).conformsWith (by decide)

lemma TensorType.message?_toMessage (t : TensorType) :
    t.toMessage.message? TypeField.tensor = some t.content := by
  have hvalues := (t.assembled_toMessage 0).values
  simp only [Kind.fields, List.forall₂_cons] at hvalues
  exact message?_eq hvalues.1

lemma TensorType.not_isForeignType_toMessage (t : TensorType) :
    isForeignType t.toMessage = false := by
  have hvalues := (t.assembled_toMessage 0).values
  simp only [Kind.fields, List.forall₂_cons] at hvalues
  obtain ⟨-, hsequence, hmap, -, hsparse, hoptional, -⟩ := hvalues
  have hsequence : t.toMessage.message? TypeField.sequence = none := message?_eq hsequence
  have hmap : t.toMessage.message? TypeField.map = none := message?_eq hmap
  have hsparse : t.toMessage.message? TypeField.sparseTensor = none := message?_eq hsparse
  have hoptional : t.toMessage.message? TypeField.optional = none := message?_eq hoptional
  have hcode : (t.content.int32 TensorTypeField.elemType != 0 &&
      (ElemType.ofCode? (t.content.int32 TensorTypeField.elemType).toInt).isNone) = false := by
    rw [t.int32_content, ofCode?_elemCode]
    cases h : t.elem? with
    | none => rfl
    | some e => simp
  rw [isForeignType, t.message?_toMessage, Option.any_some, hcode]
  simp only [List.any_cons, List.any_nil, hsequence, hmap, hsparse, hoptional, Option.isSome_none,
    Bool.or_false]

/-- A described value as a file gives it back. -/
def ValueInfo.reread (v : ValueInfo) : ValueInfo := { v with type := v.type.reread }

/-- A described value comes back from its message, with the extents that a file can hold. -/
theorem ValueInfo.ofMessage_toMessage {limit : Nat} {v : ValueInfo}
    (hv : v.Writable (limit + 3)) : ValueInfo.ofMessage v.toMessage = v.reread := by
  have hvalues := (ValueInfo.assembled_toMessage hv).values
  simp only [Kind.fields, blocks, List.forall₂_cons] at hvalues
  have hname : v.toMessage.text ValueField.name = v.name := text_eq hvalues.1
  have htype : v.toMessage.message? ValueField.type = v.type? := message?_eq hvalues.2.1
  have hdoc : v.toMessage.text ValueField.doc = v.doc := text_eq hvalues.2.2.1
  rw [ValueInfo.ofMessage, hname, htype, hdoc]
  obtain ⟨name, type, doc, foreign?⟩ := v
  cases foreign? with
  | some m =>
    obtain ⟨hunknown, hforeign, -⟩ := hv m rfl
    obtain rfl : type = .unknown := hunknown
    simp only [ValueInfo.type?, hforeign, if_true]
    rfl
  | none =>
    simp only [ValueInfo.type?]
    split_ifs with hunknown
    · obtain ⟨elem?, shape?⟩ := type
      simp_all [TensorType.isUnknown, TensorType.unknown, ValueInfo.reread, TensorType.reread]
    · simp only [type.not_isForeignType_toMessage, type.message?_toMessage,
        TensorType.ofMessage_content, Bool.false_eq_true, if_false]
      rfl

lemma ValueInfo.reread_eq_self_iff {v : ValueInfo} : v.reread = v ↔ v.type.Storable := by
  rw [← TensorType.reread_eq_self_iff]
  constructor
  · exact fun h => congrArg ValueInfo.type h
  · intro h
    rw [ValueInfo.reread, h]

end TensorGraph
