import TensorGraph.Proofs.Wire.Reading
import TensorGraph.Proofs.Wire.Writing

/-!
# Messages survive

A message that conforms to its kind and holds no value that would be left out is read back from its
bytes as it was.
-/

namespace TensorGraph.Wire

lemma Value.isDefault_eq_false {v : Value} (hv : v.isNothing = false) : v.isDefault = false := by
  cases v <;> simp_all [Value.isNothing, Value.isDefault, Binary.isZero32]

section Fields

variable {inner : Kind → List Bytes → Option Message} {Inner : Kind → Message → Prop}
  {kind : Kind} {records : List (Nat × RawValue)}

/-! ### Fields -/

lemma mapM_ofRaw?_raw {s : Scalar} {vs : List Value}
    (hvs : ∀ v ∈ vs, (FieldType.scalar s).Admits Inner v) :
    (vs.map (Value.raw (.scalar s))).mapM s.ofRaw? = some vs := by
  have hmap := mapM_map_eq_some (h := id) fun v hv => Scalar.ofRaw?_raw (hvs v hv)
  rwa [List.map_id] at hmap

lemma Kind.decodeField?_scalar {number : Nat} {s : Scalar} {occurs : Occurrence}
    {vs : List Value} (hpackable : occurs = .packed → s.isPackable = true)
    (hread : kind.IsRead Value.isNothing Inner records ⟨number, .scalar s, occurs⟩ vs)
    (hown : under number records = Field.raws ⟨number, .scalar s, occurs⟩ vs)
    (hlength : (Field.write ⟨number, .scalar s, occurs⟩
      (vs.map (Value.body (.scalar s)))).length < 2 ^ 64) :
    kind.decodeField? inner records ⟨number, .scalar s, occurs⟩ =
      some (Message.ofValues number vs) := by
  have hadmits : ∀ v ∈ vs, (FieldType.scalar s).Admits Inner v := hread.accepts.admits
  cases occurs with
  | single =>
    obtain ⟨hshort, habsent⟩ := hread.accepts.single rfl
    change ((under number records).mapM s.ofRaw?).map _ = _
    rw [hown, Field.raws_of_ne_packed (by simp), mapM_ofRaw?_raw hadmits, Option.map_some]
    cases vs with
    | nil => rfl
    | cons v ws =>
      obtain rfl : ws = [] := List.length_eq_zero_iff.mp (by simpa using hshort)
      have hdefault := Value.isDefault_eq_false (habsent v List.mem_cons_self)
      simp [Message.ofValue, Message.ofValues, hdefault]
  | choice =>
    change ((under number records).mapM s.ofRaw?).map _ = _
    rw [hown, Field.raws_of_ne_packed (by simp), mapM_ofRaw?_raw hadmits, Option.map_some]
    cases vs with
    | nil =>
      split
      · split_ifs <;> rfl
      · rfl
    | cons v ws =>
      obtain ⟨hshort, hlast⟩ := hread.last rfl (List.cons_ne_nil v ws)
      obtain ⟨record, hrecord, hnumber⟩ := Option.map_eq_some_iff.mp hlast
      rw [hrecord]
      obtain rfl : ws = [] := List.length_eq_zero_iff.mp (by simpa using hshort)
      simp [hnumber]
  | repeated =>
    change ((under number records).mapM s.valuesOfRaw?).map _ = _
    rw [hown, Field.raws_of_ne_packed (by simp),
      mapM_map_eq_some fun v hv => Scalar.valuesOfRaw?_raw (hadmits v hv), Option.map_some,
      ← List.flatMap_def, List.flatMap_singleton']
  | packed =>
    change ((under number records).mapM s.valuesOfRaw?).map _ = _
    rw [hown]
    have hflatten := Field.length_flatten_le (f := ⟨number, .scalar s, .packed⟩) rfl vs
    have hchunk := Scalar.valuesOfRaw?_chunk (hpackable rfl) hadmits
      (Nat.lt_of_le_of_lt hflatten hlength)
    cases vs with
    | nil => rfl
    | cons v vs =>
      simp only [Field.raws, List.isEmpty_cons, Bool.false_eq_true, if_false, List.mapM_cons,
        hchunk]
      simp

lemma exists_eq_map_message {k : Kind} {vs : List Value}
    (hvs : ∀ v ∈ vs, (FieldType.message k).Admits Inner v) :
    ∃ ms : List Message, vs = ms.map .message ∧ ∀ m ∈ ms, Inner k m := by
  induction vs with
  | nil => exact ⟨[], rfl, nofun⟩
  | cons v vs ih =>
    rw [List.forall_mem_cons] at hvs
    obtain ⟨ms, rfl, hms⟩ := ih hvs.2
    cases v with
    | message m => exact ⟨m :: ms, rfl, List.forall_mem_cons.mpr ⟨hvs.1, hms⟩⟩
    | _ => exact absurd hvs.1 id

lemma Kind.decodeField?_message {number : Nat} {k : Kind} {occurs : Occurrence}
    {vs : List Value} (hoccurs : occurs = .single ∨ occurs = .repeated)
    (hinner : ∀ k m, Inner k m → (m.encode k).length < 2 ^ 64 → inner k [m.encode k] = some m)
    (hread : kind.IsRead Value.isNothing Inner records ⟨number, .message k, occurs⟩ vs)
    (hown : under number records = Field.raws ⟨number, .message k, occurs⟩ vs)
    (hlength : (Field.write ⟨number, .message k, occurs⟩
      (vs.map (Value.body (.message k)))).length < 2 ^ 64) :
    kind.decodeField? inner records ⟨number, .message k, occurs⟩ =
      some (Message.ofValues number vs) := by
  have hpacked : occurs ≠ .packed := by rcases hoccurs with rfl | rfl <;> simp
  obtain ⟨ms, rfl, hms⟩ := exists_eq_map_message hread.accepts.admits
  have hdecode : ∀ m ∈ ms, inner k [m.encode k] = some m := by
    intro m hm
    refine hinner k m (hms m hm) (Nat.lt_of_le_of_lt ?_ hlength)
    have hbody := Field.length_body_le (f := ⟨number, .message k, occurs⟩) hpacked
      (List.mem_map_of_mem (f := Value.message) hm)
    exact Nat.le_trans (length_le_length_writeChunk _) hbody
  have hchunks : (under number records).mapM RawValue.chunk? =
      some (ms.map fun m => m.encode k) := by
    rw [hown, Field.raws_of_ne_packed hpacked, List.map_map]
    exact mapM_map_eq_some fun m _ => rfl
  rcases hoccurs with rfl | rfl
  · change ((under number records).mapM RawValue.chunk?).bind _ = _
    obtain ⟨hshort, _⟩ := hread.accepts.single rfl
    rw [hchunks, Option.bind_some]
    cases ms with
    | nil => rfl
    | cons m ns =>
      obtain rfl : ns = [] := List.length_eq_zero_iff.mp (by simpa using hshort)
      simp [hdecode m List.mem_cons_self, Message.ofMessages]
  · change ((under number records).mapM RawValue.chunk?).bind _ = _
    have hms' := mapM_map_eq_some (f := fun b => inner k [b]) (h := id) hdecode
    rw [hchunks, Option.bind_some, hms', List.map_id]
    rfl

lemma Kind.decodeField?_of_isRead {f : Field} {vs : List Value} (hf : f ∈ kind.fields)
    (hinner : ∀ k m, Inner k m → (m.encode k).length < 2 ^ 64 → inner k [m.encode k] = some m)
    (hread : kind.IsRead Value.isNothing Inner records f vs)
    (hown : under f.number records = f.raws vs)
    (hlength : (f.write (vs.map (Value.body f.type))).length < 2 ^ 64) :
    kind.decodeField? inner records f = some (Message.ofValues f.number vs) := by
  obtain ⟨number, type, occurs⟩ := f
  have hform := kind.occurs_form _ hf
  cases type with
  | scalar s => exact Kind.decodeField?_scalar (hform.1 s rfl) hread hown hlength
  | message k => exact Kind.decodeField?_message (hform.2 k rfl) hinner hread hown hlength

end Fields

/-! ### Messages -/

section Messages

variable {inner : Kind → List Bytes → Option Message} {Inner : Kind → Message → Prop}
  {kind : Kind} {m : Message}

lemma Kind.ConformsWith.encode_eq (hm : kind.ConformsWith Value.isNothing Inner m) :
    m.encode kind =
      kind.fields.flatMap fun f => f.write ((m.values f.number).map (Value.body f.type)) := by
  rw [Message.encode_eq]
  refine List.flatMap_congr fun f hf => ?_
  have hkept : ∀ v ∈ m.values f.number, (!f.omits v) = true := by
    intro v hv
    unfold Field.omits
    cases hsingle : f.occurs == .single with
    | false => rfl
    | true =>
      have habsent := ((hm.accepts f hf).single (by simpa using hsingle)).2 v hv
      simp [habsent]
  rw [List.filter_eq_self.mpr hkept]

/-- The records that a reader gets for a message. -/
def Message.records (kind : Kind) (m : Message) : List (Nat × RawValue) :=
  kind.fields.flatMap fun f => (f.raws (m.values f.number)).map fun raw => (f.number, raw)

lemma Field.raws_nil (f : Field) : f.raws [] = [] := by
  unfold Field.raws
  split <;> rfl

lemma map_getLast?_filter {α β : Type} {p : α → Bool} {as : List α} {g : α → β} {b : β}
    (hsome : ∃ a ∈ as, p a = true) (hb : ∀ a ∈ as, p a = true → g a = b) :
    (as.filter p).getLast?.map g = some b := by
  obtain ⟨a, ha, hp⟩ := hsome
  have hne : as.filter p ≠ [] := List.ne_nil_of_mem (List.mem_filter.mpr ⟨ha, hp⟩)
  obtain ⟨hmem, hlast⟩ := List.mem_filter.mp (List.getLast_mem hne)
  rw [List.getLast?_eq_some_getLast hne, Option.map_some, hb _ hmem hlast]

lemma Kind.ConformsWith.number_eq_of_isChoice (hm : kind.ConformsWith Value.isNothing Inner m)
    {f : Field} (hf : f ∈ kind.fields) (hchoice : f.occurs = .choice)
    (hne : m.values f.number ≠ []) {record : Nat × RawValue} (hrecord : record ∈ m.records kind)
    (hisChoice : kind.isChoice record.1 = true) : record.1 = f.number := by
  obtain ⟨g, hg, hraw⟩ := List.mem_flatMap.mp hrecord
  obtain ⟨raw, hraws, rfl⟩ := List.mem_map.mp hraw
  have hgchoice : g.occurs = .choice := by
    simpa [Kind.isChoice, Kind.field?_of_mem hg] using hisChoice
  have hgne : m.values g.number ≠ [] := by
    intro hnil
    rw [hnil, Field.raws_nil] at hraws
    exact List.not_mem_nil hraws
  rw [(hm.choice f hf hchoice hne).2 g hg hgchoice hgne]

lemma Message.exists_record_of_values_ne_nil {f : Field} (hf : f ∈ kind.fields)
    (hpacked : f.occurs ≠ .packed) (hne : m.values f.number ≠ []) :
    ∃ raw, (f.number, raw) ∈ m.records kind := by
  obtain ⟨v, vs, hvs⟩ := List.exists_cons_of_ne_nil hne
  refine ⟨v.raw f.type, List.mem_flatMap.mpr ⟨f, hf, List.mem_map_of_mem ?_⟩⟩
  rw [Field.raws_of_ne_packed hpacked, hvs]
  exact List.mem_cons_self

lemma Kind.ConformsWith.isRead (hm : kind.ConformsWith Value.isNothing Inner m) {f : Field}
    (hf : f ∈ kind.fields) :
    kind.IsRead Value.isNothing Inner (m.records kind) f (m.values f.number) := by
  refine ⟨hm.accepts f hf, fun hchoice hne => ⟨(hm.choice f hf hchoice hne).1, ?_⟩⟩
  obtain ⟨raw, hraw⟩ := Message.exists_record_of_values_ne_nil hf (by simp [hchoice]) hne
  have hisChoice : kind.isChoice f.number = true := by
    simp [Kind.isChoice, Kind.field?_of_mem hf, hchoice]
  exact map_getLast?_filter ⟨(f.number, raw), hraw, hisChoice⟩ fun record hmem hlast =>
    hm.number_eq_of_isChoice hf hchoice hne hmem hlast

lemma Kind.ConformsWith.decodeWith?_encode {limit : Nat}
    (hinner : ∀ k m, Inner k m → (m.encode k).length < 2 ^ 64 → inner k [m.encode k] = some m)
    (hm : kind.ConformsWith Value.isNothing Inner m) (hlength : (m.encode kind).length < 2 ^ 64) :
    kind.decodeWith? inner limit [m.encode kind] = some m := by
  have hencode := hm.encode_eq
  rw [hencode] at hlength
  have hknown : ∀ f ∈ kind.fields,
      (kind.field? f.number).isSome = true ∧ 1 ≤ f.number ∧ f.number < 2 ^ 29 := fun f hf =>
    ⟨by rw [Kind.field?_of_mem hf]; rfl, kind.number_bounds f hf⟩
  have hrecords : readRecords (fun n => (kind.field? n).isSome) limit (m.encode kind) =
      some (m.records kind) := by
    rw [hencode]
    exact readRecords_flatMap hknown (fun f hf => (hm.accepts f hf).admits) hlength
  have hfields : kind.fields.mapM (kind.decodeField? inner (m.records kind)) =
      some (kind.fields.map fun f => Message.ofValues f.number (m.values f.number)) := by
    refine mapM_eq_some_of_forall fun f hf =>
      Kind.decodeField?_of_isRead hf hinner (hm.isRead hf)
        (under_flatMap kind.numbers_nodup _ hf) ?_
    refine Nat.lt_of_le_of_lt ?_ hlength
    obtain ⟨before, after, hsplit⟩ := List.append_of_mem hf
    rw [hsplit]
    simp only [List.flatMap_append, List.flatMap_cons, List.length_append]
    omega
  rw [Kind.decodeWith?]
  simp only [List.mapM_cons, List.mapM_nil, hrecords, Option.pure_def, Option.bind_eq_bind,
    Option.bind_some, List.flatten_cons, List.flatten_nil, List.append_nil, hfields,
    Option.map_some]
  rw [← List.flatMap_def, ← hm.ordered]

end Messages

/-- A message that conforms and holds nothing that would be left out is read back from its bytes. -/
theorem Kind.decodeNested?_encode {limit : Nat} {kind : Kind} {m : Message}
    (hm : kind.Conforms Value.isNothing limit m) (hlength : (m.encode kind).length < 2 ^ 64) :
    kind.decodeNested? limit [m.encode kind] = some m := by
  induction limit generalizing kind m with
  | zero => exact Kind.ConformsWith.decodeWith?_encode (fun _ _ hfalse => hfalse.elim) hm hlength
  | succ limit ih => exact Kind.ConformsWith.decodeWith?_encode (fun _ _ => ih) hm hlength

end TensorGraph.Wire
