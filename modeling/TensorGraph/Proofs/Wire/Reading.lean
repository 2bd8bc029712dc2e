import TensorGraph.Proofs.Results
import TensorGraph.Proofs.Wire.Conformance

/-!
# What is read conforms

Whatever bytes a message was read from, its values are ordered by field number, each is of the type
of its field, and no field has more values than it may have.
-/

namespace TensorGraph.Wire

/-! ### Values -/

lemma toInt32_toUInt32_toInt64 (x : Int32) : x.toInt64.toUInt64.toUInt32.toInt32 = x := by
  have hcut : x.toInt64.toUInt64.toUInt32.toInt32 = x.toInt64.toInt32 := by
    apply Int32.toBitVec_inj.mp
    exact (BitVec.signExtend_eq_setWidth_of_le x.toInt64.toBitVec (Nat.le_add_left 32 32)).symm
  rw [hcut, Int32.toInt32_toInt64]

lemma signExtend32_toNat (x : Int32) :
    signExtend32 x.toInt64.toUInt64.toNat = x.toInt64.toUInt64 := by
  unfold signExtend32
  rw [UInt32.ofNat_uInt64ToNat, toInt32_toUInt32_toInt64]

lemma Scalar.admits_of_ofRaw? {s : Scalar} {raw : RawValue} {v : Value}
    {inner : Kind → Message → Prop} (h : s.ofRaw? raw = some v) :
    (FieldType.scalar s).Admits inner v := by
  unfold Scalar.ofRaw? at h
  split at h <;> simp at h
  · subst h
    exact (signExtend32_toNat _).symm
  · subst h; trivial
  · subst h; trivial
  · subst h; trivial
  · subst h; trivial
  · obtain ⟨t, _, rfl⟩ := h; trivial
  · subst h; trivial

lemma Scalar.admits_of_unpack? {s : Scalar} {chunk : Bytes} {vs : List Value}
    {inner : Kind → Message → Prop} (h : s.unpack? chunk = some vs) :
    ∀ v ∈ vs, (FieldType.scalar s).Admits inner v := by
  fun_induction Scalar.unpack? s chunk generalizing vs with
  | case1 => simp_all
  | case2 => simp at h
  | case3 b tail raw rest hraw hlt ih =>
    obtain ⟨v, hv, hmap⟩ := Option.bind_eq_some_iff.mp h
    obtain ⟨ws, hws, rfl⟩ := Option.map_eq_some_iff.mp hmap
    exact List.forall_mem_cons.mpr ⟨Scalar.admits_of_ofRaw? hv, ih hws⟩
  | case4 => simp at h

lemma Scalar.admits_of_valuesOfRaw? {s : Scalar} {raw : RawValue} {vs : List Value}
    {inner : Kind → Message → Prop} (h : s.valuesOfRaw? raw = some vs) :
    ∀ v ∈ vs, (FieldType.scalar s).Admits inner v := by
  have hone (hraw : (s.ofRaw? raw).map (fun v => [v]) = some vs) :
      ∀ v ∈ vs, (FieldType.scalar s).Admits inner v := by
    obtain ⟨v, hv, rfl⟩ := Option.map_eq_some_iff.mp hraw
    exact List.forall_mem_singleton.mpr (Scalar.admits_of_ofRaw? hv)
  cases raw with
  | chunk b =>
    unfold Scalar.valuesOfRaw? at h
    dsimp only at h
    split_ifs at h
    · exact Scalar.admits_of_unpack? h
    · exact hone h
  | varint n => exact hone h
  | fixed32 n => exact hone h
  | fixed64 n => exact hone h

/-! ### Fields -/

section Fields

variable {inner : Kind → List Bytes → Option Message} {Inner : Kind → Message → Prop}
  {kind : Kind} {records : List (Nat × RawValue)}

/-- What one field has among the records: values that it accepts, and of several alternatives only
the one that came last has any. -/
structure Kind.IsRead (absent : Value → Bool) (Inner : Kind → Message → Prop) (kind : Kind)
    (records : List (Nat × RawValue)) (f : Field) (vs : List Value) : Prop where
  accepts : f.Accepts absent Inner vs
  last : f.occurs = .choice → vs ≠ [] → vs.length ≤ 1 ∧
    (records.filter fun (n, _) => kind.isChoice n).getLast?.map Prod.fst = some f.number

lemma length_toList_le_one {α : Type} (o : Option α) : o.toList.length ≤ 1 := by
  cases o <;> simp

lemma mem_of_mem_toList_getLast? {α : Type} {as : List α} {a : α} (h : a ∈ as.getLast?.toList) :
    a ∈ as :=
  List.mem_of_getLast? (Option.mem_toList.mp h)

lemma Kind.isRead_scalar_of_decodeField? {number : Nat} {s : Scalar} {occurs : Occurrence}
    {m : Message}
    (h : kind.decodeField? inner records ⟨number, .scalar s, occurs⟩ = some m) :
    ∃ vs, m = Message.ofValues number vs ∧
      kind.IsRead Value.isDefault Inner records ⟨number, .scalar s, occurs⟩ vs := by
  have hadmits {raws : List RawValue} {vs : List Value} (hvs : raws.mapM s.ofRaw? = some vs) :
      ∀ v ∈ vs.getLast?.toList, (FieldType.scalar s).Admits Inner v := fun v hv =>
    forall_mem_of_mapM_eq_some hvs (fun _ _ _ => Scalar.admits_of_ofRaw?) v
      (mem_of_mem_toList_getLast? hv)
  -- Of a field that does not occur at most once every value counts.
  have hmany (hsingle : occurs ≠ .single) (hchoice : occurs ≠ .choice) {raws : List RawValue}
      (hm : (raws.mapM s.valuesOfRaw?).map (fun vs => Message.ofValues number vs.flatten) =
        some m) :
      ∃ vs, m = Message.ofValues number vs ∧
        kind.IsRead Value.isDefault Inner records ⟨number, .scalar s, occurs⟩ vs := by
    obtain ⟨vss, hvss, rfl⟩ := Option.map_eq_some_iff.mp hm
    refine ⟨vss.flatten, rfl, ⟨fun v hv => ?_, fun ho => absurd ho hsingle⟩,
      fun ho => absurd ho hchoice⟩
    obtain ⟨vs, hvs, hmem⟩ := List.mem_flatten.mp hv
    exact forall_mem_of_mapM_eq_some (P := fun vs => ∀ v ∈ vs, (FieldType.scalar s).Admits Inner v)
      hvss (fun _ _ _ => Scalar.admits_of_valuesOfRaw?) vs hvs v hmem
  cases occurs with
  | single =>
    obtain ⟨vs, hvs, rfl⟩ := Option.map_eq_some_iff.mp h
    refine ⟨_, Message.ofValues_getLast? number vs, ⟨fun v hv => ?_, fun _ => ⟨?_, fun v hv => ?_⟩⟩,
      nofun⟩
    · exact hadmits hvs v (List.mem_of_mem_filter hv)
    · exact Nat.le_trans (List.length_filter_le _ _) (length_toList_le_one _)
    · simpa using (List.mem_filter.mp hv).2
  | choice =>
    obtain ⟨vs, hvs, rfl⟩ := Option.map_eq_some_iff.mp h
    cases hlast : (records.filter fun (n, _) => kind.isChoice n).getLast? with
    | none => exact ⟨[], rfl, Field.accepts_nil _ _ _, fun _ hne => absurd rfl hne⟩
    | some record =>
      obtain ⟨n, raw⟩ := record
      dsimp only
      split_ifs with hn
      · exact ⟨_, rfl, ⟨hadmits hvs, nofun⟩, fun _ _ =>
          ⟨length_toList_le_one _, by rw [hlast, Option.map_some, hn]⟩⟩
      · exact ⟨[], rfl, Field.accepts_nil _ _ _, fun _ hne => absurd rfl hne⟩
  | repeated => exact hmany nofun nofun h
  | packed => exact hmany nofun nofun h

lemma Kind.isRead_message_of_decodeField? {number : Nat} {k : Kind} {occurs : Occurrence}
    {m : Message} (hinner : ∀ k chunks m, inner k chunks = some m → Inner k m)
    (hoccurs : occurs = .single ∨ occurs = .repeated)
    (h : kind.decodeField? inner records ⟨number, .message k, occurs⟩ = some m) :
    ∃ vs, m = Message.ofValues number vs ∧
      kind.IsRead Value.isDefault Inner records ⟨number, .message k, occurs⟩ vs := by
  rcases hoccurs with rfl | rfl
  · obtain ⟨chunks, _, hm⟩ := Option.bind_eq_some_iff.mp h
    split_ifs at hm with hempty
    · obtain rfl := Option.some.inj hm
      exact ⟨[], rfl, Field.accepts_nil _ _ _, nofun⟩
    · obtain ⟨fields, hfields, rfl⟩ := Option.map_eq_some_iff.mp hm
      refine ⟨[.message fields], rfl, ⟨?_, fun _ => ⟨Nat.le_refl 1, ?_⟩⟩, nofun⟩
      · exact List.forall_mem_singleton.mpr (hinner k chunks fields hfields)
      · exact List.forall_mem_singleton.mpr rfl
  · obtain ⟨chunks, _, hm⟩ := Option.bind_eq_some_iff.mp h
    obtain ⟨ms, hms, rfl⟩ := Option.map_eq_some_iff.mp hm
    refine ⟨ms.map .message, rfl, ⟨fun v hv => ?_, nofun⟩, nofun⟩
    obtain ⟨fields, hfields, rfl⟩ := List.mem_map.mp hv
    exact forall_mem_of_mapM_eq_some hms (fun b _ fields => hinner k [b] fields) fields hfields

lemma Kind.isRead_of_decodeField? {f : Field} {m : Message} (hf : f ∈ kind.fields)
    (hinner : ∀ k chunks m, inner k chunks = some m → Inner k m)
    (h : kind.decodeField? inner records f = some m) :
    ∃ vs, m = Message.ofValues f.number vs ∧ kind.IsRead Value.isDefault Inner records f vs := by
  obtain ⟨number, type, occurs⟩ := f
  cases type with
  | scalar s => exact Kind.isRead_scalar_of_decodeField? h
  | message k =>
    exact Kind.isRead_message_of_decodeField? hinner ((kind.occurs_form _ hf).2 k rfl) h

/-! ### Messages -/

lemma Kind.conformsWith_of_decodeWith? {limit : Nat} {occurrences : List Bytes} {m : Message}
    (hinner : ∀ k chunks m, inner k chunks = some m → Inner k m)
    (h : kind.decodeWith? inner limit occurrences = some m) :
    kind.ConformsWith Value.isDefault Inner m := by
  obtain ⟨recordss, _, hblocks⟩ := Option.bind_eq_some_iff.mp h
  obtain ⟨blocks, hdecode, rfl⟩ := Option.map_eq_some_iff.mp hblocks
  let vs (f : Field) : List Value :=
    ((kind.decodeField? inner recordss.flatten f).getD []).values f.number
  have hvs : ∀ f ∈ kind.fields, ∀ block,
      kind.decodeField? inner recordss.flatten f = some block →
        block = Message.ofValues f.number (vs f) ∧
          kind.IsRead Value.isDefault Inner recordss.flatten f (vs f) := by
    intro f hf block hblock
    obtain ⟨ws, rfl, hread⟩ := Kind.isRead_of_decodeField? hf hinner hblock
    have hws : vs f = ws := by simp [vs, hblock]
    rw [hws]
    exact ⟨rfl, hread⟩
  have hread : ∀ f ∈ kind.fields, kind.IsRead Value.isDefault Inner recordss.flatten f (vs f) := by
    intro f hf
    obtain ⟨block, hblock⟩ := exists_of_mapM_eq_some hdecode f hf
    exact (hvs f hf block hblock).2
  have hm : blocks.flatten = kind.fields.flatMap fun f => Message.ofValues f.number (vs f) :=
    flatten_eq_of_mapM_eq_some hdecode fun f hf block hblock => (hvs f hf block hblock).1
  have hvalues : ∀ f ∈ kind.fields, Message.values blocks.flatten f.number = vs f := by
    intro f hf
    rw [hm]
    exact under_flatMap kind.numbers_nodup vs hf
  constructor
  · refine hm.trans (List.flatMap_congr fun f hf => ?_)
    rw [hvalues f hf]
  · intro f hf
    rw [hvalues f hf]
    exact (hread f hf).accepts
  · intro f hf hchoice hne
    rw [hvalues f hf] at hne ⊢
    obtain ⟨hlength, hlast⟩ := (hread f hf).last hchoice hne
    refine ⟨hlength, fun g hg hchoice' hne' => ?_⟩
    rw [hvalues g hg] at hne'
    have hsame := hlast.symm.trans ((hread g hg).last hchoice' hne').2
    exact kind.eq_of_number_eq hg hf (Option.some.inj hsame).symm

end Fields

/-- Every message that was read from bytes conforms to its kind. -/
theorem Kind.conforms_of_decodeNested? {limit : Nat} {kind : Kind} {occurrences : List Bytes}
    {m : Message} (h : kind.decodeNested? limit occurrences = some m) :
    kind.Conforms Value.isDefault limit m := by
  induction limit generalizing kind occurrences m with
  | zero => exact Kind.conformsWith_of_decodeWith? (by simp) h
  | succ limit ih => exact Kind.conformsWith_of_decodeWith? (fun _ _ _ hm => ih hm) h

end TensorGraph.Wire
