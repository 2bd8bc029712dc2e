import Mathlib.Data.List.Induction
import TensorGraph.Proofs.Kept.Constants
import TensorGraph.Proofs.Storage.Nodes

/-!
# What is kept of nodes

A node that is read and written again has its operator, its values and its texts. Of its settings it
has each name once, with the kind and the payload of the last setting under that name. Graphs inside
of settings are not looked into, and text stays unless it was damaged.
-/

namespace TensorGraph

open Wire Wire.Message

/-! ### Settings -/

/-- The field that the payload of a setting of this kind is in. -/
def AttributeKind.field : AttributeKind → Nat
  | float => AttributeField.float
  | int => AttributeField.int
  | string => AttributeField.string
  | tensor => AttributeField.tensor
  | graph => AttributeField.graph
  | floats => AttributeField.floats
  | ints => AttributeField.ints
  | strings => AttributeField.strings
  | tensors => AttributeField.tensors
  | graphs => AttributeField.graphs

lemma AttributeKind.name_ne_field (k : AttributeKind) : AttributeField.name ≠ k.field := by
  cases k <;> decide

lemma AttributeKind.type_ne_field (k : AttributeKind) : AttributeField.type ≠ k.field := by
  cases k <;> decide

lemma AttributeKind.field_injective : Function.Injective AttributeKind.field := by
  intro k k' h
  cases k <;> cases k' <;> first | rfl | cases h

lemma AttributeKind.code_of_ofCode? {code : Int32} {k : AttributeKind} (h : ofCode? code = some k) :
    code = k.code := by
  have hcode := List.find?_some h
  exact (beq_iff_eq.mp hcode).symm

/-- Bytes that are text stay. -/
def KeepsText (b b' : Bytes) : Prop := ∀ s, b = Text.toBytes s → b' = b

/-- The payload of a setting stays; constants in it tell the same. -/
def KeepsPayload (a a' : Message) : AttributeKind → Prop
  | .string => KeepsText (a.chunk AttributeField.string) (a'.chunk AttributeField.string)
  | .strings => List.Forall₂ KeepsText (a.chunks AttributeField.strings)
      (a'.chunks AttributeField.strings)
  | .tensor => Option.Rel KeepsTensor (a.message? AttributeField.tensor)
      (a'.message? AttributeField.tensor)
  | .tensors => List.Forall₂ KeepsTensor (a.messages AttributeField.tensors)
      (a'.messages AttributeField.tensors)
  | k => a'.values k.field = a.values k.field

/-- A setting is written with the kind that it was read with and with the payload of that kind; the
fields of the other kinds are empty. -/
structure KeptAs (k : AttributeKind) (a a' : Message) : Prop where
  effective : storedKindCode a = k.code
  kind : a'.int32 AttributeField.type = k.code
  payload : KeepsPayload a a' k
  others : ∀ k', k' ≠ k → a'.values k'.field = []

/-- The last of some settings under a name. -/
def lastNamed (name : String) (as : List Message) : Option Message :=
  (as.filter fun a => a.text AttributeField.name = name).getLast?

/-- Each name stays, once, with what the last setting under it has. -/
structure KeepsAttributes (as as' : List Message) : Prop where
  names : ∀ name, name ∈ as'.map (text · AttributeField.name) ↔
    name ∈ as.map (text · AttributeField.name)
  once : (as'.map (text · AttributeField.name)).Nodup
  last : ∀ a' ∈ as', ∃ a k, lastNamed (a'.text AttributeField.name) as = some a ∧ KeptAs k a a'

namespace Attribute

variable {m : Message} {a : Attribute}

lemma exists_valueField_eq (a : Attribute) :
    ∃ vs, a.valueField = ofValues a.storedKind.field vs := by
  cases a with
  | float w => exact ⟨_, ofValue_eq _ _⟩
  | int v => exact ⟨_, ofValue_eq _ _⟩
  | string s => exact ⟨_, ofValue_eq _ _⟩
  | _ => exact ⟨_, rfl⟩

lemma values_valueField_of_ne {number : Nat} (hne : a.storedKind.field ≠ number) :
    a.valueField.values number = [] := by
  obtain ⟨vs, hvs⟩ := a.exists_valueField_eq
  rw [hvs, values_ofValues, if_neg hne]

lemma values_toMessage (name : String) (a : Attribute) (number : Nat) :
    (a.toMessage name).values number =
      (ofText AttributeField.name name).values number ++ a.valueField.values number ++
        (ofInt32 AttributeField.type a.storedKind.code).values number := by
  rw [toMessage, values_append, values_append]

lemma values_toMessage_field (name : String) (a : Attribute) (k : AttributeKind) :
    (a.toMessage name).values k.field = a.valueField.values k.field := by
  rw [values_toMessage, ofText, ofValue_eq, values_ofValues, if_neg k.name_ne_field, ofInt32,
    ofValue_eq, values_ofValues, if_neg k.type_ne_field, List.nil_append, List.append_nil]

lemma text_toMessage (name : String) (a : Attribute) :
    (a.toMessage name).text AttributeField.name = name := by
  refine text_eq ?_
  rw [values_toMessage, values_valueField_of_ne a.storedKind.name_ne_field.symm, ofInt32,
    ofValue_eq, values_ofValues, if_neg (by decide), List.append_nil, List.append_nil]

lemma int32_toMessage (name : String) (a : Attribute) :
    (a.toMessage name).int32 AttributeField.type = a.storedKind.code := by
  refine int32_eq ?_
  rw [values_toMessage, values_valueField_of_ne a.storedKind.type_ne_field.symm, ofText,
    ofValue_eq, values_ofValues, if_neg (by decide), List.nil_append, List.nil_append]

lemma keepsText_toBytes_ofBytes (b : Bytes) : KeepsText b (Text.toBytes (Text.ofBytes b)) := by
  rintro s rfl
  rw [Text.ofBytes_toBytes]

/-- A setting has the kind that its message tells, and its payload is written as it was read. -/
lemma keepsPayload_toMessage (hm : Kind.attr.Readable m) (h : Attribute.ofMessage m = .ok a)
    (name : String) :
    storedKindCode m = a.storedKind.code ∧ KeepsPayload m (a.toMessage name) a.storedKind := by
  have hconforms := hm.conformsWith
  have hfield := a.values_toMessage_field name
  unfold Attribute.ofMessage at h
  dsimp only at h
  cases hkind : AttributeKind.ofCode? (storedKindCode m) with
  | none =>
    rw [hkind] at h
    cases h
  | some k =>
    have hcode := AttributeKind.code_of_ofCode? hkind
    rw [hkind] at h
    cases k with
    | float =>
      obtain rfl := Except.ok.inj h
      exact ⟨hcode, (hfield .float).trans (hconforms.rewrite_fixed32 (by decide))⟩
    | int =>
      obtain rfl := Except.ok.inj h
      exact ⟨hcode, (hfield .int).trans (hconforms.rewrite_int64 (by decide))⟩
    | string =>
      obtain rfl := Except.ok.inj h
      refine ⟨hcode, ?_⟩
      change KeepsText _ (chunk _ AttributeKind.string.field)
      rw [chunk_eq (hfield .string)]
      exact keepsText_toBytes_ofBytes _
    | tensor =>
      dsimp only at h
      split at h
      · rename_i t ht
        obtain ⟨u, hu, rfl⟩ := map_eq_ok_iff.mp h
        refine ⟨hcode, ?_⟩
        have htensor : Kind.tensor.Readable t := hconforms.inner_of_mem_messages
          (show Field.inner AttributeField.tensor .tensor ∈ Kind.attr.fields by decide)
          (List.mem_of_head? ht)
        change Option.Rel KeepsTensor _ (message? _ AttributeKind.tensor.field)
        rw [ht, message?_eq (hfield .tensor)]
        exact .some (Tensor.keepsTensor_toMessage htensor (mapError_eq_ok_iff.mp hu))
      · cases h
    | graph =>
      dsimp only at h
      split at h
      · rename_i g hg
        obtain rfl := Except.ok.inj h
        refine ⟨hcode, (hfield .graph).trans ?_⟩
        rw [valueField, ← hg]
        exact hconforms.rewrite_message?
          (show Field.inner AttributeField.graph .graph ∈ Kind.attr.fields by decide)
      · cases h
    | floats =>
      obtain rfl := Except.ok.inj h
      exact ⟨hcode, (hfield .floats).trans (hconforms.rewrite_fixed32s
        (show Field.many AttributeField.floats .float ∈ Kind.attr.fields by decide))⟩
    | ints =>
      obtain rfl := Except.ok.inj h
      exact ⟨hcode, (hfield .ints).trans (hconforms.rewrite_int64s
        (show Field.many AttributeField.ints .int64 ∈ Kind.attr.fields by decide))⟩
    | strings =>
      obtain rfl := Except.ok.inj h
      refine ⟨hcode, ?_⟩
      change List.Forall₂ KeepsText _ (chunks _ AttributeKind.strings.field)
      rw [chunks_eq (hfield .strings), List.map_map, List.forall₂_map_right_iff]
      exact List.forall₂_same.mpr fun b _ => keepsText_toBytes_ofBytes b
    | tensors =>
      obtain ⟨us, hus, rfl⟩ := map_eq_ok_iff.mp h
      refine ⟨hcode, ?_⟩
      change List.Forall₂ KeepsTensor _ (messages _ AttributeKind.tensors.field)
      rw [messages_eq (hfield .tensors), List.forall₂_map_right_iff]
      refine forall₂_imp_of_mem (mapM_eq_ok_iff.mp hus) fun t ht u hu => ?_
      exact Tensor.keepsTensor_toMessage (hconforms.inner_of_mem_messages
        (show Field.inners AttributeField.tensors .tensor ∈ Kind.attr.fields by decide) ht)
        (mapError_eq_ok_iff.mp hu)
    | graphs =>
      obtain rfl := Except.ok.inj h
      exact ⟨hcode, (hfield .graphs).trans (hconforms.rewrite_messages
        (show Field.inners AttributeField.graphs .graph ∈ Kind.attr.fields by decide))⟩

lemma keptAs_toMessage (hm : Kind.attr.Readable m) (h : Attribute.ofMessage m = .ok a)
    (name : String) : KeptAs a.storedKind m (a.toMessage name) := by
  obtain ⟨heffective, hpayload⟩ := keepsPayload_toMessage hm h name
  refine ⟨heffective, a.int32_toMessage name, hpayload, fun k' hne => ?_⟩
  rw [values_toMessage_field]
  exact values_valueField_of_ne fun heq => hne (AttributeKind.field_injective heq).symm

end Attribute

/-! ### Settings under their names -/

/-- An entry that is put in takes the place of an earlier one under its name. -/
lemma mem_insertSorted_iff {α : Type} {name : String} {a : α} {entries : List (String × α)}
    (hsorted : entries.Pairwise fun x y => x.1 < y.1) {x : String × α} :
    x ∈ insertSorted name a entries ↔ x = (name, a) ∨ x ∈ entries ∧ x.1 ≠ name := by
  induction entries with
  | nil => simp [insertSorted]
  | cons e entries ih =>
    obtain ⟨hhead, htail⟩ := List.pairwise_cons.mp hsorted
    unfold insertSorted
    split_ifs with hlt heq
    · have hne : ∀ y ∈ e :: entries, y.1 ≠ name := by
        refine List.forall_mem_cons.mpr ⟨(String.ne_of_lt hlt).symm, fun y hy => ?_⟩
        exact (String.ne_of_lt (String.lt_trans hlt (hhead y hy))).symm
      rw [List.mem_cons]
      exact or_congr_right ⟨fun hx => ⟨hx, hne x hx⟩, And.left⟩
    · have hne : ∀ y ∈ entries, y.1 ≠ name := fun y hy =>
        heq ▸ (String.ne_of_lt (hhead y hy)).symm
      rw [List.mem_cons, List.mem_cons]
      refine or_congr_right ⟨fun hx => ⟨.inr hx, hne x hx⟩, ?_⟩
      rintro ⟨hx, hname⟩
      exact hx.resolve_left fun h => hname (h ▸ heq.symm)
    · rw [List.mem_cons, ih htail, List.mem_cons]
      constructor
      · rintro (rfl | rfl | ⟨hx, hname⟩)
        · exact .inr ⟨.inl rfl, Ne.symm heq⟩
        · exact .inl rfl
        · exact .inr ⟨.inr hx, hname⟩
      · rintro (rfl | ⟨rfl | hx, hname⟩)
        · exact .inr (.inl rfl)
        · exact .inl rfl
        · exact .inr (.inr ⟨hx, hname⟩)

/-- Collected settings are the last ones under their names. -/
lemma Attributes.mem_ofList_iff {entries : List (String × Attribute)} {x : String × Attribute} :
    x ∈ (Attributes.ofList entries).entries ↔
      (entries.filter fun e => e.1 = x.1).getLast? = some x := by
  induction entries using List.reverseRecOn with
  | nil => exact ⟨nofun, nofun⟩
  | append_singleton entries e ih =>
    have hinsert : Attributes.ofList (entries ++ [e]) =
        (Attributes.ofList entries).insert e.1 e.2 := List.foldl_append
    rw [hinsert, Attributes.insert, mem_insertSorted_iff (Attributes.ofList entries).sorted, ih,
      List.filter_append]
    by_cases hname : e.1 = x.1
    · rw [List.filter_cons_of_pos (by simpa using hname), List.filter_nil,
        List.getLast?_concat, Option.some.injEq]
      constructor
      · rintro (rfl | ⟨_, hne⟩)
        · rfl
        · exact absurd hname.symm hne
      · rintro rfl
        exact .inl rfl
    · rw [List.filter_cons_of_neg (by simpa using hname), List.filter_nil, List.append_nil]
      constructor
      · rintro (rfl | ⟨hlast, _⟩)
        · exact absurd rfl hname
        · exact hlast
      · exact fun hlast => .inr ⟨hlast, Ne.symm hname⟩

lemma Attributes.mem_map_fst_ofList {entries : List (String × Attribute)} {name : String} :
    name ∈ (Attributes.ofList entries).entries.map Prod.fst ↔ name ∈ entries.map Prod.fst := by
  constructor
  · intro h
    obtain ⟨x, hx, rfl⟩ := List.mem_map.mp h
    exact List.mem_map_of_mem (Attributes.mem_of_mem_ofList hx)
  · intro h
    obtain ⟨e, he, rfl⟩ := List.mem_map.mp h
    have hne : (entries.filter fun y => y.1 = e.1) ≠ [] :=
      List.ne_nil_of_mem (List.mem_filter.mpr ⟨he, decide_eq_true rfl⟩)
    obtain ⟨x, hx⟩ := Option.ne_none_iff_exists'.mp (mt List.getLast?_eq_none_iff.mp hne)
    have hname : x.1 = e.1 := by
      simpa using (List.mem_filter.mp (List.mem_of_getLast? hx)).2
    rw [← hname] at hx ⊢
    exact List.mem_map_of_mem (Attributes.mem_ofList_iff.mpr hx)

lemma rel_getLast? {α β : Type} {R : α → β → Prop} {as : List α} {bs : List β}
    (h : List.Forall₂ R as bs) : Option.Rel R as.getLast? bs.getLast? := by
  rw [List.getLast?_eq_getElem?, List.getLast?_eq_getElem?, h.length_eq]
  exact forall₂_getElem? h _

/-- What was read of the settings of a node is written once for each name. -/
lemma keepsAttributes_toMessage {ms : List Message} (hms : ∀ m ∈ ms, Kind.attr.Readable m)
    {entries : List (String × Attribute)}
    (h : List.Forall₂ (fun m e => e.1 = m.text AttributeField.name ∧
      Attribute.ofMessage m = .ok e.2) ms entries) :
    KeepsAttributes ms ((Attributes.ofList entries).entries.map fun (name, a) =>
      a.toMessage name) := by
  have hnames : entries.map Prod.fst = ms.map (text · AttributeField.name) := by
    rw [← List.forall₂_eq_eq_eq, List.forall₂_map_left_iff, List.forall₂_map_right_iff]
    exact (h.imp fun _ _ hread => hread.1).flip
  have hwritten : ((Attributes.ofList entries).entries.map fun (name, a) =>
      a.toMessage name).map (text · AttributeField.name) =
      (Attributes.ofList entries).entries.map Prod.fst := by
    rw [List.map_map]
    exact List.map_congr_left fun x _ => Attribute.text_toMessage x.1 x.2
  refine ⟨fun name => ?_, ?_, List.forall_mem_map.mpr fun x hx => ?_⟩
  · rw [hwritten, Attributes.mem_map_fst_ofList, hnames]
  · rw [hwritten, List.Nodup, List.pairwise_map]
    exact (Attributes.ofList entries).sorted.imp String.ne_of_lt
  · have hlast := Attributes.mem_ofList_iff.mp hx
    have hrel := rel_getLast? <| List.rel_filter
      (p := fun m => m.text AttributeField.name = x.1) (q := fun e => e.1 = x.1)
      (fun m e hread => by simp [hread.1]) h
    rw [hlast] at hrel
    obtain ⟨_, hnone⟩ | ⟨m, _, hm, hsome, -, hread⟩ := none_or_some_of_rel hrel
    · cases hnone
    obtain rfl := Option.some.inj hsome
    refine ⟨m, x.2.storedKind, ?_, Attribute.keptAs_toMessage (hms m ?_) hread x.1⟩
    · rw [Attribute.text_toMessage, lastNamed, hm]
    · exact List.mem_of_mem_filter (List.mem_of_getLast? hm)

/-! ### Nodes -/

/-- The operator, the values and the texts of a node stay, and each setting does under its name. -/
structure KeepsNode (n n' : Message) : Prop where
  same : SameIn [NodeField.input, NodeField.output, NodeField.name, NodeField.opType,
    NodeField.doc, NodeField.domain] n n'
  attributes : KeepsAttributes (n.messages NodeField.attr) (n'.messages NodeField.attr)

namespace Node

lemma values_toMessage (n : Node) :
    List.Forall₂ (fun f block => n.toMessage.values f.number = Message.values block f.number)
      Kind.node.fields n.blocks :=
  Kind.forall₂_values n.toMessage_eq <|
    .cons (fills_ofValues _ _) <| .cons (fills_ofValues _ _) <| .cons (fills_ofValue _ _) <|
    .cons (fills_ofValue _ _) <| .cons (fills_ofValues _ _) <| .cons (fills_ofValue _ _) <|
    .cons (fills_ofValue _ _) .nil

lemma keepsNode_toMessage {m : Message} {n : Node} (hm : Kind.node.Readable m)
    (h : Node.ofMessage m = .ok n) : KeepsNode m n.toMessage := by
  have hconforms := hm.conformsWith
  have hvalues := n.values_toMessage
  simp only [Kind.fields, blocks, List.forall₂_cons] at hvalues
  obtain ⟨hinputs, houtputs, hname, hop, hattributes, hdoc, hdomain, -⟩ := hvalues
  have hattributes : n.toMessage.messages NodeField.attr =
      n.attributes.entries.map fun (name, a) => a.toMessage name := messages_eq hattributes
  obtain ⟨entries, hentries, hpure⟩ := bind_eq_ok_iff.mp h
  obtain rfl := Except.ok.inj hpure
  constructor
  · simp only [SameIn, List.forall_mem_cons]
    refine ⟨hinputs.trans ?_, houtputs.trans ?_, hname.trans ?_, hop.trans ?_, hdoc.trans ?_,
      hdomain.trans ?_, List.forall_mem_nil _⟩
    · exact hconforms.rewrite_texts
        (show Field.many NodeField.input .text ∈ Kind.node.fields by decide)
    · exact hconforms.rewrite_texts
        (show Field.many NodeField.output .text ∈ Kind.node.fields by decide)
    · exact hconforms.rewrite_text (by decide)
    · exact hconforms.rewrite_text (by decide)
    · exact hconforms.rewrite_text (by decide)
    · exact hconforms.rewrite_text (by decide)
  · rw [hattributes]
    refine keepsAttributes_toMessage (fun a ha => ?_) ?_
    · exact hconforms.inner_of_mem_messages
        (show Field.inners NodeField.attr .attr ∈ Kind.node.fields by decide) ha
    · refine (mapM_eq_ok_iff.mp hentries).imp fun a e he => ?_
      dsimp only at he
      split at he
      · rename_i value hvalue
        obtain rfl := Except.ok.inj he
        exact ⟨rfl, hvalue⟩
      · cases he

end Node

end TensorGraph
