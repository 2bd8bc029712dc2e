import TensorGraph.Proofs.Storage.Constants

/-!
# Nodes survive

A setting, and a node with its settings, comes back from its message if no zero in it has a sign
that is not written. Making such zeros positive does not change the bytes.
-/

namespace TensorGraph

open Wire Wire.Message

/-! ### Settings -/

lemma AttributeKind.ofCode?_code (k : AttributeKind) : ofCode? k.code = some k := by
  cases k <;> rfl

lemma AttributeKind.code_ne_zero (k : AttributeKind) : k.code ≠ 0 := by
  cases k <;> decide

/-- A single-precision word, without the sign if it stands for zero. -/
def positiveZero (w : UInt32) : UInt32 := if w = 0x80000000 then 0 else w

lemma positiveZero_ne (w : UInt32) : positiveZero w ≠ 0x80000000 := by
  unfold positiveZero
  split_ifs with hw
  · decide
  · exact hw

namespace Attribute

/-- A setting with every zero positive whose sign is not written. -/
def positive : Attribute → Attribute
  | float w => float (positiveZero w)
  | graph g => graph (g.positive .graph)
  | graphs gs => graphs (gs.map (Message.positive .graph))
  | a => a

/-- A setting that comes back from a file; inner graphs nest `limit` deep at most. -/
def Storable (limit : Nat) : Attribute → Prop
  | float w => w ≠ 0x80000000
  | tensor t => t.Storable
  | tensors ts => ∀ t ∈ ts, t.Storable
  | graph g => Kind.graph.Conforms Value.isNothing limit g
  | graphs gs => ∀ g ∈ gs, Kind.graph.Conforms Value.isNothing limit g
  | _ => True

/-! What each field of a setting has of it. -/

def storedFloat : Attribute → UInt32 | float w => w | _ => 0
def storedInt : Attribute → Int64 | int v => v | _ => 0
def storedString : Attribute → Bytes | string s => Text.toBytes s | _ => []
def storedTensor? : Attribute → Option Tensor | tensor t => some t | _ => none
def storedGraph? : Attribute → Option Message | graph g => some g | _ => none
def storedFloats : Attribute → List UInt32 | floats ws => ws | _ => []
def storedInts : Attribute → List Int64 | ints vs => vs | _ => []
def storedStrings : Attribute → List Bytes | strings ss => ss.map Text.toBytes | _ => []
def storedTensors : Attribute → List Tensor | tensors ts => ts | _ => []
def storedGraphs : Attribute → List Message | graphs gs => gs | _ => []

/-- The blocks of the message of a setting. -/
def blocks (name : String) (a : Attribute) : List Message :=
  [ofText AttributeField.name name,
    ofFixed32 AttributeField.float a.storedFloat,
    ofInt64 AttributeField.int a.storedInt,
    ofChunk AttributeField.string a.storedString,
    ofMessage? AttributeField.tensor (a.storedTensor?.map Tensor.toMessage),
    ofMessage? AttributeField.graph a.storedGraph?,
    ofFixed32s AttributeField.floats a.storedFloats,
    ofInt64s AttributeField.ints a.storedInts,
    ofChunks AttributeField.strings a.storedStrings,
    ofMessages AttributeField.tensors (a.storedTensors.map Tensor.toMessage),
    ofMessages AttributeField.graphs a.storedGraphs,
    [],
    ofInt32 AttributeField.type a.storedKind.code,
    []]

lemma toMessage_eq (name : String) (a : Attribute) :
    a.toMessage name = (a.blocks name).flatten := by
  cases a <;> simp [toMessage, blocks, valueField] <;> rfl

lemma assembled_toMessage {limit : Nat} {a : Attribute} (ha : a.Storable (limit + 1))
    (name : String) :
    Kind.attr.Assembled (Kind.Conforms Value.isNothing (limit + 1)) (a.blocks name)
      (a.toMessage name) where
  flatten_eq := a.toMessage_eq name
  holds := by
    have hfloat : a.storedFloat ≠ 0x80000000 := by
      cases a with
      | float w => exact ha
      | _ => simp [storedFloat]
    have htensor : ∀ m, a.storedTensor?.map Tensor.toMessage = some m →
        Kind.tensor.Conforms Value.isNothing (limit + 1) m := by
      intro m hm
      obtain ⟨t, _, rfl⟩ := Option.map_eq_some_iff.mp hm
      exact t.conforms_toMessage limit
    have htensors : ∀ m ∈ a.storedTensors.map Tensor.toMessage,
        Kind.tensor.Conforms Value.isNothing (limit + 1) m := by
      intro m hm
      obtain ⟨t, _, rfl⟩ := List.mem_map.mp hm
      exact t.conforms_toMessage limit
    have hgraph : ∀ m, a.storedGraph? = some m →
        Kind.graph.Conforms Value.isNothing (limit + 1) m := by
      intro m hm
      cases a with
      | graph g => exact Option.some.inj hm ▸ ha
      | _ => exact absurd hm nofun
    have hgraphs : ∀ m ∈ a.storedGraphs, Kind.graph.Conforms Value.isNothing (limit + 1) m := by
      cases a with
      | graphs gs => exact ha
      | _ => exact nofun
    exact .cons (holds_ofText _ _) <| .cons (holds_ofFixed32 _ hfloat) <|
      .cons (holds_ofInt64 _ _) <| .cons (holds_ofChunk _ _) <|
      .cons (holds_ofMessage? _ htensor) <| .cons (holds_ofMessage? _ hgraph) <|
      .cons (holds_ofFixed32s _ (by decide) _) <| .cons (holds_ofInt64s _ (by decide) _) <|
      .cons (holds_ofChunks _ _) <| .cons (holds_ofMessages _ htensors) <|
      .cons (holds_ofMessages _ hgraphs) <| .cons (holds_nil _) <|
      .cons (holds_ofInt32 _ _) <| .cons (holds_nil _) .nil

lemma conforms_toMessage {limit : Nat} {a : Attribute} (ha : a.Storable (limit + 1))
    (name : String) : Kind.attr.Conforms Value.isNothing (limit + 2) (a.toMessage name) :=
  (assembled_toMessage ha name).conformsWith (by decide)

lemma storedKindCode_eq {m : Message} {a : Attribute}
    (h : m.int32 AttributeField.type = a.storedKind.code) :
    storedKindCode m = a.storedKind.code := by
  unfold storedKindCode
  dsimp only
  rw [h, if_pos a.storedKind.code_ne_zero]

/-- A setting comes back from its message, and so does its name. -/
theorem ofMessage_toMessage {limit : Nat} {a : Attribute} (ha : a.Storable (limit + 1))
    (name : String) :
    (a.toMessage name).text AttributeField.name = name ∧
      Attribute.ofMessage (a.toMessage name) = .ok a := by
  have hvalues := (assembled_toMessage ha name).values
  simp only [Kind.fields, Field.one, Field.many, Field.inner, Field.inners, blocks,
    List.forall₂_cons] at hvalues
  obtain ⟨hname, hfloat, hint, hstring, htensor, hgraph, hfloats, hints, hstrings, htensors,
    hgraphs, -, hkind, -⟩ := hvalues
  have hkind := storedKindCode_eq (int32_eq hkind)
  refine ⟨text_eq hname, ?_⟩
  rw [Attribute.ofMessage, hkind, AttributeKind.ofCode?_code]
  cases a with
  | float w => exact congrArg (Except.ok ∘ float) (fixed32_eq hfloat)
  | int v => exact congrArg (Except.ok ∘ int) (int64_eq hint)
  | string s =>
    have hchunk : ((string s).toMessage name).chunk AttributeField.string = Text.toBytes s :=
      chunk_eq hstring
    simp only [storedKind, hchunk, Text.ofBytes_toBytes]
  | tensor t =>
    have hmessage : ((tensor t).toMessage name).message? AttributeField.tensor =
        some t.toMessage := message?_eq htensor
    simp only [storedKind, hmessage, attributeTensor, Tensor.ofMessage_toMessage ha]
    rfl
  | graph g =>
    have hmessage : ((graph g).toMessage name).message? AttributeField.graph = some g :=
      message?_eq hgraph
    simp only [storedKind, hmessage]
  | floats ws => exact congrArg (Except.ok ∘ floats) (fixed32s_eq hfloats)
  | ints vs => exact congrArg (Except.ok ∘ ints) (int64s_eq hints)
  | strings ss =>
    have hchunks : ((strings ss).toMessage name).chunks AttributeField.strings =
        ss.map Text.toBytes := chunks_eq hstrings
    have hread : (ss.map Text.toBytes).map Text.ofBytes = ss := by
      simp [List.map_map, Function.comp_def, Text.ofBytes_toBytes]
    simp only [storedKind, hchunks, hread]
  | tensors ts =>
    have hmessages : ((tensors ts).toMessage name).messages AttributeField.tensors =
        ts.map Tensor.toMessage := messages_eq htensors
    have hread : (ts.map Tensor.toMessage).mapM attributeTensor = .ok ts := by
      refine mapM_map_eq_ok fun t ht => ?_
      rw [attributeTensor, Tensor.ofMessage_toMessage (ha t ht)]
      rfl
    simp only [storedKind, hmessages, hread]
    rfl
  | graphs gs => exact congrArg (Except.ok ∘ graphs) (messages_eq hgraphs)

/-- Every setting that was read can be stored, with positive zeros. -/
theorem storable_of_ofMessage {limit : Nat} {m : Message} {a : Attribute}
    (hm : Kind.attr.Conforms Value.isDefault (limit + 1) m) (h : Attribute.ofMessage m = .ok a) :
    a.positive.Storable limit := by
  have hgraph : ∀ g ∈ m.messages AttributeField.graph,
      Kind.graph.Conforms Value.isNothing limit (g.positive .graph) := fun g hg =>
    (hm.inner_of_mem_messages
      (show Field.inner AttributeField.graph .graph ∈ Kind.attr.fields by decide) hg).positive
  have hgraphs : ∀ g ∈ m.messages AttributeField.graphs,
      Kind.graph.Conforms Value.isNothing limit (g.positive .graph) := fun g hg =>
    (hm.inner_of_mem_messages
      (show Field.inners AttributeField.graphs .graph ∈ Kind.attr.fields by decide) hg).positive
  have htensor {t : Message} {u : Tensor} (hu : attributeTensor t = .ok u) : u.Storable :=
    Tensor.storable_of_ofMessage (mapError_eq_ok_iff.mp hu)
  unfold Attribute.ofMessage at h
  dsimp only at h
  split at h
  · obtain rfl := Except.ok.inj h
    exact positiveZero_ne _
  · obtain rfl := Except.ok.inj h
    trivial
  · obtain rfl := Except.ok.inj h
    trivial
  · split at h
    · obtain ⟨u, hu, rfl⟩ := map_eq_ok_iff.mp h
      exact htensor hu
    · exact absurd h nofun
  · split at h
    · rename_i g hg
      obtain rfl := Except.ok.inj h
      exact hgraph g (List.mem_of_head? hg)
    · exact absurd h nofun
  · obtain rfl := Except.ok.inj h
    trivial
  · obtain rfl := Except.ok.inj h
    trivial
  · obtain rfl := Except.ok.inj h
    trivial
  · obtain ⟨ts, hts, rfl⟩ := map_eq_ok_iff.mp h
    exact forall_mem_of_mapM_eq_ok hts fun _ _ u hu => htensor hu
  · obtain rfl := Except.ok.inj h
    exact List.forall_mem_map.mpr hgraphs
  · exact absurd h nofun

lemma fieldBodies_valueField_positive (a : Attribute) :
    fieldBodies .attr a.positive.valueField = fieldBodies .attr a.valueField := by
  cases a with
  | float w =>
    by_cases hw : w = 0x80000000
    · subst hw; rfl
    · have hpositive : positiveZero w = w := if_neg hw
      rw [positive, hpositive]
  | graph g =>
    exact fieldBodies_ofMessages_positive
      (show Field.inner AttributeField.graph .graph ∈ Kind.attr.fields by decide) [g]
  | graphs gs =>
    exact fieldBodies_ofMessages_positive
      (show Field.inners AttributeField.graphs .graph ∈ Kind.attr.fields by decide) gs
  | _ => rfl

lemma fieldBodies_toMessage_positive (name : String) (a : Attribute) :
    fieldBodies .attr (a.positive.toMessage name) = fieldBodies .attr (a.toMessage name) := by
  have hkind : a.positive.storedKind = a.storedKind := by cases a <;> rfl
  rw [toMessage, toMessage, fieldBodies_append, fieldBodies_append, fieldBodies_append,
    fieldBodies_append, fieldBodies_valueField_positive, hkind]

end Attribute

/-! ### Nodes -/

lemma insertSorted_of_lt {α : Type} {name : String} {a : α} {entries : List (String × α)}
    (h : ∀ x ∈ entries, x.1 < name) : insertSorted name a entries = entries ++ [(name, a)] := by
  induction entries with
  | nil => rfl
  | cons x entries ih =>
    obtain ⟨hx, hentries⟩ := List.forall_mem_cons.mp h
    rw [insertSorted, if_neg (String.lt_asymm hx), if_neg (String.ne_of_lt hx).symm, ih hentries]
    rfl

lemma Attributes.entries_foldl_insert {entries : List (String × Attribute)} {as : Attributes}
    (h : (as.entries ++ entries).Pairwise fun x y => x.1 < y.1) :
    (entries.foldl (fun as (name, a) => as.insert name a) as).entries = as.entries ++ entries := by
  induction entries generalizing as with
  | nil => simp
  | cons x entries ih =>
    have hlast : ∀ y ∈ as.entries, y.1 < x.1 := fun y hy =>
      (List.pairwise_append.mp h).2.2 y hy x List.mem_cons_self
    have hinsert : (as.insert x.1 x.2).entries = as.entries ++ [x] := insertSorted_of_lt hlast
    have hsplit : as.entries ++ x :: entries = (as.insert x.1 x.2).entries ++ entries := by
      rw [hinsert, List.append_assoc, List.singleton_append]
    rw [hsplit] at h ⊢
    exact ih h

lemma Attributes.mem_of_mem_foldl_insert {entries : List (String × Attribute)} {as : Attributes}
    {x : String × Attribute}
    (hx : x ∈ (entries.foldl (fun as (name, a) => as.insert name a) as).entries) :
    x ∈ as.entries ∨ x ∈ entries := by
  induction entries generalizing as with
  | nil => exact .inl hx
  | cons y entries ih =>
    rcases ih hx with hx | hx
    · rcases mem_insertSorted hx with rfl | hx
      · exact .inr List.mem_cons_self
      · exact .inl hx
    · exact .inr (List.mem_cons_of_mem y hx)

lemma Attributes.mem_of_mem_ofList {entries : List (String × Attribute)} {x : String × Attribute}
    (hx : x ∈ (Attributes.ofList entries).entries) : x ∈ entries :=
  (Attributes.mem_of_mem_foldl_insert hx).resolve_left nofun

lemma Attributes.eq_of_entries_eq {as bs : Attributes} (h : as.entries = bs.entries) : as = bs := by
  cases as
  cases bs
  simpa using h

lemma Attributes.ofList_entries (as : Attributes) : Attributes.ofList as.entries = as :=
  Attributes.eq_of_entries_eq (Attributes.entries_foldl_insert as.sorted)

/-- Settings with every zero positive whose sign is not written. -/
def Attributes.positive (as : Attributes) : Attributes where
  entries := as.entries.map fun (name, a) => (name, a.positive)
  sorted := List.pairwise_map.mpr as.sorted

namespace Node

/-- A node with every zero positive whose sign is not written. -/
def positive (n : Node) : Node := { n with attributes := n.attributes.positive }

/-- A node that comes back from a file; inner graphs nest `limit` deep at most. -/
def Storable (limit : Nat) (n : Node) : Prop := ∀ x ∈ n.attributes.entries, x.2.Storable limit

/-- The blocks of the message of a node. -/
def blocks (n : Node) : List Message :=
  [ofTexts NodeField.input n.inputs, ofTexts NodeField.output n.outputs,
    ofText NodeField.name n.name, ofText NodeField.opType n.op,
    ofMessages NodeField.attr (n.attributes.entries.map fun (name, a) => a.toMessage name),
    ofText NodeField.doc n.doc, ofText NodeField.domain n.domain]

lemma toMessage_eq (n : Node) : n.toMessage = n.blocks.flatten := by simp [toMessage, blocks]

lemma assembled_toMessage {limit : Nat} {n : Node} (hn : n.Storable (limit + 1)) :
    Kind.node.Assembled (Kind.Conforms Value.isNothing (limit + 2)) n.blocks n.toMessage where
  flatten_eq := n.toMessage_eq
  holds := by
    have hattributes : ∀ m ∈ n.attributes.entries.map fun (name, a) => a.toMessage name,
        Kind.attr.Conforms Value.isNothing (limit + 2) m := by
      intro m hm
      obtain ⟨⟨name, a⟩, ha, rfl⟩ := List.mem_map.mp hm
      exact Attribute.conforms_toMessage (hn (name, a) ha) name
    exact .cons (holds_ofTexts _ _) <| .cons (holds_ofTexts _ _) <| .cons (holds_ofText _ _) <|
      .cons (holds_ofText _ _) <| .cons (holds_ofMessages _ hattributes) <|
      .cons (holds_ofText _ _) <| .cons (holds_ofText _ _) .nil

lemma conforms_toMessage {limit : Nat} {n : Node} (hn : n.Storable (limit + 1)) :
    Kind.node.Conforms Value.isNothing (limit + 3) n.toMessage :=
  (assembled_toMessage hn).conformsWith (by decide)

/-- A node comes back from its message. -/
theorem ofMessage_toMessage {limit : Nat} {n : Node} (hn : n.Storable (limit + 1)) :
    Node.ofMessage n.toMessage = .ok n := by
  have hvalues := (assembled_toMessage hn).values
  simp only [Kind.fields, blocks, List.forall₂_cons] at hvalues
  obtain ⟨hinputs, houtputs, hname, hop, hattributes, hdoc, hdomain, -⟩ := hvalues
  have hinputs : n.toMessage.texts NodeField.input = n.inputs := texts_eq hinputs
  have houtputs : n.toMessage.texts NodeField.output = n.outputs := texts_eq houtputs
  have hname : n.toMessage.text NodeField.name = n.name := text_eq hname
  have hop : n.toMessage.text NodeField.opType = n.op := text_eq hop
  have hattributes : n.toMessage.messages NodeField.attr =
      n.attributes.entries.map fun (name, a) => a.toMessage name := messages_eq hattributes
  have hdoc : n.toMessage.text NodeField.doc = n.doc := text_eq hdoc
  have hdomain : n.toMessage.text NodeField.domain = n.domain := text_eq hdomain
  rw [Node.ofMessage, hinputs, houtputs, hname, hop, hattributes, hdoc, hdomain]
  dsimp only
  rw [mapM_map_eq_ok]
  · change Except.ok { n with attributes := Attributes.ofList n.attributes.entries } = .ok n
    rw [Attributes.ofList_entries]
  · intro x hx
    obtain ⟨hname, hread⟩ := Attribute.ofMessage_toMessage (hn x hx) x.1
    simp only [hname, hread]

/-- Every node that was read can be stored, with positive zeros. -/
theorem storable_of_ofMessage {limit : Nat} {m : Message} {n : Node}
    (hm : Kind.node.Conforms Value.isDefault (limit + 2) m) (h : Node.ofMessage m = .ok n) :
    n.positive.Storable limit := by
  obtain ⟨entries, hentries, hpure⟩ := bind_eq_ok_iff.mp h
  obtain rfl := Except.ok.inj hpure
  have hstorable : ∀ x ∈ entries, x.2.positive.Storable limit := by
    refine forall_mem_of_mapM_eq_ok hentries fun a ha x hx => ?_
    have hconforms := hm.inner_of_mem_messages
      (show Field.inners NodeField.attr .attr ∈ Kind.node.fields by decide) ha
    dsimp only at hx
    split at hx
    · rename_i value hvalue
      obtain rfl := Except.ok.inj hx
      exact Attribute.storable_of_ofMessage hconforms hvalue
    · exact absurd hx nofun
  exact List.forall_mem_map.mpr fun x hx => hstorable x (Attributes.mem_of_mem_ofList hx)

lemma fieldBodies_toMessage_positive (n : Node) :
    fieldBodies .node n.positive.toMessage = fieldBodies .node n.toMessage := by
  have hattributes : fieldBodies .node (ofMessages NodeField.attr
      (n.positive.attributes.entries.map fun (name, a) => a.toMessage name)) =
      fieldBodies .node (ofMessages NodeField.attr
        (n.attributes.entries.map fun (name, a) => a.toMessage name)) := by
    rw [positive, Attributes.positive, List.map_map]
    exact fieldBodies_ofMessages_congr
      (show Field.inners NodeField.attr .attr ∈ Kind.node.fields by decide)
      fun x _ => Attribute.fieldBodies_toMessage_positive x.1 x.2
  simp only [toMessage, fieldBodies_append, hattributes]
  rfl

end Node

end TensorGraph
