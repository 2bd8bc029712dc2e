import TensorGraph.Proofs.Resolution
import TensorGraph.Proofs.Storage.Nodes

/-!
# Models survive

A model that was read from bytes and is written again comes back as it was, except that a zero in a
floating-point field that occurs at most once loses its sign; and the bytes that it is written to do
not change any more.
-/

namespace TensorGraph

open Wire Wire.Message

/-! ### Graphs -/

namespace GraphParts

/-- A graph with every zero positive whose sign is not written. -/
def positive (p : GraphParts) : GraphParts := { p with nodes := p.nodes.map Node.positive }

/-- A graph that can be written. -/
structure Writable (limit : Nat) (p : GraphParts) : Prop where
  nodes : ∀ n ∈ p.nodes, n.Storable (limit + 2)
  initializers : ∀ t ∈ p.initializers, t.Storable
  inputs : ∀ v ∈ p.inputs, v.Writable (limit + 3)
  outputs : ∀ v ∈ p.outputs, v.Writable (limit + 3)
  valueInfo : ∀ v ∈ p.valueInfo, v.Writable (limit + 3)
  quantization : ∀ m ∈ p.quantization,
    Kind.quantization.Conforms Value.isNothing (limit + 4) m
  sparse : ∀ m ∈ p.sparse, Kind.sparseTensor.Conforms Value.isNothing (limit + 4) m

/-- A graph that comes back from a file. -/
structure Storable (limit : Nat) (p : GraphParts) : Prop extends Writable limit p where
  types : ∀ v ∈ p.inputs ++ p.outputs ++ p.valueInfo, v.type.Storable

/-- A graph as a file gives it back. -/
def reread (p : GraphParts) : GraphParts :=
  { p with
    inputs := p.inputs.map ValueInfo.reread
    outputs := p.outputs.map ValueInfo.reread
    valueInfo := p.valueInfo.map ValueInfo.reread }

lemma map_reread_eq_self_iff {vs : List ValueInfo} :
    vs.map ValueInfo.reread = vs ↔ ∀ v ∈ vs, v.type.Storable := by
  conv_lhs => rhs; rw [← List.map_id vs]
  rw [List.map_inj_left]
  exact forall₂_congr fun _ _ => ValueInfo.reread_eq_self_iff

lemma Storable.reread_eq_self {limit : Nat} {p : GraphParts} (hp : p.Storable limit) :
    p.reread = p := by
  have htypes := hp.types
  rw [List.forall_mem_append, List.forall_mem_append] at htypes
  unfold reread
  rw [map_reread_eq_self_iff.mpr htypes.1.1, map_reread_eq_self_iff.mpr htypes.1.2,
    map_reread_eq_self_iff.mpr htypes.2]

lemma conforms_valueInfo {limit : Nat} {vs : List ValueInfo}
    (hvs : ∀ v ∈ vs, v.Writable (limit + 3)) :
    ∀ m ∈ vs.map ValueInfo.toMessage, Kind.valueInfo.Conforms Value.isNothing (limit + 4) m :=
  List.forall_mem_map.mpr fun v hv => ValueInfo.conforms_toMessage (hvs v hv)

/-- The blocks of the message of a graph. -/
def blocks (p : GraphParts) : List Message :=
  [ofMessages GraphField.node (p.nodes.map Node.toMessage), ofText GraphField.name p.name,
    ofMessages GraphField.initializer (p.initializers.map Tensor.toMessage),
    ofText GraphField.doc p.doc,
    ofMessages GraphField.input (p.inputs.map ValueInfo.toMessage),
    ofMessages GraphField.output (p.outputs.map ValueInfo.toMessage),
    ofMessages GraphField.valueInfo (p.valueInfo.map ValueInfo.toMessage),
    ofMessages GraphField.quantization p.quantization,
    ofMessages GraphField.sparseInitializer p.sparse]

lemma toMessage_eq (p : GraphParts) : p.toMessage = p.blocks.flatten := by
  simp [toMessage, blocks]

lemma assembled_toMessage {limit : Nat} {p : GraphParts} (hp : p.Writable limit) :
    Kind.graph.Assembled (Kind.Conforms Value.isNothing (limit + 4)) p.blocks p.toMessage where
  flatten_eq := p.toMessage_eq
  holds := by
    have hnodes : ∀ m ∈ p.nodes.map Node.toMessage,
        Kind.node.Conforms Value.isNothing (limit + 4) m :=
      List.forall_mem_map.mpr fun n hn => Node.conforms_toMessage (hp.nodes n hn)
    have hinitializers : ∀ m ∈ p.initializers.map Tensor.toMessage,
        Kind.tensor.Conforms Value.isNothing (limit + 4) m :=
      List.forall_mem_map.mpr fun t _ => t.conforms_toMessage (limit + 3)
    exact .cons (holds_ofMessages _ hnodes) <| .cons (holds_ofText _ _) <|
      .cons (holds_ofMessages _ hinitializers) <| .cons (holds_ofText _ _) <|
      .cons (holds_ofMessages _ (conforms_valueInfo hp.inputs)) <|
      .cons (holds_ofMessages _ (conforms_valueInfo hp.outputs)) <|
      .cons (holds_ofMessages _ (conforms_valueInfo hp.valueInfo)) <|
      .cons (holds_ofMessages _ hp.quantization) <|
      .cons (holds_ofMessages _ hp.sparse) .nil

lemma conforms_toMessage {limit : Nat} {p : GraphParts} (hp : p.Writable limit) :
    Kind.graph.Conforms Value.isNothing (limit + 5) p.toMessage :=
  (assembled_toMessage hp).conformsWith (by decide)

lemma map_ofMessage_toMessage {limit : Nat} {vs : List ValueInfo}
    (hvs : ∀ v ∈ vs, v.Writable (limit + 3)) :
    (vs.map ValueInfo.toMessage).map ValueInfo.ofMessage = vs.map ValueInfo.reread := by
  rw [List.map_map]
  exact List.map_congr_left fun v hv => ValueInfo.ofMessage_toMessage (hvs v hv)

/-- A graph comes back from its message, with the extents that a file can hold. -/
theorem ofMessage_toMessage {limit : Nat} {p : GraphParts} (hp : p.Writable limit) :
    GraphParts.ofMessage p.toMessage = .ok p.reread := by
  have hvalues := (assembled_toMessage hp).values
  simp only [Kind.fields, blocks, List.forall₂_cons] at hvalues
  obtain ⟨hnodes, hname, hinitializers, hdoc, hinputs, houtputs, hvalueInfo, hquantization,
    hsparse, -⟩ := hvalues
  have hnodes : p.toMessage.messages GraphField.node = p.nodes.map Node.toMessage :=
    messages_eq hnodes
  have hname : p.toMessage.text GraphField.name = p.name := text_eq hname
  have hinitializers : p.toMessage.messages GraphField.initializer =
      p.initializers.map Tensor.toMessage := messages_eq hinitializers
  have hdoc : p.toMessage.text GraphField.doc = p.doc := text_eq hdoc
  have hinputs : p.toMessage.messages GraphField.input = p.inputs.map ValueInfo.toMessage :=
    messages_eq hinputs
  have houtputs : p.toMessage.messages GraphField.output = p.outputs.map ValueInfo.toMessage :=
    messages_eq houtputs
  have hvalueInfo : p.toMessage.messages GraphField.valueInfo =
      p.valueInfo.map ValueInfo.toMessage := messages_eq hvalueInfo
  have hquantization : p.toMessage.messages GraphField.quantization = p.quantization :=
    messages_eq hquantization
  have hsparse : p.toMessage.messages GraphField.sparseInitializer = p.sparse :=
    messages_eq hsparse
  rw [GraphParts.ofMessage, hnodes, hname, hinitializers, hdoc, hinputs, houtputs, hvalueInfo,
    hquantization, hsparse, map_ofMessage_toMessage hp.inputs, map_ofMessage_toMessage hp.outputs,
    map_ofMessage_toMessage hp.valueInfo, mapM_map_eq_ok, mapM_map_eq_ok]
  · rfl
  · exact fun n hn => Node.ofMessage_toMessage (hp.nodes n hn)
  · intro t ht
    rw [Tensor.ofMessage_toMessage (hp.initializers t ht)]
    rfl

lemma storable_map_ofMessage {limit : Nat} {m : Message} {number : Nat}
    (hm : ∀ v ∈ m.messages number, Kind.valueInfo.Conforms Value.isDefault (limit + 4) v) :
    ∀ v ∈ (m.messages number).map ValueInfo.ofMessage, v.Storable (limit + 3) :=
  List.forall_mem_map.mpr fun v hv => ValueInfo.storable_ofMessage (hm v hv)

/-- Every graph that was read can be stored, with positive zeros. -/
theorem storable_of_ofMessage {limit : Nat} {m : Message} {p : GraphParts}
    (hm : Kind.graph.Conforms Value.isDefault (limit + 5) m)
    (h : GraphParts.ofMessage m = .ok p) : p.positive.Storable limit := by
  obtain ⟨initializers, hinitializers, h⟩ := bind_eq_ok_iff.mp h
  obtain ⟨nodes, hnodes, hpure⟩ := bind_eq_ok_iff.mp h
  obtain rfl := Except.ok.inj hpure
  have hinner {k : Kind} {number : Nat} (hf : Field.inners number k ∈ Kind.graph.fields) :
      ∀ v ∈ m.messages number, k.Conforms Value.isDefault (limit + 4) v := fun v hv =>
    hm.inner_of_mem_messages hf hv
  have hinputs := storable_map_ofMessage
    (hinner (show Field.inners GraphField.input .valueInfo ∈ Kind.graph.fields by decide))
  have houtputs := storable_map_ofMessage
    (hinner (show Field.inners GraphField.output .valueInfo ∈ Kind.graph.fields by decide))
  have hvalueInfo := storable_map_ofMessage
    (hinner (show Field.inners GraphField.valueInfo .valueInfo ∈ Kind.graph.fields by decide))
  refine ⟨⟨?_, ?_, fun v hv => (hinputs v hv).writable, fun v hv => (houtputs v hv).writable,
    fun v hv => (hvalueInfo v hv).writable, ?_, ?_⟩, ?_⟩
  · refine List.forall_mem_map.mpr (forall_mem_of_mapM_eq_ok hnodes fun a ha n hn => ?_)
    exact Node.storable_of_ofMessage
      (hinner (show Field.inners GraphField.node .node ∈ Kind.graph.fields by decide) a ha) hn
  · exact forall_mem_of_mapM_eq_ok hinitializers fun a _ t ht =>
      Tensor.storable_of_ofMessage (mapError_eq_ok_iff.mp ht)
  · exact fun v hv => (hinner (by decide) v hv).isNothing rfl
  · exact fun v hv => (hinner (by decide) v hv).isNothing rfl
  · rw [List.forall_mem_append, List.forall_mem_append]
    exact ⟨⟨fun v hv => (hinputs v hv).type, fun v hv => (houtputs v hv).type⟩,
      fun v hv => (hvalueInfo v hv).type⟩

lemma fieldBodies_toMessage_positive (p : GraphParts) :
    fieldBodies .graph p.positive.toMessage = fieldBodies .graph p.toMessage := by
  have hnodes : fieldBodies .graph (ofMessages GraphField.node
      (p.positive.nodes.map Node.toMessage)) =
      fieldBodies .graph (ofMessages GraphField.node (p.nodes.map Node.toMessage)) := by
    rw [positive, List.map_map]
    exact fieldBodies_ofMessages_congr
      (show Field.inners GraphField.node .node ∈ Kind.graph.fields by decide)
      fun n _ => n.fieldBodies_toMessage_positive
  simp only [toMessage, fieldBodies_append, hnodes]
  rfl

end GraphParts

/-- A resolved graph with every zero positive whose sign is not written. -/
def Graph.positive (g : Graph) : Graph := { g with nodes := g.nodes.map Node.positive }

namespace GraphParts

lemma nodeProducers_positive (nodes : List Node) :
    nodeProducers (nodes.map Node.positive) = nodeProducers nodes := by
  rw [nodeProducers, nodeProducers, List.zipIdx_map, List.flatMap_map]
  rfl

lemma resolve_positive (p : GraphParts) : p.positive.resolve = p.resolve := by
  have hindex : p.positive.index = p.index := by
    rw [index, index, positive, nodeProducers_positive]
  have hdependencies (producers : ProducerIndex) :
      p.positive.nodes.mapM (dependencies producers) = p.nodes.mapM (dependencies producers) := by
    rw [positive, List.mapM_map]
    rfl
  rw [resolve, resolve, hindex]
  simp only [hdependencies]
  rfl

lemma build_positive {p : GraphParts} {g : Graph} (h : p.build = .ok g) :
    p.positive.build = .ok g.positive := by
  obtain ⟨⟨producers, order⟩, hresolve, rfl⟩ := map_eq_ok_iff.mp h
  rw [build, resolve_positive, hresolve]
  rfl

end GraphParts

/-! ### Models -/

lemma OpsetImport.assembled_toMessage (o : OpsetImport) (inner : Kind → Message → Prop) :
    Kind.opsetImport.Assembled inner
      [ofText OpsetField.domain o.domain, ofInt64 OpsetField.version o.version] o.toMessage where
  flatten_eq := by simp [OpsetImport.toMessage]
  holds := .cons (holds_ofText _ _) (.cons (holds_ofInt64 _ _) .nil)

lemma OpsetImport.ofMessage_toMessage (o : OpsetImport) :
    OpsetImport.ofMessage o.toMessage = o := by
  have hvalues := (o.assembled_toMessage fun _ _ => True).values
  simp only [Kind.fields, List.forall₂_cons] at hvalues
  have hdomain : o.toMessage.text OpsetField.domain = o.domain := text_eq hvalues.1
  have hversion : o.toMessage.int64 OpsetField.version = o.version := int64_eq hvalues.2.1
  rw [OpsetImport.ofMessage, hdomain, hversion]

namespace Model

/-- A model with every zero positive that is in a floating-point field which occurs at most once;
nothing else is different. -/
def positive (m : Model) : Model :=
  { m with
    graph := m.graph.positive
    functions := m.functions.map (Message.positive .function)
    trainingInfo := m.trainingInfo.map (Message.positive .trainingInfo) }

/-- A model that can be written. -/
structure Writable (limit : Nat) (m : Model) : Prop where
  graph : m.graph.toGraphParts.Writable limit
  functions : ∀ f ∈ m.functions, Kind.function.Conforms Value.isNothing (limit + 5) f
  trainingInfo : ∀ t ∈ m.trainingInfo, Kind.trainingInfo.Conforms Value.isNothing (limit + 5) t

/-- A model that comes back from a file. -/
structure Storable (limit : Nat) (m : Model) : Prop extends Writable limit m where
  types : ∀ v ∈ m.graph.inputs ++ m.graph.outputs ++ m.graph.valueInfo, v.type.Storable
  resolved : m.graph.toGraphParts.build = .ok m.graph

/-- The blocks of the message of a model. -/
def blocks (m : Model) : List Message :=
  [ofInt64 ModelField.irVersion m.irVersion, ofText ModelField.producerName m.producerName,
    ofText ModelField.producerVersion m.producerVersion, ofText ModelField.domain m.domain,
    ofInt64 ModelField.modelVersion m.modelVersion, ofText ModelField.doc m.doc,
    ofMessage? ModelField.graph (some m.graph.toMessage),
    ofMessages ModelField.opsetImport (m.opsets.map OpsetImport.toMessage),
    ofMessages ModelField.metadata (entryMessages m.metadata),
    ofMessages ModelField.trainingInfo m.trainingInfo,
    ofMessages ModelField.functions m.functions]

lemma toMessage_eq (m : Model) : m.toMessage = m.blocks.flatten := by simp [toMessage, blocks]

lemma assembled_toMessage {limit : Nat} {m : Model} (hm : m.Writable limit) :
    Kind.model.Assembled (Kind.Conforms Value.isNothing (limit + 5)) m.blocks m.toMessage where
  flatten_eq := m.toMessage_eq
  holds := by
    have hgraph : ∀ g, some m.graph.toMessage = some g →
        Kind.graph.Conforms Value.isNothing (limit + 5) g := by
      intro g hg
      obtain rfl := Option.some.inj hg
      exact GraphParts.conforms_toMessage hm.graph
    have hopsets : ∀ o ∈ m.opsets.map OpsetImport.toMessage,
        Kind.opsetImport.Conforms Value.isNothing (limit + 5) o :=
      List.forall_mem_map.mpr fun o _ => Kind.conforms_of_forall fun inner =>
        (o.assembled_toMessage inner).conformsWith (by decide)
    exact .cons (holds_ofInt64 _ _) <| .cons (holds_ofText _ _) <| .cons (holds_ofText _ _) <|
      .cons (holds_ofText _ _) <| .cons (holds_ofInt64 _ _) <| .cons (holds_ofText _ _) <|
      .cons (holds_ofMessage? _ hgraph) <| .cons (holds_ofMessages _ hopsets) <|
      .cons (holds_ofMessages _ fun _ he => conforms_of_mem_entryMessages he) <|
      .cons (holds_ofMessages _ hm.trainingInfo) <| .cons (holds_ofMessages _ hm.functions) .nil

lemma Writable.conforms_toMessage {limit : Nat} {m : Model} (hm : m.Writable limit) :
    Kind.model.Conforms Value.isNothing (limit + 6) m.toMessage :=
  (assembled_toMessage hm).conformsWith (by decide)

lemma conforms_toMessage {limit : Nat} {m : Model} (hm : m.Storable limit) :
    Kind.model.Conforms Value.isNothing (limit + 6) m.toMessage :=
  hm.toWritable.conforms_toMessage

/-- A model comes back from its message with the graph that is built from what the file holds. -/
theorem Writable.ofMessage_toMessage {limit : Nat} {m : Model} {g : Graph}
    (hm : m.Writable limit) (hg : m.graph.reread.build = .ok g) :
    Model.ofMessage m.toMessage = .ok { m with graph := g } := by
  have hvalues := (assembled_toMessage hm).values
  simp only [Kind.fields, blocks, List.forall₂_cons] at hvalues
  obtain ⟨hirVersion, hproducer, hproducerVersion, hdomain, hversion, hdoc, hgraph, hopsets,
    hmetadata, htraining, hfunctions, -⟩ := hvalues
  have hirVersion : m.toMessage.int64 ModelField.irVersion = m.irVersion := int64_eq hirVersion
  have hproducer : m.toMessage.text ModelField.producerName = m.producerName := text_eq hproducer
  have hproducerVersion : m.toMessage.text ModelField.producerVersion = m.producerVersion :=
    text_eq hproducerVersion
  have hdomain : m.toMessage.text ModelField.domain = m.domain := text_eq hdomain
  have hversion : m.toMessage.int64 ModelField.modelVersion = m.modelVersion := int64_eq hversion
  have hdoc : m.toMessage.text ModelField.doc = m.doc := text_eq hdoc
  have hgraph : m.toMessage.message? ModelField.graph = some m.graph.toMessage :=
    message?_eq hgraph
  have hopsets : m.toMessage.messages ModelField.opsetImport =
      m.opsets.map OpsetImport.toMessage := messages_eq hopsets
  have hmetadata : m.toMessage.messages ModelField.metadata = entryMessages m.metadata :=
    messages_eq hmetadata
  have htraining : m.toMessage.messages ModelField.trainingInfo = m.trainingInfo :=
    messages_eq htraining
  have hfunctions : m.toMessage.messages ModelField.functions = m.functions :=
    messages_eq hfunctions
  have hread : (m.opsets.map OpsetImport.toMessage).map OpsetImport.ofMessage = m.opsets := by
    simp [List.map_map, Function.comp_def, OpsetImport.ofMessage_toMessage]
  rw [Model.ofMessage, hgraph]
  dsimp only
  rw [GraphParts.ofMessage_toMessage hm.graph, hirVersion, hproducer, hproducerVersion, hdomain,
    hversion, hdoc, hopsets, hread, hmetadata, entriesOfMessages_entryMessages, htraining,
    hfunctions]
  change (m.graph.reread.build.mapError ModelError.structural >>= fun graph =>
    Except.ok { m with graph }) = .ok { m with graph := g }
  rw [hg]
  rfl

/-- A model comes back from its message. -/
theorem ofMessage_toMessage {limit : Nat} {m : Model} (hm : m.Storable limit) :
    Model.ofMessage m.toMessage = .ok m := by
  have hgraph : m.graph.Storable limit := ⟨hm.graph, hm.types⟩
  have hbuild : m.graph.reread.build = .ok m.graph := by
    rw [hgraph.reread_eq_self, hm.resolved]
  exact hm.toWritable.ofMessage_toMessage hbuild

/-- Every model that was read can be stored, with positive zeros. -/
theorem storable_of_ofMessage {limit : Nat} {m : Message} {model : Model}
    (hm : Kind.model.Conforms Value.isDefault (limit + 6) m)
    (h : Model.ofMessage m = .ok model) : model.positive.Storable limit := by
  unfold Model.ofMessage at h
  split at h
  · exact absurd h nofun
  · rename_i g hg
    obtain ⟨parts, hparts, h⟩ := bind_eq_ok_iff.mp h
    obtain ⟨graph, hgraph, hpure⟩ := bind_eq_ok_iff.mp h
    obtain rfl := Except.ok.inj hpure
    have hparts := mapError_eq_ok_iff.mp hparts
    have hbuild := mapError_eq_ok_iff.mp hgraph
    have hgraphConforms := hm.inner_of_mem_messages
      (show Field.inner ModelField.graph .graph ∈ Kind.model.fields by decide)
      (List.mem_of_head? hg)
    obtain rfl := GraphParts.toGraphParts_of_build hbuild
    have hstorable := GraphParts.storable_of_ofMessage hgraphConforms hparts
    refine ⟨⟨hstorable.toWritable, ?_, ?_⟩, hstorable.types, GraphParts.build_positive hbuild⟩
    · exact List.forall_mem_map.mpr fun f hf => (hm.inner_of_mem_messages
        (show Field.inners ModelField.functions .function ∈ Kind.model.fields by decide)
        hf).positive
    · exact List.forall_mem_map.mpr fun t ht => (hm.inner_of_mem_messages
        (show Field.inners ModelField.trainingInfo .trainingInfo ∈ Kind.model.fields by decide)
        ht).positive

/-- The sign of a zero that is not written makes no difference to the bytes of a model. -/
lemma encode_positive (m : Model) : m.positive.encode = m.encode := by
  have hgraph : fieldBodies .model (ofMessage? ModelField.graph
      (some m.positive.graph.toMessage)) =
      fieldBodies .model (ofMessage? ModelField.graph (some m.graph.toMessage)) :=
    fieldBodies_ofMessages_congr
      (show Field.inner ModelField.graph .graph ∈ Kind.model.fields by decide)
      fun (g : Graph) (_ : g ∈ [m.graph]) => g.fieldBodies_toMessage_positive
  have htraining : fieldBodies .model (ofMessages ModelField.trainingInfo
      m.positive.trainingInfo) =
      fieldBodies .model (ofMessages ModelField.trainingInfo m.trainingInfo) :=
    fieldBodies_ofMessages_positive
      (show Field.inners ModelField.trainingInfo .trainingInfo ∈ Kind.model.fields by decide) _
  have hfunctions : fieldBodies .model (ofMessages ModelField.functions m.positive.functions) =
      fieldBodies .model (ofMessages ModelField.functions m.functions) :=
    fieldBodies_ofMessages_positive
      (show Field.inners ModelField.functions .function ∈ Kind.model.fields by decide) _
  unfold encode Message.encode
  simp only [toMessage, fieldBodies_append, hgraph, htraining, hfunctions]
  rfl

lemma Writable.encode_ne_nil {limit : Nat} {m : Model} (hm : m.Writable limit) :
    m.encode ≠ [] := by
  intro hnil
  have hvalues := (assembled_toMessage hm).values
  simp only [Kind.fields, blocks, List.forall₂_cons] at hvalues
  obtain ⟨-, -, -, -, -, -, hgraph, -⟩ := hvalues
  have hgraph : m.toMessage.values ModelField.graph = [.message m.graph.toMessage] := hgraph
  have hconforms := (assembled_toMessage hm).conformsWith (by decide)
  rw [encode, hconforms.encode_eq, List.flatMap_eq_nil_iff] at hnil
  have hwrite := hnil (Field.inner ModelField.graph .graph) (by decide)
  rw [Field.write_of_ne_packed (by decide)] at hwrite
  change List.flatMap _ ((m.toMessage.values ModelField.graph).map _) = [] at hwrite
  rw [hgraph, List.map_singleton, List.flatMap_singleton, List.append_eq_nil_iff] at hwrite
  exact absurd (length_writeVarint_pos _) (by rw [← writeKey, hwrite.1]; exact Nat.lt_irrefl 0)

lemma encode_ne_nil {limit : Nat} {m : Model} (hm : m.Storable limit) : m.encode ≠ [] :=
  hm.toWritable.encode_ne_nil

/-- A model that was read and is written again comes back as it was, save for the sign of zeros in
floating-point fields that occur at most once, and from then on its bytes stay the same. No sequence
of bytes in memory has `2 ^ 64` bytes or more. -/
theorem decode_encode_of_decode {bytes : Bytes} {m : Model} (h : decode bytes = .ok m)
    (hlength : m.encode.length < 2 ^ 64) :
    decode m.encode = .ok m.positive ∧ m.positive.encode = m.encode := by
  refine ⟨?_, m.encode_positive⟩
  unfold decode at h
  split_ifs at h with hempty
  split at h
  · exact absurd h nofun
  · rename_i fields hfields
    have hstorable : m.positive.Storable 94 :=
      storable_of_ofMessage (Kind.conforms_of_decodeNested? hfields) h
    have hencode : m.positive.toMessage.encode .model = m.encode := m.encode_positive
    have hread : Message.decode? .model m.encode = some m.positive.toMessage := by
      rw [← hencode] at hlength ⊢
      exact Kind.decodeNested?_encode (conforms_toMessage hstorable) hlength
    have hne : m.encode ≠ [] := by
      rw [← m.encode_positive]
      exact encode_ne_nil hstorable
    unfold decode
    rw [if_neg (mt List.isEmpty_iff.mp hne), hread]
    exact ofMessage_toMessage hstorable

lemma storable_of_decode {bytes : Bytes} {m : Model} (h : decode bytes = .ok m) :
    m.positive.Storable 94 := by
  unfold decode at h
  split_ifs at h
  split at h
  · cases h
  · rename_i fields hfields
    exact storable_of_ofMessage (Kind.conforms_of_decodeNested? hfields) h

lemma build_of_decode {bytes : Bytes} {m : Model} (h : decode bytes = .ok m) :
    m.graph.toGraphParts.build = .ok m.graph := by
  unfold decode at h
  split_ifs at h
  split at h
  · cases h
  · unfold Model.ofMessage at h
    split at h
    · cases h
    · obtain ⟨parts, _, h⟩ := bind_eq_ok_iff.mp h
      obtain ⟨graph, hgraph, hpure⟩ := bind_eq_ok_iff.mp h
      obtain rfl := Except.ok.inj hpure
      have hbuild := mapError_eq_ok_iff.mp hgraph
      obtain rfl := GraphParts.toGraphParts_of_build hbuild
      exact hbuild

lemma Writable.decode_encode {m : Model} {g : Graph} (hm : m.positive.Writable 94)
    (hg : m.positive.graph.reread.build = .ok g) (hlength : m.encode.length < 2 ^ 64) :
    decode m.encode = .ok { m.positive with graph := g } := by
  have hencode : m.positive.toMessage.encode .model = m.encode := m.encode_positive
  have hread : Message.decode? .model m.encode = some m.positive.toMessage := by
    rw [← hencode] at hlength ⊢
    exact Kind.decodeNested?_encode hm.conforms_toMessage hlength
  have hne : m.encode ≠ [] := by
    rw [← m.encode_positive]
    exact hm.encode_ne_nil
  unfold decode
  rw [if_neg (mt List.isEmpty_iff.mp hne), hread]
  exact hm.ofMessage_toMessage hg

/-- A model of one node whose only setting is a negative zero. -/
def signedZero : Model where
  irVersion := 0
  opsets := []
  graph :=
    { nodes := [{ op := "R", inputs := [], outputs := [],
                  attributes := .ofList [("a", .float 0x80000000)] }]
      producers := []
      order := [0] }

theorem decode_encode_of_signedZero :
    decode [0x3A, 0x12, 0x0A, 0x10, 0x22, 0x01, 0x52, 0x2A, 0x0B, 0x0A, 0x01, 0x61, 0x15, 0x00,
      0x00, 0x00, 0x80, 0xA0, 0x01, 0x01] = .ok signedZero ∧
    signedZero.encode.length = 15 ∧
    decode signedZero.encode = .ok signedZero.positive ∧
    signedZero.positive.encode = signedZero.encode := by
  have hread : decode [0x3A, 0x12, 0x0A, 0x10, 0x22, 0x01, 0x52, 0x2A, 0x0B, 0x0A, 0x01, 0x61,
      0x15, 0x00, 0x00, 0x00, 0x80, 0xA0, 0x01, 0x01] = .ok signedZero := by decide +kernel
  have hlength : signedZero.encode.length = 15 := by decide +kernel
  exact ⟨hread, hlength, decode_encode_of_decode hread (by rw [hlength]; decide)⟩

end Model

end TensorGraph
