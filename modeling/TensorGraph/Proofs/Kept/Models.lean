import TensorGraph.Proofs.Kept.Nodes
import TensorGraph.Proofs.Storage.Models

/-!
# What is kept of models

A model that is read from a message and written again has all that the first message tells about
it: the texts and versions, and the parts that no operation looks into, are the same, and its nodes,
constants and described values tell what they told, one by one.
-/

namespace TensorGraph

open Wire Wire.Message

/-! ### Graphs -/

/-- The texts of a graph stay, so do the parts that are not looked into, and the others do at their
positions. -/
structure KeepsGraph (g g' : Message) : Prop where
  same : SameIn [GraphField.name, GraphField.doc, GraphField.sparseInitializer,
    GraphField.quantization] g g'
  nodes : List.Forall₂ KeepsNode (g.messages GraphField.node) (g'.messages GraphField.node)
  initializers : List.Forall₂ KeepsTensor (g.messages GraphField.initializer)
    (g'.messages GraphField.initializer)
  inputs : List.Forall₂ KeepsValue (g.messages GraphField.input) (g'.messages GraphField.input)
  outputs : List.Forall₂ KeepsValue (g.messages GraphField.output) (g'.messages GraphField.output)
  valueInfo : List.Forall₂ KeepsValue (g.messages GraphField.valueInfo)
    (g'.messages GraphField.valueInfo)

namespace GraphParts

lemma values_toMessage (p : GraphParts) :
    List.Forall₂ (fun f block => p.toMessage.values f.number = Message.values block f.number)
      Kind.graph.fields p.blocks :=
  Kind.forall₂_values p.toMessage_eq <|
    .cons (fills_ofValues _ _) <| .cons (fills_ofValue _ _) <| .cons (fills_ofValues _ _) <|
    .cons (fills_ofValue _ _) <| .cons (fills_ofValues _ _) <| .cons (fills_ofValues _ _) <|
    .cons (fills_ofValues _ _) <| .cons (fills_ofValues _ _) <| .cons (fills_ofValues _ _) .nil

lemma keepsValues_toMessage {g g' : Message} {number : Nat} (hg : Kind.graph.Readable g)
    (hfield : Field.inners number .valueInfo ∈ Kind.graph.fields)
    (h : g'.messages number =
      ((g.messages number).map ValueInfo.ofMessage).map ValueInfo.toMessage) :
    List.Forall₂ KeepsValue (g.messages number) (g'.messages number) := by
  rw [h, List.map_map, List.forall₂_map_right_iff, List.forall₂_same]
  exact fun v hv => keepsValue_toMessage (hg.conformsWith.inner_of_mem_messages hfield hv)

lemma keepsGraph_toMessage {g : Message} {p : GraphParts} (hg : Kind.graph.Readable g)
    (h : GraphParts.ofMessage g = .ok p) : KeepsGraph g p.toMessage := by
  have hconforms := hg.conformsWith
  have hvalues := p.values_toMessage
  simp only [Kind.fields, blocks, List.forall₂_cons] at hvalues
  obtain ⟨hnodes, hname, hinitializers, hdoc, hinputs, houtputs, hvalueInfo, hquantization,
    hsparse, -⟩ := hvalues
  have hnodes : p.toMessage.messages GraphField.node = p.nodes.map Node.toMessage :=
    messages_eq hnodes
  have hinitializers : p.toMessage.messages GraphField.initializer =
      p.initializers.map Tensor.toMessage := messages_eq hinitializers
  have hinputs := messages_eq hinputs
  have houtputs := messages_eq houtputs
  have hvalueInfo := messages_eq hvalueInfo
  obtain ⟨initializers, hreadInitializers, hrest⟩ := bind_eq_ok_iff.mp h
  obtain ⟨nodes, hreadNodes, hpure⟩ := bind_eq_ok_iff.mp hrest
  obtain rfl := Except.ok.inj hpure
  refine ⟨?_, ?_, ?_, ?_, ?_, ?_⟩
  · simp only [SameIn, List.forall_mem_cons]
    refine ⟨hname.trans ?_, hdoc.trans ?_, hsparse.trans ?_, hquantization.trans ?_,
      List.forall_mem_nil _⟩
    · exact hconforms.rewrite_text (by decide)
    · exact hconforms.rewrite_text (by decide)
    · exact hconforms.rewrite_messages
        (show Field.inners GraphField.sparseInitializer .sparseTensor ∈ _ by decide)
    · exact hconforms.rewrite_messages
        (show Field.inners GraphField.quantization .quantization ∈ _ by decide)
  · rw [hnodes, List.forall₂_map_right_iff]
    refine forall₂_imp_of_mem (mapM_eq_ok_iff.mp hreadNodes) fun m hm n hn => ?_
    exact Node.keepsNode_toMessage (hconforms.inner_of_mem_messages
      (show Field.inners GraphField.node .node ∈ Kind.graph.fields by decide) hm) hn
  · rw [hinitializers, List.forall₂_map_right_iff]
    refine forall₂_imp_of_mem (mapM_eq_ok_iff.mp hreadInitializers) fun m hm t ht => ?_
    exact Tensor.keepsTensor_toMessage (hconforms.inner_of_mem_messages
      (show Field.inners GraphField.initializer .tensor ∈ Kind.graph.fields by decide) hm)
      (mapError_eq_ok_iff.mp ht)
  · exact keepsValues_toMessage hg (by decide) hinputs
  · exact keepsValues_toMessage hg (by decide) houtputs
  · exact keepsValues_toMessage hg (by decide) hvalueInfo

end GraphParts

/-! ### Models -/

/-- All fields but the graph are the same, and the graph tells the same. -/
structure KeepsModel (p q : Message) : Prop where
  same : SameIn [ModelField.irVersion, ModelField.producerName, ModelField.producerVersion,
    ModelField.domain, ModelField.modelVersion, ModelField.doc, ModelField.opsetImport,
    ModelField.metadata, ModelField.trainingInfo, ModelField.functions] p q
  graph : ∃ g g', p.message? ModelField.graph = some g ∧ q.message? ModelField.graph = some g' ∧
    KeepsGraph g g'

lemma OpsetImport.toMessage_ofMessage {m : Message} (hm : Kind.opsetImport.Readable m) :
    (OpsetImport.ofMessage m).toMessage = m := by
  have hconforms := hm.conformsWith
  have heq : m = [ofText OpsetField.domain (m.text OpsetField.domain),
      ofInt64 OpsetField.version (m.int64 OpsetField.version)].flatten :=
    hconforms.eq_flatten (.cons (fills_ofValue _ _) <| .cons (fills_ofValue _ _) .nil) <|
      .cons (hconforms.rewrite_text (by decide)) <|
      .cons (hconforms.rewrite_int64 (by decide)) .nil
  rw [List.flatten_cons, List.flatten_singleton] at heq
  exact heq.symm

lemma map_toMessage_ofMessage {ms : List Message}
    (hms : ∀ m ∈ ms, Kind.opsetImport.Readable m) :
    (ms.map OpsetImport.ofMessage).map OpsetImport.toMessage = ms := by
  rw [List.map_map]
  refine (List.map_congr_left (g := id) fun m hm => ?_).trans (List.map_id ms)
  exact OpsetImport.toMessage_ofMessage (hms m hm)

namespace Model

lemma values_toMessage (m : Model) :
    List.Forall₂ (fun f block => m.toMessage.values f.number = Message.values block f.number)
      Kind.model.fields m.blocks :=
  Kind.forall₂_values m.toMessage_eq <|
    .cons (fills_ofValue _ _) <| .cons (fills_ofValue _ _) <| .cons (fills_ofValue _ _) <|
    .cons (fills_ofValue _ _) <| .cons (fills_ofValue _ _) <| .cons (fills_ofValue _ _) <|
    .cons (fills_ofValues _ _) <| .cons (fills_ofValues _ _) <| .cons (fills_ofValues _ _) <|
    .cons (fills_ofValues _ _) <| .cons (fills_ofValues _ _) .nil

/-- Whatever model a message stands for, the message that this model is written as tells all that
the first one does. -/
theorem keepsModel_toMessage {p : Message} {m : Model} (hp : Kind.model.Readable p)
    (h : Model.ofMessage p = .ok m) : KeepsModel p m.toMessage := by
  have hconforms := hp.conformsWith
  have hvalues := m.values_toMessage
  simp only [Kind.fields, blocks, List.forall₂_cons] at hvalues
  obtain ⟨hirVersion, hproducer, hproducerVersion, hdomain, hversion, hdoc, hgraph, hopsets,
    hmetadata, htraining, hfunctions, -⟩ := hvalues
  have hgraph : m.toMessage.message? ModelField.graph = some m.graph.toMessage :=
    message?_eq hgraph
  unfold Model.ofMessage at h
  split at h
  · cases h
  rename_i g hg
  obtain ⟨parts, hparts, hrest⟩ := bind_eq_ok_iff.mp h
  obtain ⟨graph, hbuild, hpure⟩ := bind_eq_ok_iff.mp hrest
  obtain rfl := Except.ok.inj hpure
  obtain rfl := GraphParts.toGraphParts_of_build (mapError_eq_ok_iff.mp hbuild)
  constructor
  · simp only [SameIn, List.forall_mem_cons]
    refine ⟨hirVersion.trans ?_, hproducer.trans ?_, hproducerVersion.trans ?_, hdomain.trans ?_,
      hversion.trans ?_, hdoc.trans ?_, hopsets.trans ?_, hmetadata.trans ?_, htraining.trans ?_,
      hfunctions.trans ?_, List.forall_mem_nil _⟩
    · exact hconforms.rewrite_int64 (by decide)
    · exact hconforms.rewrite_text (by decide)
    · exact hconforms.rewrite_text (by decide)
    · exact hconforms.rewrite_text (by decide)
    · exact hconforms.rewrite_int64 (by decide)
    · exact hconforms.rewrite_text (by decide)
    · have hfield : Field.inners ModelField.opsetImport .opsetImport ∈ Kind.model.fields := by
        decide
      dsimp only
      rw [map_toMessage_ofMessage fun _ ho => hconforms.inner_of_mem_messages hfield ho]
      exact hconforms.rewrite_messages hfield
    · have hfield : Field.inners ModelField.metadata .entry ∈ Kind.model.fields := by decide
      dsimp only
      rw [entryMessages_entriesOfMessages fun _ hm => hconforms.inner_of_mem_messages hfield hm]
      exact hconforms.rewrite_messages hfield
    · exact hconforms.rewrite_messages
        (show Field.inners ModelField.trainingInfo .trainingInfo ∈ Kind.model.fields by decide)
    · exact hconforms.rewrite_messages
        (show Field.inners ModelField.functions .function ∈ Kind.model.fields by decide)
  · have hreadable : Kind.graph.Readable g := hconforms.inner_of_mem_messages
      (show Field.inner ModelField.graph .graph ∈ Kind.model.fields by decide)
      (List.mem_of_head? hg)
    exact ⟨g, _, hg, hgraph,
      GraphParts.keepsGraph_toMessage hreadable (mapError_eq_ok_iff.mp hparts)⟩

/-- A message with two settings under one name, the second without a kind, and with a constant that
has an unknown type and elements in two fields. -/
def mixedMessage : Message :=
  ofMessage? ModelField.graph (some <|
    ofMessages GraphField.node [
      ofText NodeField.opType "R" ++ ofMessages NodeField.attr [
        ofText AttributeField.name "a" ++ ofInt64 AttributeField.int 1 ++
          ofInt32 AttributeField.type 2,
        ofText AttributeField.name "a" ++ ofInt64s AttributeField.ints [4, 5]]] ++
    ofMessages GraphField.initializer [
      ofInt64s TensorField.dims [2] ++ ofInt32 TensorField.elemType 99 ++
        ofFixed32s TensorField.floatData [0x3F800000] ++ ofText TensorField.name "w" ++
        ofChunk TensorField.rawData [0x01, 0x02]] ++
    ofMessages GraphField.input [
      ofText ValueField.name "x" ++ ofMessage? ValueField.type (some <|
        ofMessage? TypeField.tensor (some <| ofMessage? TensorTypeField.shape (some <|
          ofMessages ShapeField.dim [Dim.toMessage (.known 3), [], Dim.toMessage (.param "n")])))])

/-- The model that this message stands for. -/
def mixedModel : Model where
  irVersion := 0
  opsets := []
  graph :=
    { nodes := [{ op := "R", inputs := [], outputs := [],
                  attributes := .ofList [("a", .ints [4, 5])] }]
      inputs := [{ name := "x", type := ⟨none, some ⟨[.known 3, .unknown, .param "n"]⟩⟩ }]
      initializers := [{ name := "w", elem? := none, extents := [2],
                         payload := .raw [0x01, 0x02], otherCode? := some 99 }]
      producers := [("w", .initializer 0), ("x", .input)]
      order := [0] }

theorem keepsModel_toMessage_mixed :
    Kind.model.Readable mixedMessage ∧ Model.ofMessage mixedMessage = .ok mixedModel ∧
      KeepsModel mixedMessage mixedModel.toMessage := by
  have hdecode : Message.decode? .model (mixedMessage.encode .model) = some mixedMessage := by
    decide +kernel
  have hreadable : Kind.model.Readable mixedMessage := ⟨_, Kind.conforms_of_decodeNested? hdecode⟩
  have hread : Model.ofMessage mixedMessage = .ok mixedModel := by decide +kernel
  exact ⟨hreadable, hread, keepsModel_toMessage hreadable hread⟩

end Model

end TensorGraph
