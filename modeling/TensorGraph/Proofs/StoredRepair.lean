import TensorGraph.Proofs.Propagation.Names
import TensorGraph.Proofs.RepeatedRepair
import TensorGraph.Proofs.Storage.Models

/-!
# Repaired models survive

A repaired model that is written and read again has the inputs, outputs, inner values, producers and
order that it had. The one thing that a file does not hold is an extent of `2 ^ 63` or more, which
no file that is read has, but which the product of two extents may reach.
-/

namespace TensorGraph

open Wire

/-- All extents that are numbers are below `2 ^ 63`. -/
def ValueInfo.FitsFile (v : ValueInfo) : Prop :=
  ∀ s, v.type.shape? = some s → ∀ n, Dim.known n ∈ s.dims → n < 0x8000000000000000

/-- No name of an extent is empty. -/
abbrev NamesFull : String → Prop := fun p => p ≠ ""

lemma Dim.Storable.namedBy {d : Dim} (h : d.Storable) : d.NamedBy NamesFull := by
  cases d with
  | param p => exact h
  | known n => exact True.intro
  | unknown => exact True.intro

lemma TensorType.Storable.namedBy {t : TensorType} (h : t.Storable) : t.NamedBy NamesFull :=
  fun s hs d hd => (h s hs d hd).namedBy

lemma ValueInfo.storable_iff_fitsFile {v : ValueInfo} (h : v.type.NamedBy NamesFull) :
    v.type.Storable ↔ v.FitsFile := by
  constructor
  · intro hstorable s hs n hn
    exact hstorable s hs (.known n) hn
  · intro hfits s hs d hd
    cases d with
    | known n => exact hfits s hs n hd
    | param p => exact h s hs (.param p) hd
    | unknown => exact True.intro

namespace GraphParts

variable {p q : GraphParts}

lemma map_name_reread (vs : List ValueInfo) :
    (vs.map ValueInfo.reread).map ValueInfo.name = vs.map ValueInfo.name := by
  rw [List.map_map]
  rfl

lemma reread_keepsProducers (p : GraphParts) : p.KeepsProducers p.reread where
  nodes := rfl
  initializers := rfl
  sparse := rfl
  inputs := by
    change List.Sublist ((p.inputs.map ValueInfo.reread).map ValueInfo.name) _
    rw [map_name_reread]
  outputs := map_name_reread p.outputs
  producers name := by
    have hinputs : ((p.inputs.map ValueInfo.reread).any fun v => v.name == name) =
        p.inputs.any fun v => v.name == name := by
      rw [List.any_map]
      rfl
    unfold firstProducer?
    change (_ : Option Producer).or (Option.or _ (Option.or (if ((p.inputs.map ValueInfo.reread).any
      fun v => v.name == name) = true then _ else _) _)) = _
    rw [hinputs]
    rfl

end GraphParts

namespace Graph

variable {g : Graph}

lemma reread_positive (g : Graph) :
    g.positive.toGraphParts.reread = g.toGraphParts.reread.positive := rfl

/-- Read again, a graph that was built and repaired is built with the same producers and order. -/
lemma exists_build_reread {g' : Graph} (hg : g.toGraphParts.build = .ok g)
    {records : List ValueInfo} (hg' : g' = records.foldl record g.normalizeInputs) :
    ∃ g'', g'.toGraphParts.reread.build = .ok g'' ∧ g''.toGraphParts = g'.toGraphParts.reread ∧
      (∀ name, g''.producer? name = g'.producer? name) ∧ g''.order = g'.order := by
  have hkeeps : g.toGraphParts.KeepsProducers g'.toGraphParts.reread := by
    refine .trans ?_ g'.toGraphParts.reread_keepsProducers
    rw [hg']
    exact g.normalizeInputs_keepsProducers.trans (foldl_record_keepsProducers _ _)
  obtain ⟨g'', hbuild, hparts, hproducer, horder⟩ := hkeeps.exists_build hg
  obtain ⟨_, _, hframe⟩ := g.normalizeInputs.exists_foldl_record_eq records
  rw [hframe] at hg'
  refine ⟨g'', hbuild, hparts, ?_, ?_⟩
  · intro name
    rw [hproducer]
    unfold producer?
    rw [hg', ← (resolved_of_build hg).normalizeInputs_producers]
  · rw [horder, hg']
    rfl

lemma mem_inputs_of_normalizeInputs {v : ValueInfo} (hv : v ∈ g.normalizeInputs.inputs) :
    v ∈ g.inputs :=
  (List.mem_filter.mp hv).1

lemma NamedBy.normalizeInputs {P : String → Prop} (h : g.NamedBy P) :
    g.normalizeInputs.NamedBy P := by
  intro v hv
  refine h v ?_
  rw [List.append_assoc] at hv ⊢
  rcases List.mem_append.mp hv with hv | hv
  · exact List.mem_append_left _ (mem_inputs_of_normalizeInputs hv)
  · exact List.mem_append_right _ hv

end Graph

namespace Model

variable {m m' : Model} {s : Settings} {r : RepairReport}

/-- What a repair may change: the version, the list of inputs, and types that are recorded. -/
def revised (m : Model) (version : Int64) (records : List ValueInfo) : Model :=
  { m with irVersion := version, graph := records.foldl Graph.record m.graph.normalizeInputs }

lemma exists_eq_revised_of_repair {P : String → Prop} (hm : m.graph.Resolved)
    (hnamed : m.graph.NamedBy P) (h : m.repair s = .ok (m', r)) :
    ∃ version records, m' = m.revised version records ∧
      ∀ v ∈ records, v.foreign? = none ∧ v.type.NamedBy P := by
  obtain ⟨hpropagate, hvalid, _, _⟩ := repair_eq_ok_iff.mp h
  have hunique := resultsUnique_of_propagateIf hpropagate hvalid
  have hprepared : m.prepared s =
      { m with irVersion := (m.prepared s).irVersion, graph := m.graph.normalizeInputs } := by
    unfold prepared raiseVersion
    split_ifs <;> rfl
  have horder : m.graph.normalizeInputs.InOrder := hm.toInOrder.normalizeInputs
  rw [prepared_graph] at hunique
  rcases propagateIf_cases hpropagate with ⟨_, g, _, hgraph, rfl, _⟩ | ⟨_, rfl, _⟩
  · rw [prepared_graph] at hgraph
    obtain ⟨k, hrun, heq⟩ := map_eq_ok_iff.mp hgraph
    obtain ⟨rfl, _⟩ := Prod.mk.inj heq
    refine ⟨(m.prepared s).irVersion, k.records.reverse, ?_, fun v hv => ?_⟩
    · conv_lhs => rw [hprepared]
      rfl
    · have hrecord := List.mem_reverse.mp hv
      refine ⟨?_, (Graph.ensures_passNodes hnamed.normalizeInputs _ k hrun).records v hrecord⟩
      rw [(Graph.recorded_of_passNodes horder hunique hrun v hrecord).plain]
  · exact ⟨_, [], hprepared, by simp⟩

/-- A described value that a repaired model may have. -/
def Kept (v : ValueInfo) : Prop := v.Writable 97 ∧ v.type.NamedBy NamesFull

lemma kept_of_storable (hm : m.positive.Storable 94) :
    ∀ v ∈ m.graph.inputs ++ m.graph.outputs ++ m.graph.valueInfo, Kept v := by
  have hwritable : ∀ v ∈ m.graph.inputs ++ m.graph.outputs ++ m.graph.valueInfo,
      v.Writable 97 := by
    rw [List.forall_mem_append, List.forall_mem_append]
    exact ⟨⟨hm.graph.inputs, hm.graph.outputs⟩, hm.graph.valueInfo⟩
  exact fun v hv => ⟨hwritable v hv, (hm.types v hv).namedBy⟩

lemma kept_retyped {v w : ValueInfo} (hv : v.type.NamedBy NamesFull) (hw : Kept w) :
    Kept (w.retyped v.type) := by
  unfold ValueInfo.retyped
  split_ifs with hforeign
  · exact hw
  · refine ⟨fun m hm => absurd ?_ hforeign, hv⟩
    exact Option.isSome_iff_exists.mpr ⟨m, hm⟩

/-- The values of a repaired model can be written, and no names of extents are empty. -/
lemma kept_of_eq_revised {version : Int64} {records : List ValueInfo}
    (hm : m.positive.Storable 94) (hm' : m' = m.revised version records)
    (hrecords : ∀ v ∈ records, v.foreign? = none ∧ v.type.NamedBy NamesFull) :
    ∀ v ∈ m'.graph.inputs ++ m'.graph.outputs ++ m'.graph.valueInfo, Kept v := by
  subst hm'
  have hkept := kept_of_storable hm
  rw [List.append_assoc, List.forall_mem_append] at hkept ⊢
  constructor
  · intro v hv
    have hinput : v ∈ m.graph.normalizeInputs.inputs := Graph.foldl_record_inputs _ records ▸ hv
    exact hkept.1 v (Graph.mem_inputs_of_normalizeInputs hinput)
  · refine Graph.forall_mem_foldl_record hkept.2 (fun v hv => ?_)
      fun v hv w hw => kept_retyped (hrecords v hv).2 hw
    obtain ⟨hplain, hnamed⟩ := hrecords v hv
    exact ⟨fun m hm => absurd (hplain.symm.trans hm) nofun, hnamed⟩

lemma writable_of_eq_revised {version : Int64} {records : List ValueInfo}
    (hm : m.positive.Storable 94) (hm' : m' = m.revised version records)
    (hkept : ∀ v ∈ m'.graph.inputs ++ m'.graph.outputs ++ m'.graph.valueInfo, Kept v) :
    m'.positive.Writable 94 := by
  rw [List.forall_mem_append, List.forall_mem_append] at hkept
  obtain ⟨⟨hinputs, houtputs⟩, hvalueInfo⟩ := hkept
  obtain ⟨_, _, hgraph⟩ := m.graph.normalizeInputs.exists_foldl_record_eq records
  rw [revised, hgraph] at hm'
  subst hm'
  exact {
    graph := {
      nodes := hm.graph.nodes
      initializers := hm.graph.initializers
      inputs := fun v hv => (hinputs v hv).1
      outputs := fun v hv => (houtputs v hv).1
      valueInfo := fun v hv => (hvalueInfo v hv).1
      quantization := hm.graph.quantization
      sparse := hm.graph.sparse }
    functions := hm.functions
    trainingInfo := hm.trainingInfo }

/-- A repaired model that is written and read again has its inputs, producers and order, and so it
has its outputs and inner values exactly if all extents of these are below `2 ^ 63`. -/
theorem decode_encode_of_repair {bytes : Bytes} (hdecode : decode bytes = .ok m)
    (hrepair : m.repair s = .ok (m', r)) (hlength : m'.encode.length < 2 ^ 64) :
    ∃ m'', decode m'.encode = .ok m'' ∧ m''.graph.inputs = m'.graph.inputs ∧
      m''.graph.outputs = m'.graph.outputs.map ValueInfo.reread ∧
      m''.graph.valueInfo = m'.graph.valueInfo.map ValueInfo.reread ∧
      (m''.graph.outputs ++ m''.graph.valueInfo = m'.graph.outputs ++ m'.graph.valueInfo ↔
        ∀ v ∈ m'.graph.outputs ++ m'.graph.valueInfo, v.FitsFile) ∧
      (∀ name, m''.graph.producer? name = m'.graph.producer? name) ∧
      m''.graph.order = m'.graph.order := by
  have hstorable := storable_of_decode hdecode
  have hbuild := build_of_decode hdecode
  have hresolved := Graph.resolved_of_build hbuild
  have hnamed : m.graph.NamedBy NamesFull := fun v hv => (kept_of_storable hstorable v hv).2
  obtain ⟨version, records, hm', hrecords⟩ :=
    exists_eq_revised_of_repair hresolved hnamed hrepair
  have hkept := kept_of_eq_revised hstorable hm' hrecords
  have hwritable := writable_of_eq_revised hstorable hm' hkept
  have hrecorded : m'.graph = records.foldl Graph.record m.graph.normalizeInputs :=
    congrArg Model.graph hm'
  obtain ⟨g, hread, hparts, hproducers, horder⟩ := Graph.exists_build_reread hbuild hrecorded
  have hinputs : m'.graph.inputs.map ValueInfo.reread = m'.graph.inputs := by
    refine GraphParts.map_reread_eq_self_iff.mpr fun v hv => hstorable.types v ?_
    rw [hrecorded, Graph.foldl_record_inputs] at hv
    rw [List.append_assoc]
    exact List.mem_append_left _ (Graph.mem_inputs_of_normalizeInputs hv)
  have hvalues : ∀ v ∈ m'.graph.outputs ++ m'.graph.valueInfo, v.type.Storable ↔ v.FitsFile := by
    rw [List.append_assoc, List.forall_mem_append] at hkept
    exact fun v hv => ValueInfo.storable_iff_fitsFile (hkept.2 v hv).2
  have hbuilt : m'.positive.graph.toGraphParts.reread.build = .ok g.positive := by
    change m'.graph.positive.toGraphParts.reread.build = _
    rw [Graph.reread_positive, GraphParts.build_positive hread]
  refine ⟨_, hwritable.decode_encode hbuilt hlength, ?_⟩
  change g.inputs = _ ∧ g.outputs = _ ∧ g.valueInfo = _ ∧ (g.outputs ++ g.valueInfo = _ ↔ _) ∧
    (∀ name, g.producer? name = _) ∧ g.order = _
  rw [hparts]
  refine ⟨hinputs, rfl, rfl, ?_, hproducers, horder⟩
  change m'.graph.outputs.map ValueInfo.reread ++ m'.graph.valueInfo.map ValueInfo.reread = _ ↔ _
  rw [← List.map_append, GraphParts.map_reread_eq_self_iff]
  exact forall₂_congr hvalues

/-- A model of one node that puts all extents of its operand into one. -/
def flattening (extents : List Nat) : Model where
  irVersion := 8
  opsets := [⟨"", 13⟩]
  graph := {
    nodes := [{ op := "Flatten", inputs := ["x"], outputs := ["y"],
                attributes := .ofList [("axis", .int 0)] }]
    inputs := [{ name := "x", type := .of .float (.ofExtents extents) }]
    outputs := [{ name := "y" }]
    producers := [("x", .input), ("y", .node 0 0)]
    order := [0] }

theorem decode_encode_of_repair_on_flattening :
    ∃ m m' r m'', decode (flattening [2, 3]).encode = .ok m ∧ m.repair {} = .ok (m', r) ∧
      m'.encode.length < 2 ^ 64 ∧ decode m'.encode = .ok m'' ∧
      m''.graph.outputs = [{ name := "y", type := .of .float (.ofExtents [1, 6]) }] := by
  have hdecode : decode (flattening [2, 3]).encode = .ok (flattening [2, 3]) := by decide +kernel
  have hfacts : ((flattening [2, 3]).repair {}).map
      (fun p => (p.1.graph.outputs, p.1.encode.length)) =
        .ok ([{ name := "y", type := .of .float (.ofExtents [1, 6]) }], 78) := by decide +kernel
  obtain ⟨⟨m', r⟩, hrepair, heq⟩ := map_eq_ok_iff.mp hfacts
  obtain ⟨houtputs, hbytes⟩ := Prod.mk.inj heq
  have hlength : m'.encode.length < 2 ^ 64 := by
    rw [hbytes]
    decide
  obtain ⟨m'', hread, _, hreread, _⟩ := decode_encode_of_repair hdecode hrepair hlength
  refine ⟨_, m', r, m'', hdecode, hrepair, hlength, hread, ?_⟩
  rw [hreread, houtputs]
  rfl

/-- The product of two extents that a file holds may be one that no file holds. -/
theorem decode_encode_differs_after_repair :
    ∃ m m' r, decode (flattening [2, 0x4000000000000000]).encode = .ok m ∧
      m.repair {} = .ok (m', r) ∧
      m'.graph.outputs =
        [{ name := "y", type := .of .float (.ofExtents [1, 0x8000000000000000]) }] ∧
      decode m'.encode = .ok { m' with
        graph.outputs := [{ name := "y", type := .of .float ⟨[.known 1, .unknown]⟩ }] } :=
  ⟨flattening [2, 0x4000000000000000],
    { flattening [2, 0x4000000000000000] with
      graph.outputs := [{ name := "y", type := .of .float (.ofExtents [1, 0x8000000000000000]) }] },
    ⟨0, ⟨8, 8⟩, some ⟨1, []⟩⟩, by decide +kernel, by decide +kernel, rfl, by decide +kernel⟩

end Model

end TensorGraph
