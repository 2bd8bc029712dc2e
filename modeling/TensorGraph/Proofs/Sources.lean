import TensorGraph.Proofs.Revisions

/-!
# Sources of values

What supplies a named value is an input, a constant, a sparse constant or a result of a node. In a
repaired model no two of these share a name, except that a sparse constant may have the name of an
input, of a constant or of another sparse constant: a repair drops inputs for the sake of constants
only, and among sparse constants the checks look for names of results alone.
-/

namespace TensorGraph

namespace GraphParts

/-- The names of all that supplies a value, each as often as there is something of that name. -/
def sources (p : GraphParts) : List String :=
  p.inputs.map ValueInfo.name ++ p.initializers.map Tensor.name ++
    p.sparse.map SparseConstant.name ++ p.presentResults

/-- A node or the graph itself refers to the name. -/
def Uses (p : GraphParts) (name : String) : Prop :=
  name ≠ "" ∧ ((∃ n ∈ p.nodes, name ∈ n.inputs) ∨ name ∈ p.outputs.map ValueInfo.name)

/-- A sparse constant shares its name with an input, a constant or another sparse constant. -/
def SharesSparse (p : GraphParts) (name : String) : Prop :=
  name ∈ p.sparse.map SparseConstant.name ∧
    (name ∈ p.inputs.map ValueInfo.name ∨ name ∈ p.initializers.map Tensor.name ∨
      ¬(p.sparse.map SparseConstant.name).count name = 1)

variable {p : GraphParts} {name : String}

lemma count_sources (p : GraphParts) (name : String) :
    p.sources.count name = (p.inputs.map ValueInfo.name).count name +
      (p.initializers.map Tensor.name).count name +
        (p.sparse.map SparseConstant.name).count name + p.presentResults.count name := by
  unfold sources
  rw [List.count_append, List.count_append, List.count_append]

/-- What produces a name is one of its sources. -/
lemma mem_sources_of_firstProducer? (h : (p.firstProducer? name).isSome) : name ∈ p.sources := by
  by_contra hnot
  simp only [sources, List.mem_append, not_or] at hnot
  obtain ⟨⟨⟨hinput, hconstant⟩, hsparse⟩, hresult⟩ := hnot
  have hnone : p.firstConstant? name = none := by
    have hfind : (p.sparse.findIdx? fun s => !name.isEmpty && s.name == name) = none := by
      rw [List.findIdx?_eq_none_iff]
      intro s hs
      have hne : s.name ≠ name := fun heq => hsparse (heq ▸ List.mem_map_of_mem hs)
      simp [hne]
    unfold firstConstant?
    rw [findIdx?_eq_none_of_not_mem hconstant, hfind]
    rfl
  rw [firstProducer?_eq, hnone, if_neg hinput, firstResult?_eq_none hresult] at h
  cases h

lemma mem_sources_of_uses (hresolve : p.NamesResolve) (h : p.Uses name) : name ∈ p.sources := by
  obtain ⟨hne, ⟨n, hn, hname⟩ | houtput⟩ := h
  · have hpresent : name ∈ n.presentInputs := List.mem_filter.mpr ⟨hname, by simpa using hne⟩
    exact mem_sources_of_firstProducer? (hresolve.1 n hn name hpresent)
  · obtain ⟨v, hv, rfl⟩ := List.mem_map.mp houtput
    exact mem_sources_of_firstProducer? (hresolve.2 v hv)

lemma count_eq_zero_of_disjoint {as bs : List String} (h : ∀ name ∈ as, name ∉ bs)
    (name : String) (hname : 0 < as.count name) : bs.count name = 0 :=
  List.count_eq_zero.mpr (h name (List.count_pos_iff.mp hname))

/-- Each of the four lists but that of sparse constants has a name at most once, and where names of
two lists may be the same, one of the two is that of a sparse constant. -/
lemma count_sources_eq_one_iff (hunique : p.NamesUnique)
    (hproper : ∀ name ∈ p.inputs.map ValueInfo.name, name ∉ p.initializers.map Tensor.name)
    (hsource : name ∈ p.sources) : p.sources.count name = 1 ↔ ¬p.SharesSparse name := by
  have hinputs := List.nodup_iff_count_le_one.mp hunique.inputs name
  have hinitializers := List.nodup_iff_count_le_one.mp hunique.initializers name
  have hresults := List.nodup_iff_count_le_one.mp hunique.results name
  have hconstant := count_eq_zero_of_disjoint hproper name
  have hresult := count_eq_zero_of_disjoint hunique.resultsUnique.notInput name
  have hresult' := count_eq_zero_of_disjoint hunique.resultsUnique.notInitializer name
  have hresult'' := count_eq_zero_of_disjoint hunique.resultsUnique.notSparse name
  have hsome := List.count_pos_iff.mpr hsource
  unfold SharesSparse
  rw [← List.count_pos_iff, ← List.count_pos_iff, ← List.count_pos_iff]
  rw [count_sources] at hsome ⊢
  omega

end GraphParts

namespace Model

open GraphParts Wire

variable {m m' : Model} {s : Settings}

/-- In a repaired model each name that is used has a source, and exactly one unless a sparse
constant shares the name with an input, a constant or another sparse constant. The names of the
nodes are those they had before, be they different or not. -/
theorem repair_sources {r : RepairReport} (h : m.repair s = .ok (m', r)) :
    (∀ name, m'.graph.Uses name → name ∈ m'.graph.sources ∧
      (m'.graph.sources.count name = 1 ↔ ¬m'.graph.SharesSparse name)) ∧
      m'.graph.nodes.map Node.name = m.graph.nodes.map Node.name := by
  obtain ⟨hpropagate, hvalid, _, _⟩ := repair_eq_ok_iff.mp h
  obtain ⟨hunique, hresolve, _⟩ := validate_eq_ok_iff.mp hvalid
  obtain ⟨_, _, hkeeps⟩ := propagateIf_keeps hpropagate
  have hproper : ∀ name ∈ m'.graph.inputs.map ValueInfo.name,
      name ∉ m'.graph.initializers.map Tensor.name := by
    refine List.forall_mem_map.mpr fun v hv => ?_
    simpa [Graph.isProperInput] using isProperInput_of_propagateIf hpropagate v hv
  constructor
  · intro name huses
    have hsource := mem_sources_of_uses (exists_resolve_eq_ok_iff.mp hresolve).1 huses
    exact ⟨hsource, count_sources_eq_one_iff hunique hproper hsource⟩
  · rw [hkeeps.nodes, prepared_graph]
    rfl

/-- Two nodes of one name, with a value and sparse constants that the first one may take. -/
def relays (label : String) (sparse : List SparseConstant) : GraphParts where
  nodes := [{ name := label, op := "Relu", inputs := ["x"], outputs := ["h"] },
            { name := label, op := "Relu", inputs := ["h"], outputs := ["y"] }]
  inputs := [{ name := "x", type := .of .float (.ofExtents [4]) }]
  outputs := [{ name := "y" }]
  sparse

/-- A model with this graph, of versions for which the rules are built in. -/
def relayModel (graph : Graph) : Model := { irVersion := 8, opsets := [⟨"", 13⟩], graph }

/-- A sparse constant of that name. -/
def namedSparse (name : String) : SparseConstant :=
  Message.ofMessage? SparseField.values (some (Message.ofText TensorField.name name))

theorem repair_sources_on_relays :
    ∃ g m' r, (relays "" [namedSparse "w"]).build = .ok g ∧
      (relayModel g).repair {} = .ok (m', r) ∧ m'.graph.Uses "x" ∧
      m'.graph.sources.count "x" = 1 := by
  have hfacts : ((relays "" [namedSparse "w"]).build.map fun g =>
      ((relayModel g).repair {}).map fun p => p.1.graph.toGraphParts) =
      .ok (.ok { relays "" [namedSparse "w"] with
        outputs := [{ name := "y", type := .of .float (.ofExtents [4]) }]
        valueInfo := [{ name := "h", type := .of .float (.ofExtents [4]) }] }) := by decide +kernel
  obtain ⟨g, hbuild, hrepaired⟩ := map_eq_ok_iff.mp hfacts
  obtain ⟨⟨m', r⟩, hrepair, hparts⟩ := map_eq_ok_iff.mp hrepaired
  have huses : m'.graph.Uses "x" := by
    unfold Uses
    rw [hparts]
    decide
  have hshares : ¬m'.graph.SharesSparse "x" := by
    unfold SharesSparse
    rw [hparts]
    decide
  exact ⟨g, m', r, hbuild, hrepair, huses, ((repair_sources hrepair).1 "x" huses).2.mpr hshares⟩

/-- A repair accepts two nodes of the same name, and two sources of a value that is used. -/
theorem repair_accepts_shared_names :
    (∃ g m' r, (relays "n" []).build = .ok g ∧ (relayModel g).repair {} = .ok (m', r) ∧
        m'.graph.nodes.map Node.name = ["n", "n"]) ∧
      ∃ g m' r, (relays "" [namedSparse "x"]).build = .ok g ∧
        (relayModel g).repair {} = .ok (m', r) ∧ m'.graph.Uses "x" ∧
        m'.graph.sources.count "x" = 2 := by
  have hnodes : ((relays "n" []).build.map fun g =>
      ((relayModel g).repair {}).map fun p => p.1.graph.nodes.map Node.name) =
        .ok (.ok ["n", "n"]) := by decide +kernel
  have hsources : ((relays "" [namedSparse "x"]).build.map fun g =>
      ((relayModel g).repair {}).map fun p =>
        (p.1.graph.nodes.map Node.inputs, p.1.graph.sources)) =
        .ok (.ok ([["x"], ["h"]], ["x", "x", "h", "y"])) := by decide +kernel
  obtain ⟨g, hbuild, hrepaired⟩ := map_eq_ok_iff.mp hnodes
  obtain ⟨⟨m', r⟩, hrepair, hnames⟩ := map_eq_ok_iff.mp hrepaired
  obtain ⟨g', hbuild', hrepaired'⟩ := map_eq_ok_iff.mp hsources
  obtain ⟨⟨m'', r'⟩, hrepair', hfacts⟩ := map_eq_ok_iff.mp hrepaired'
  obtain ⟨hinputs, hcount⟩ := Prod.mk.inj hfacts
  have hused : ["x"] ∈ m''.graph.nodes.map Node.inputs := by simp [hinputs]
  obtain ⟨n, hn, hx⟩ := List.mem_map.mp hused
  refine ⟨⟨g, m', r, hbuild, hrepair, hnames⟩, g', m'', r', hbuild', hrepair',
    ⟨by decide, .inl ⟨n, hn, hx ▸ List.mem_singleton_self _⟩⟩, ?_⟩
  rw [hcount]
  decide

end Model

end TensorGraph
