import TensorGraph.Proofs.NodeOrder
import TensorGraph.Proofs.RepeatedRepair

/-!
# Revised graphs

A graph that was built is revised by dropping inputs, by recording types and by propagating them.
None of these resolves names again. The index and the order stay what a graph built anew would have,
except for a result that an input had hidden when the graph was built: once that input is dropped,
the index has no producer for the name, and the order does not know what depends on it.
-/

namespace TensorGraph

namespace GraphParts

/-- An input hides a result of a node: both have this name. -/
def Shadows (p : GraphParts) (name : String) : Prop :=
  name ∈ p.inputs.map ValueInfo.name ∧ name ∈ p.presentResults

/-- The second graph differs in what its values are described as, and it has no new inputs. -/
structure Narrows (p q : GraphParts) : Prop where
  nodes : q.nodes = p.nodes
  initializers : q.initializers = p.initializers
  sparse : q.sparse = p.sparse
  inputs : q.inputs.map ValueInfo.name ⊆ p.inputs.map ValueInfo.name

/-- The producer of a name in the first graph, unless it was an input that the second one lacks. -/
def remaining? (p q : GraphParts) (name : String) : Option Producer :=
  if p.firstProducer? name = some .input ∧ name ∉ q.inputs.map ValueInfo.name then none
  else p.firstProducer? name

/-- What stores a constant of that name. -/
def firstConstant? (p : GraphParts) (name : String) : Option Producer :=
  ((p.initializers.findIdx? fun t => t.name == name).map .initializer).or
    ((p.sparse.findIdx? fun s => !name.isEmpty && s.name == name).map .sparse)

variable {p q : GraphParts} {name : String}

lemma firstProducer?_eq (p : GraphParts) (name : String) :
    p.firstProducer? name = (p.firstConstant? name).or
      (if name ∈ p.inputs.map ValueInfo.name then some .input else firstResult? p.nodes name) := by
  have hany : (p.inputs.any fun v => v.name == name) = true ↔
      name ∈ p.inputs.map ValueInfo.name := by simp
  unfold firstProducer? firstConstant?
  rw [← Option.or_assoc]
  congr 1
  by_cases hinput : name ∈ p.inputs.map ValueInfo.name
  · rw [if_pos (hany.mpr hinput), if_pos hinput, Option.some_or]
  · rw [if_neg (mt hany.mp hinput), if_neg hinput, Option.none_or]

lemma constant_of_firstConstant? {producer : Producer}
    (h : p.firstConstant? name = some producer) :
    (∃ i, producer = .initializer i) ∨ ∃ i, producer = .sparse i := by
  unfold firstConstant? at h
  rcases Option.or_eq_some_iff.mp h with h | ⟨_, h⟩
  · obtain ⟨i, _, rfl⟩ := Option.map_eq_some_iff.mp h
    exact .inl ⟨i, rfl⟩
  · obtain ⟨i, _, rfl⟩ := Option.map_eq_some_iff.mp h
    exact .inr ⟨i, rfl⟩

lemma firstResult?_eq_none {nodes : List Node}
    (h : name ∉ nodes.flatMap Node.presentOutputs) : firstResult? nodes name = none := by
  unfold firstResult?
  rw [List.findSome?_eq_none_iff]
  rintro ⟨n, position⟩ hmem
  rw [Option.map_eq_none_iff, List.findIdx?_eq_none_iff]
  intro out hout
  have hn : n ∈ nodes := List.mem_of_getElem? (List.mem_zipIdx_iff_getElem?.mp hmem)
  have hnot : name ∉ n.presentOutputs := fun hname =>
    h (List.mem_flatMap.mpr ⟨n, hn, hname⟩)
  by_cases hempty : name.isEmpty = true
  · simp [hempty]
  · have hne : out ≠ name := by
      rintro rfl
      exact hnot (List.mem_filter.mpr ⟨hout, by simpa using hempty⟩)
    simp [hne]

namespace Narrows

lemma refl (p : GraphParts) : p.Narrows p := ⟨rfl, rfl, rfl, fun _ h => h⟩

lemma of_keepsProducers {r : GraphParts} (h : p.Narrows q) (hkeeps : q.KeepsProducers r) :
    p.Narrows r where
  nodes := hkeeps.nodes.trans h.nodes
  initializers := hkeeps.initializers.trans h.initializers
  sparse := hkeeps.sparse.trans h.sparse
  inputs := fun _ hname => h.inputs (hkeeps.inputs.subset hname)

lemma firstConstant?_eq (h : p.Narrows q) (name : String) :
    q.firstConstant? name = p.firstConstant? name := by
  unfold firstConstant?
  rw [h.initializers, h.sparse]

lemma presentResults_eq (h : p.Narrows q) : q.presentResults = p.presentResults := by
  unfold presentResults
  rw [h.nodes]

/-- A name that hid no result has in the second graph what is left of its producers. -/
lemma firstProducer?_eq_remaining? (h : p.Narrows q) (hname : ¬p.Shadows name) :
    q.firstProducer? name = p.remaining? q name := by
  unfold remaining?
  rw [firstProducer?_eq, firstProducer?_eq, h.firstConstant?_eq, h.nodes]
  cases hconstant : p.firstConstant? name with
  | some producer =>
    have hne : some producer ≠ some .input := by
      rcases constant_of_firstConstant? hconstant with ⟨i, rfl⟩ | ⟨i, rfl⟩
      · exact nofun
      · exact nofun
    rw [Option.some_or, Option.some_or, if_neg fun hand => hne hand.1]
  | none =>
    rw [Option.none_or, Option.none_or]
    by_cases hp : name ∈ p.inputs.map ValueInfo.name
    · have hresult : firstResult? p.nodes name = none :=
        firstResult?_eq_none fun hmem => hname ⟨hp, hmem⟩
      rw [if_pos hp, hresult]
      by_cases hq : name ∈ q.inputs.map ValueInfo.name
      · rw [if_pos hq, if_neg fun hand => hand.2 hq]
      · rw [if_neg hq, if_pos ⟨rfl, hq⟩]
    · have hq : name ∉ q.inputs.map ValueInfo.name := fun hq => hp (h.inputs hq)
      have hne : firstResult? p.nodes name ≠ some .input := by
        intro heq
        obtain ⟨j, slot, hnode⟩ := exists_node_of_firstResult? heq
        cases hnode
      rw [if_neg hp, if_neg hq, if_neg fun hand => hne hand.1]

/-- A hidden result comes to light once its name is no longer that of an input. -/
lemma firstProducer?_ne_remaining? (h : p.Narrows q) (hq : q.ResultsUnique)
    (hname : p.Shadows name) : q.firstProducer? name ≠ p.remaining? q name := by
  obtain ⟨hinput, hresult⟩ := hname
  have hresult' : name ∈ q.presentResults := h.presentResults_eq ▸ hresult
  have hdropped : name ∉ q.inputs.map ValueInfo.name := hq.notInput name hresult'
  obtain ⟨n, hn, hout⟩ := List.mem_flatMap.mp hresult'
  obtain ⟨j, hj⟩ := List.getElem?_of_mem hn
  obtain ⟨slot, hnode⟩ := hq.exists_firstProducer? hj hout
  have hconstant : p.firstConstant? name = none := by
    have hfirst := hnode
    rw [firstProducer?_eq, h.firstConstant?_eq] at hfirst
    rcases Option.or_eq_some_iff.mp hfirst with hsome | ⟨hnone, _⟩
    · rcases constant_of_firstConstant? hsome with ⟨i, hi⟩ | ⟨i, hi⟩
      · cases hi
      · cases hi
    · exact hnone
  have hhidden : p.firstProducer? name = some .input := by
    rw [firstProducer?_eq, hconstant, if_pos hinput, Option.none_or]
  have hnone : p.remaining? q name = none := if_pos ⟨hhidden, hdropped⟩
  rw [hnone, hnode]
  exact Option.some_ne_none _

end Narrows

end GraphParts

namespace Graph

open GraphParts

/-! ### Revisions, one by one -/

/-- A graph is turned into another one by revising it any number of times. -/
inductive Revises (g : Graph) : Graph → Prop
  | refl : Revises g g
  | retainInputs {g' : Graph} (keep : ValueInfo → Bool) :
      Revises g g' → Revises g (g'.retainInputs keep)
  | record {g' : Graph} (v : ValueInfo) : Revises g g' → Revises g (g'.record v)
  | propagate {g' g'' : Graph} {rules : Registry} {opset : Int} {report : PropagationReport} :
      Revises g g' → g'.propagate rules opset = .ok (g'', report) → Revises g g''

/-- What is true of a graph however it is revised: the order is the one it was built with, and the
index has what is left of the producers then. -/
structure Outlives (p : GraphParts) (order : List Nat) (g : Graph) : Prop where
  narrows : p.Narrows g.toGraphParts
  order_eq : g.order = order
  producers : ∀ name, g.producer? name = p.remaining? g.toGraphParts name

variable {p : GraphParts} {order : List Nat} {g g' : Graph} {name : String}

/-- Whether a name loses its entry in the index when inputs are dropped. -/
def losesProducer (g : Graph) (keep : ValueInfo → Bool) (name : String) : Bool :=
  ((g.inputs.filter fun v => !keep v).map ValueInfo.name).contains name &&
    g.producers.lookup name == some .input &&
    !((g.inputs.filter keep).any fun v => v.name == name)

lemma producers_retainInputs (g : Graph) (keep : ValueInfo → Bool) :
    (g.retainInputs keep).producers =
      g.producers.filter fun e => !g.losesProducer keep e.1 := rfl

lemma losesProducer_eq_true_iff (g : Graph) (keep : ValueInfo → Bool) (name : String) :
    g.losesProducer keep name = true ↔ g.producer? name = some .input ∧
      name ∈ g.inputs.map ValueInfo.name ∧
        name ∉ (g.retainInputs keep).inputs.map ValueInfo.name := by
  simp only [losesProducer, retainInputs, producer?, Bool.and_eq_true, List.contains_iff_mem,
    Bool.not_eq_true', List.any_eq_false, beq_iff_eq, List.mem_map, List.mem_filter]
  constructor
  · rintro ⟨⟨⟨v, ⟨hv, _⟩, hname⟩, hinput⟩, hnone⟩
    refine ⟨hinput, ⟨v, hv, hname⟩, ?_⟩
    rintro ⟨w, hw, heq⟩
    exact hnone w hw heq
  · rintro ⟨hinput, ⟨v, hv, hname⟩, hnone⟩
    refine ⟨⟨⟨v, ⟨hv, ?_⟩, hname⟩, hinput⟩, fun w hw heq => hnone ⟨w, hw, heq⟩⟩
    cases hkeep : keep v with
    | true => exact absurd ⟨v, ⟨hv, hkeep⟩, hname⟩ hnone
    | false => rfl

lemma producer?_retainInputs (g : Graph) (keep : ValueInfo → Bool) (name : String) :
    (g.retainInputs keep).producer? name =
      if g.producer? name = some .input ∧ name ∈ g.inputs.map ValueInfo.name ∧
          name ∉ (g.retainInputs keep).inputs.map ValueInfo.name then none
      else g.producer? name := by
  have hloses := g.losesProducer_eq_true_iff keep name
  unfold producer? at hloses ⊢
  rw [producers_retainInputs, lookup_filter_key g.producers fun key => !g.losesProducer keep key]
  by_cases h : g.losesProducer keep name = true
  · rw [if_pos (hloses.mp h), if_neg (by simp [h])]
  · rw [if_neg (mt hloses.mpr h), if_pos (by simp [h])]

namespace Outlives

lemma of_build (h : p.build = .ok g) : Outlives p g.order g := by
  have hparts := toGraphParts_of_build h
  have hremaining (name : String) : p.remaining? p name = p.firstProducer? name := by
    unfold remaining?
    -- What produces a name that no input has is a constant or a node, and stays.
    by_cases hand : p.firstProducer? name = some .input ∧ name ∉ p.inputs.map ValueInfo.name
    · obtain ⟨hfirst, hnot⟩ := hand
      rw [firstProducer?_eq, if_neg hnot] at hfirst
      rcases Option.or_eq_some_iff.mp hfirst with hsome | ⟨_, hsome⟩
      · rcases constant_of_firstConstant? hsome with ⟨i, hi⟩ | ⟨i, hi⟩
        · cases hi
        · cases hi
      · obtain ⟨j, slot, hnode⟩ := exists_node_of_firstResult? hsome
        cases hnode
    · rw [if_neg hand]
  refine ⟨hparts ▸ Narrows.refl p, rfl, fun name => ?_⟩
  rw [(resolved_of_build h).index, hparts, hremaining]

/-- Dropping inputs. -/
lemma retainInputs (h : Outlives p order g) (keep : ValueInfo → Bool) :
    Outlives p order (g.retainInputs keep) := by
  have hsubset : (g.retainInputs keep).inputs.map ValueInfo.name ⊆
      g.inputs.map ValueInfo.name :=
    List.map_subset _ (List.filter_subset_self _)
  refine ⟨{ h.narrows with inputs := fun _ hmem => h.narrows.inputs (hsubset hmem) },
    h.order_eq, fun name => ?_⟩
  rw [producer?_retainInputs, h.producers]
  unfold remaining?
  by_cases hold : p.firstProducer? name = some .input ∧ name ∉ g.inputs.map ValueInfo.name
  · have hnew : name ∉ (g.retainInputs keep).inputs.map ValueInfo.name := fun hmem =>
      hold.2 (hsubset hmem)
    rw [if_pos hold, ite_self, if_pos ⟨hold.1, hnew⟩]
  · rw [if_neg hold]
    by_cases hinput : p.firstProducer? name = some .input
    · have hmem : name ∈ g.inputs.map ValueInfo.name := by
        by_contra hnot
        exact hold ⟨hinput, hnot⟩
      simp only [hinput, hmem, true_and]
    · rw [if_neg fun hand => hinput hand.1, if_neg fun hand => hinput hand.1]

lemma of_keepsProducers (h : Outlives p order g)
    (hkeeps : g.toGraphParts.KeepsProducers g'.toGraphParts) (hinputs : g'.inputs = g.inputs)
    (hindex : g'.producers = g.producers) (horder : g'.order = g.order) :
    Outlives p order g' where
  narrows := h.narrows.of_keepsProducers hkeeps
  order_eq := horder.trans h.order_eq
  producers name := by
    have hproducer : g'.producer? name = g.producer? name := by
      unfold producer?
      rw [hindex]
    rw [hproducer, h.producers]
    unfold remaining?
    rw [hinputs]

lemma foldl_record (h : Outlives p order g) (records : List ValueInfo) :
    Outlives p order (records.foldl Graph.record g) := by
  have hkeeps := foldl_record_keepsProducers g records
  obtain ⟨outputs, valueInfo, heq⟩ := g.exists_foldl_record_eq records
  rw [heq] at hkeeps ⊢
  exact h.of_keepsProducers hkeeps rfl rfl rfl

end Outlives

lemma Revises.outlives (hbuild : p.build = .ok g) (h : g.Revises g') :
    Outlives p g.order g' := by
  induction h with
  | refl => exact .of_build hbuild
  | retainInputs keep _ ih => exact ih.retainInputs keep
  | record v _ ih => exact ih.foldl_record [v]
  | propagate _ hpropagate ih =>
    obtain ⟨k, _, heq⟩ := map_eq_ok_iff.mp hpropagate
    obtain ⟨rfl, _⟩ := Prod.mk.inj heq
    exact ih.foldl_record k.records.reverse

end Graph

/-! ### Revised graphs that are valid -/

namespace Model

open GraphParts

variable {p : GraphParts} {g : Graph} {m : Model} {range : VersionRange}

/-- A graph was built, revised in any way, and is valid again. Then a graph can be built from its
parts anew. That graph has the same producer for a name exactly if no input had hidden a result of
that name at first; and each node still comes behind the producers of its operands, except for such
names. -/
theorem index_and_order_of_revised (hbuild : p.build = .ok g) (hrevises : g.Revises m.graph)
    (hvalid : m.validate range = .ok ()) :
    ∃ fresh, m.graph.toGraphParts.build = .ok fresh ∧
      (∀ name, m.graph.producer? name = fresh.producer? name ↔ ¬p.Shadows name) ∧
      m.graph.order.Perm (List.range m.graph.nodes.length) ∧
      ∀ i n name j slot, m.graph.nodes[i]? = some n → name ∈ n.presentInputs →
        fresh.producer? name = some (.node j slot) → ¬p.Shadows name →
        m.graph.order.idxOf j < m.graph.order.idxOf i := by
  obtain ⟨hnames, ⟨r, hresolve⟩, _⟩ := validate_eq_ok_iff.mp hvalid
  obtain ⟨hnarrows, horder, hproducers⟩ := hrevises.outlives hbuild
  obtain ⟨hperm, hbehind⟩ := (Graph.resolved_of_build hbuild).toInOrder
  rw [toGraphParts_of_build hbuild] at hperm hbehind
  obtain ⟨fresh, hfresh⟩ : ∃ fresh, m.graph.toGraphParts.build = .ok fresh :=
    ⟨_, map_eq_ok_iff.mpr ⟨r, hresolve, rfl⟩⟩
  have hindex (name : String) :
      fresh.producer? name = m.graph.toGraphParts.firstProducer? name := by
    rw [(Graph.resolved_of_build hfresh).index, toGraphParts_of_build hfresh]
  refine ⟨fresh, hfresh, fun name => ?_, ?_, ?_⟩
  · rw [hproducers, hindex]
    constructor
    · exact fun heq hshadows =>
        hnarrows.firstProducer?_ne_remaining? hnames.resultsUnique hshadows heq.symm
    · exact fun hname => (hnarrows.firstProducer?_eq_remaining? hname).symm
  · rw [horder, hnarrows.nodes]
    exact hperm
  · intro i n name j slot hn hname hproducer hshadows
    rw [hindex, hnarrows.firstProducer?_eq_remaining? hshadows] at hproducer
    have hfirst : p.firstProducer? name = some (.node j slot) := by
      unfold remaining? at hproducer
      split_ifs at hproducer
      exact hproducer
    rw [hnarrows.nodes] at hn
    rw [horder]
    exact hbehind i j ⟨n, hn, name, hname, slot, hfirst⟩

theorem index_and_order_of_chain_without_spare :
    let p := Graph.chainParts ["x", "spare"] false
    let g := Graph.chain ["x", "spare"] false [0, 1]
    let m := ofChain (g.retainInputs fun v => v.name != "spare")
    p.build = .ok g ∧ g.Revises m.graph ∧ m.validate {} = .ok () ∧ m.graph.inputs.length = 1 ∧
      ∃ fresh, m.graph.toGraphParts.build = .ok fresh ∧
        ∀ name, m.graph.producer? name = fresh.producer? name := by
  intro p g m
  have hbuild : p.build = .ok g := by decide +kernel
  have hrevises : g.Revises m.graph := .retainInputs _ .refl
  have hvalid : m.validate {} = .ok () := by decide +kernel
  have hnone (name : String) : ¬p.Shadows name := by
    rintro ⟨hinput, hresult⟩
    have hinput' : name = "x" ∨ name = "spare" := by
      simpa [p, Graph.chainParts] using hinput
    have hresult' : name = "h" ∨ name = "y" := by
      simpa [p, Graph.chainParts, presentResults, Node.presentOutputs] using hresult
    rcases hinput' with rfl | rfl
    · revert hresult'
      decide
    · revert hresult'
      decide
  obtain ⟨fresh, hfresh, hindex, _⟩ := index_and_order_of_revised hbuild hrevises hvalid
  exact ⟨hbuild, hrevises, hvalid, rfl, fresh, hfresh, fun name => (hindex name).mpr (hnone name)⟩

/-- The input `h` hides the result of the second node. Once it is dropped the graph is valid, but
its index knows no producer of `h`, and its order still has the first node in front of the one that
it takes `h` from. -/
theorem index_and_order_outdated :
    let g := Graph.chain ["x", "h"] true [0, 1]
    let m := ofChain (g.retainInputs fun v => v.name != "h")
    (Graph.chainParts ["x", "h"] true).build = .ok g ∧ g.Revises m.graph ∧
      m.validate {} = .ok () ∧
      ∃ fresh, m.graph.toGraphParts.build = .ok fresh ∧
        m.graph.producer? "h" = none ∧ fresh.producer? "h" = some (.node 1 0) ∧
        (∃ n, m.graph.nodes[0]? = some n ∧ "h" ∈ n.presentInputs) ∧
        m.graph.order.idxOf 0 < m.graph.order.idxOf 1 := by
  intro g m
  exact ⟨by decide +kernel, .retainInputs _ .refl, by decide +kernel, .chain ["x"] true [1, 0],
    by decide +kernel, by decide +kernel, by decide +kernel, ⟨_, rfl, by decide⟩, by decide⟩

end Model

end TensorGraph
