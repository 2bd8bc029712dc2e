import TensorGraph.Proofs.Propagation.Sequence

/-!
# Graphs in order

A graph is in order if its order has every node once, behind all nodes it takes values from. So is
every graph that was built, and as long as each value has one producer, its nodes are in sequence.
-/

namespace TensorGraph

namespace GraphParts

lemma ResultsUnique.eq_of_mem {p : GraphParts} (h : p.ResultsUnique) {i j : Nat} {n m : Node}
    {name : String} (hn : p.nodes[i]? = some n) (hm : p.nodes[j]? = some m)
    (hni : name ∈ n.presentOutputs) (hmj : name ∈ m.presentOutputs) : i = j := by
  have hdisjoint := (List.nodup_flatMap.mp h.nodup).2
  rw [List.pairwise_iff_getElem] at hdisjoint
  obtain ⟨hi, rfl⟩ := List.getElem?_eq_some_iff.mp hn
  obtain ⟨hj, rfl⟩ := List.getElem?_eq_some_iff.mp hm
  rcases Nat.lt_trichotomy i j with hlt | heq | hlt
  · exact absurd hmj (hdisjoint i j hi hj hlt hni)
  · exact heq
  · exact absurd hni (hdisjoint j i hj hi hlt hmj)

lemma findIdx?_eq_none_of_not_mem {α : Type} {as : List α} {key : α → String} {name : String}
    (h : name ∉ as.map key) : (as.findIdx? fun a => key a == name) = none := by
  rw [List.findIdx?_eq_none_iff]
  intro a ha
  simpa using fun heq => h (List.mem_map.mpr ⟨a, ha, heq⟩)

/-- If results have names of their own, the producer of such a name is the node that gives it. -/
lemma ResultsUnique.exists_firstProducer? {p : GraphParts} (h : p.ResultsUnique) {j : Nat}
    {n : Node} {name : String} (hn : p.nodes[j]? = some n) (hname : name ∈ n.presentOutputs) :
    ∃ slot, p.firstProducer? name = some (.node j slot) := by
  have hresult : name ∈ p.presentResults :=
    List.mem_flatMap.mpr ⟨n, List.mem_of_getElem? hn, hname⟩
  have hinput : ¬(p.inputs.any fun v => v.name == name) = true := by
    simpa using fun v hv heq => h.notInput name hresult (List.mem_map.mpr ⟨v, hv, heq⟩)
  have hsparse : (p.sparse.findIdx? fun s => !name.isEmpty && s.name == name) = none := by
    rw [List.findIdx?_eq_none_iff]
    intro s hs
    have hne : s.name ≠ name := fun heq =>
      h.notSparse name hresult (List.mem_map.mpr ⟨s, hs, heq⟩)
    simp [hne]
  have hfirst : p.firstProducer? name = firstResult? p.nodes name := by
    unfold firstProducer?
    rw [findIdx?_eq_none_of_not_mem (h.notInitializer name hresult), hsparse, if_neg hinput]
    rfl
  have hsome : (firstResult? p.nodes name).isSome := by
    obtain ⟨houtput, hempty⟩ := List.mem_filter.mp hname
    unfold firstResult?
    rw [List.findSome?_isSome_iff]
    refine ⟨(n, j), List.mem_zipIdx_iff_getElem?.mpr hn, ?_⟩
    rw [Option.isSome_map, List.findIdx?_isSome, List.any_eq_true]
    exact ⟨name, houtput, by simpa using hempty⟩
  obtain ⟨producer, hproducer⟩ := Option.isSome_iff_exists.mp hsome
  obtain ⟨i, slot, rfl⟩ := exists_node_of_firstResult? hproducer
  obtain ⟨m, hmi, hslot⟩ := exists_of_firstResult? hproducer
  have hmname : name ∈ m.presentOutputs :=
    List.mem_filter.mpr ⟨List.mem_of_getElem? hslot, (List.mem_filter.mp hname).2⟩
  obtain rfl := h.eq_of_mem hn hmi hname hmname
  exact ⟨slot, hfirst.trans hproducer⟩

end GraphParts

namespace Graph

/-- The order has every node once, behind all nodes it takes values from. -/
structure InOrder (g : Graph) : Prop where
  perm : g.order.Perm (List.range g.nodes.length)
  behind : ∀ i j, g.DependsOn i j → g.order.idxOf j < g.order.idxOf i

/-- The index and the order are those of the lists of the graph. -/
structure Resolved (g : Graph) : Prop extends InOrder g where
  index : ∀ name, g.producer? name = g.firstProducer? name

lemma resolved_of_build {p : GraphParts} {g : Graph} (h : p.build = .ok g) : g.Resolved := by
  obtain ⟨⟨producers, order⟩, hr, rfl⟩ := map_eq_ok_iff.mp h
  obtain ⟨_, rfl, hsort⟩ := GraphParts.resolve_eq_ok_iff.mp hr
  refine ⟨⟨?_, ?_⟩, p.lookup_index⟩
  · simpa [GraphParts.dependencyTable] using Order.sort_perm hsort
  · intro i j hdep
    have hdep' := GraphParts.depends_dependencyTable_iff.mpr hdep
    exact Order.sort_idxOf_lt hsort hdep' (GraphParts.lt_size_of_depends _ _ hdep')

lemma filterMap_getElem?_range {α : Type} (as : List α) :
    ((List.range as.length).filterMap fun i => as[i]?) = as := by
  induction as with
  | nil => rfl
  | cons a as ih =>
    rw [List.length_cons, List.range_succ_eq_map, List.filterMap_cons_some List.getElem?_cons_zero,
      List.filterMap_map]
    simpa [Function.comp_def] using ih

namespace InOrder

variable {g : Graph}

lemma orderedNodes_perm (h : g.InOrder) : (g.orderedNodes.map Prod.snd).Perm g.nodes := by
  have hperm := h.perm.filterMap fun i => g.nodes[i]?
  rw [filterMap_getElem?_range] at hperm
  rw [orderedNodes_map_snd]
  exact hperm

lemma sequenced (h : g.InOrder) (hunique : g.ResultsUnique) :
    Sequenced (g.orderedNodes.map Prod.snd) := by
  have hdepends {i j : Nat} {n m : Node} (hn : g.nodes[i]? = some n) (hm : g.nodes[j]? = some m)
      (htakes : n.Takes m) : g.order.idxOf j < g.order.idxOf i := by
    obtain ⟨name, hinput, houtput⟩ := htakes
    exact h.behind i j ⟨n, hn, name, hinput, hunique.exists_firstProducer? hm houtput⟩
  refine ⟨?_, ?_, ?_⟩
  · exact (h.orderedNodes_perm.flatMap_right _).nodup_iff.mpr hunique.nodup
  · intro n hn htakes
    obtain ⟨i, hi⟩ := List.getElem?_of_mem (h.orderedNodes_perm.subset hn)
    exact Nat.lt_irrefl _ (hdepends hi hi htakes)
  · have hnodup : g.order.Nodup := h.perm.nodup_iff.mpr List.nodup_range
    have hpositions : g.order.Pairwise fun i j => g.order.idxOf i < g.order.idxOf j := by
      rw [List.pairwise_iff_getElem]
      intro a b ha hb hlt
      rw [hnodup.idxOf_getElem, hnodup.idxOf_getElem]
      exact hlt
    rw [orderedNodes_map_snd, List.pairwise_filterMap]
    refine hpositions.imp fun {i j} hlt n hn m hm htakes => ?_
    exact Nat.lt_asymm hlt (hdepends hn hm htakes)

end InOrder

/-- Two nodes in a row from `x` over `h` to `y`, listed in this order or backwards. -/
def chainParts (inputs : List String) (backwards : Bool) : GraphParts :=
  let nodes : List Node := [
    { op := "Relu", inputs := ["x"], outputs := ["h"] },
    { op := "Relu", inputs := ["h"], outputs := ["y"] }]
  { nodes := if backwards then nodes.reverse else nodes
    inputs := inputs.map fun name => { name, type := .of .float (.ofExtents [4]) }
    outputs := [{ name := "y" }] }

def chain (inputs : List String) (backwards : Bool) (order : List Nat) : Graph :=
  { chainParts inputs backwards with producers := (chainParts inputs backwards).index, order }

lemma chain_forwards_build : (chainParts ["x"] false).build = .ok (chain ["x"] false [0, 1]) := by
  decide +kernel

lemma chain_backwards_build : (chainParts ["x"] true).build = .ok (chain ["x"] true [1, 0]) := by
  decide +kernel

end Graph

end TensorGraph
