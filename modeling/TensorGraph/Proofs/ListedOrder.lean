import TensorGraph.Proofs.Propagation.RuleChange
import TensorGraph.Proofs.Revisions

/-!
# Nodes that are listed in order

Where each node is listed behind the producers of its operands, all dependencies of a position have
a place when the position is reached, so it is placed right behind what was placed before. The order
is then that of the list, and no other list has this order. Types are propagated node by node as the
nodes are listed, and so are the nodes reported that were skipped.
-/

namespace TensorGraph

namespace Order

variable {dependencies : Array (List Dependency)} {path placed : List Nat}

lemma placeAll_eq_of_placed {ds : List Dependency} (hpath : ∀ n ∈ path, n ∉ placed)
    (hplaced : ∀ d ∈ ds, d.1 ∈ placed) : placeAll dependencies path placed ds = .ok placed := by
  induction ds with
  | nil => rw [placeAll]
  | cons d ds ih =>
    obtain ⟨n, value⟩ := d
    rw [List.forall_mem_cons] at hplaced
    have hoff : n ∉ path := fun hmem => hpath n hmem hplaced.1
    have hplace : place dependencies path placed n = .ok placed := by
      rw [place, if_pos hplaced.1]
    rw [placeAll, if_neg hoff, hplace]
    exact ih hplaced.2

lemma place_eq_append {n : Nat} (hn : n < dependencies.size) (hnew : n ∉ placed)
    (hdeps : ∀ d ∈ dependencies[n], d.1 ∈ placed) :
    place dependencies [] placed n = .ok (placed ++ [n]) := by
  have hpath : ∀ m ∈ [n], m ∉ placed := List.forall_mem_singleton.mpr hnew
  rw [place, if_neg hnew, dif_pos ⟨hn, List.not_mem_nil⟩, placeAll_eq_of_placed hpath hdeps]
  rfl

/-- Up to any position, the search has placed what comes before it, as listed. -/
lemma foldlM_place_range (h : ∀ i j, Depends dependencies i j → j < i) {count : Nat}
    (hcount : count ≤ dependencies.size) :
    (List.range count).foldlM (place dependencies []) [] = .ok (List.range count) := by
  induction count with
  | zero => rfl
  | succ count ih =>
    have hdeps : ∀ d ∈ dependencies[count], d.1 ∈ List.range count := by
      rintro ⟨j, value⟩ hd
      have hdep : Depends dependencies count j :=
        ⟨value, _, Array.getElem?_eq_getElem hcount, hd⟩
      exact List.mem_range.mpr (h count j hdep)
    have hnew : count ∉ List.range count := by simp
    rw [List.range_succ, List.foldlM_append, ih (Nat.le_of_succ_le hcount)]
    change [count].foldlM (place dependencies []) (List.range count) = _
    rw [List.foldlM_cons, place_eq_append hcount hnew hdeps]
    rfl

lemma idxOf_range {i count : Nat} (h : i < count) : (List.range count).idxOf i = i := by
  have hlength : i < (List.range count).length := by rwa [List.length_range]
  have hidx := List.nodup_range.idxOf_getElem i hlength
  rwa [List.getElem_range] at hidx

lemma sort_eq_range_iff (hbound : ∀ i j, Depends dependencies i j → j < dependencies.size) :
    sort dependencies = .ok (List.range dependencies.size) ↔
      ∀ i j, Depends dependencies i j → j < i := by
  constructor
  -- Each node comes behind its dependencies in the order, and the place of a position in the range
  -- is the position itself.
  · intro h i j hdep
    obtain ⟨value, ds, hds, _⟩ := id hdep
    have hi : i < dependencies.size := (Array.getElem?_eq_some_iff.mp hds).1
    have hj := hbound i j hdep
    have hlt := sort_idxOf_lt h hdep hj
    rwa [idxOf_range hi, idxOf_range hj] at hlt
  · exact fun h => foldlM_place_range h (Nat.le_refl _)

end Order

namespace GraphParts

variable {p : GraphParts} {g : Graph}

lemma order_eq_range_iff_of_build (h : p.build = .ok g) :
    g.order = List.range p.nodes.length ↔ ∀ i j, p.DependsOn i j → j < i := by
  have hsize : p.dependencyTable.size = p.nodes.length := by simp [dependencyTable]
  obtain ⟨⟨producers, order⟩, hresolve, rfl⟩ := map_eq_ok_iff.mp h
  obtain ⟨_, _, hsort⟩ := resolve_eq_ok_iff.mp hresolve
  have hiff := Order.sort_eq_range_iff (lt_size_of_depends (p := p))
  rw [hsort, hsize, depends_dependencyTable] at hiff
  exact ⟨fun horder => hiff.mp (congrArg _ horder), fun hdeps => Except.ok.inj (hiff.mpr hdeps)⟩

lemma remaining?_eq_node_iff {q : GraphParts} {name : String} {j slot : Nat} :
    p.remaining? q name = some (.node j slot) ↔ p.firstProducer? name = some (.node j slot) := by
  unfold remaining?
  split_ifs with hand
  · simp [hand.1]
  · exact Iff.rfl

end GraphParts

/-- Whether a producer is none of the nodes from a position on. -/
def Producer.isBefore (i : Nat) : Producer → Bool
  | .node j _ => j < i
  | _ => true

namespace Graph

open GraphParts

variable {p : GraphParts} {g g' : Graph}

/-- Each node is listed behind the nodes that produce its operands, as the index has them. -/
def ListedInOrder (g : Graph) : Prop :=
  ∀ i n name j slot, g.nodes[i]? = some n → name ∈ n.presentInputs →
    g.producer? name = some (.node j slot) → j < i

lemma listedInOrder_iff_isBefore (g : Graph) :
    g.ListedInOrder ↔ ∀ e ∈ g.nodes.zipIdx, ∀ name ∈ e.1.presentInputs,
      ∀ producer ∈ g.producer? name, producer.isBefore e.2 = true := by
  constructor
  · rintro hlisted ⟨n, i⟩ hn name hname producer hproducer
    cases producer with
    | node j slot =>
      exact decide_eq_true (hlisted i n name j slot (List.mem_zipIdx_iff_getElem?.mp hn) hname
        (Option.mem_def.mp hproducer))
    | _ => rfl
  · intro hbefore i n name j slot hn hname hproducer
    exact of_decide_eq_true (hbefore (n, i) (List.mem_zipIdx_iff_getElem?.mpr hn) name hname _
      (Option.mem_def.mpr hproducer))

instance (g : Graph) : Decidable g.ListedInOrder :=
  decidable_of_iff' _ g.listedInOrder_iff_isBefore

namespace Outlives

variable {order : List Nat}

lemma listedInOrder_iff (h : Outlives p order g) :
    g.ListedInOrder ↔ ∀ i j, p.DependsOn i j → j < i := by
  unfold ListedInOrder
  simp only [h.producers, remaining?_eq_node_iff, h.narrows.nodes]
  constructor
  · rintro hlisted i j ⟨n, hn, name, hname, slot, hproducer⟩
    exact hlisted i n name j slot hn hname hproducer
  · intro hdeps i n name j slot hn hname hproducer
    exact hdeps i j ⟨n, hn, name, hname, slot, hproducer⟩

end Outlives

lemma order_eq_range_iff_listedInOrder (hbuild : p.build = .ok g) (hrevises : g.Revises g') :
    g'.order = List.range g'.nodes.length ↔ g'.ListedInOrder := by
  have houtlives := hrevises.outlives hbuild
  rw [houtlives.listedInOrder_iff, houtlives.order_eq, houtlives.narrows.nodes]
  exact order_eq_range_iff_of_build hbuild

lemma orderedNodes_of_order_eq_range (h : g.order = List.range g.nodes.length) :
    g.orderedNodes.map Prod.snd = g.nodes := by
  rw [orderedNodes_map_snd, h, filterMap_getElem?_range]

lemma exists_skipsByNode {rules : Registry} {opset : Int} {report : PropagationReport}
    (h : g.propagate rules opset = .ok (g', report)) :
    ∃ skips, g.skipsByNode rules opset = .ok skips ∧
      skips.map Prod.fst = g.orderedNodes.map Prod.snd ∧ report.skipped = skips.flatMap Prod.snd ∧
      ∀ e ∈ skips, ∀ s ∈ e.2, s.node = e.1.label ∧ s.op = e.1.op := by
  obtain ⟨es, hes, rfl, rfl⟩ := propagate_eq_ok_iff.mp h
  refine ⟨_, map_eq_ok_iff.mpr ⟨es, hes, rfl⟩, ?_, ?_, ?_⟩
  · rw [List.map_map]
    exact map_fst_gains hes
  · rw [List.flatMap_map]
  · refine List.forall_mem_map.mpr fun e he s hs => ?_
    exact skips_of_gains hes e he s (List.mem_reverse.mp hs)

/-- A graph was built and revised in any way. Its order is that of the list of nodes exactly if each
node is listed behind the producers of its operands. Types are then propagated through the nodes as
they are listed, and the nodes that are skipped are reported as they are listed. -/
theorem order_keeps_listing (hbuild : p.build = .ok g) (hrevises : g.Revises g') :
    (g'.order = List.range g'.nodes.length ↔ g'.ListedInOrder) ∧
      (g'.ListedInOrder → ∀ rules opset,
        passNodes rules opset g' =
          g'.nodes.foldlM (passNode rules opset g' g'.declaredTypes) g'.initialKnowledge ∧
        ∀ g'' report, g'.propagate rules opset = .ok (g'', report) →
          ∃ skips, g'.skipsByNode rules opset = .ok skips ∧ skips.map Prod.fst = g'.nodes ∧
            report.skipped = skips.flatMap Prod.snd ∧
            ∀ e ∈ skips, ∀ s ∈ e.2, s.node = e.1.label ∧ s.op = e.1.op) := by
  have hiff := order_eq_range_iff_listedInOrder hbuild hrevises
  refine ⟨hiff, fun hlisted rules opset => ?_⟩
  have hnodes := orderedNodes_of_order_eq_range (hiff.mpr hlisted)
  refine ⟨?_, fun g'' report hpropagate => ?_⟩
  · unfold passNodes
    rw [hnodes]
  · have hskips := exists_skipsByNode hpropagate
    rwa [hnodes] at hskips

/-- A state goes in, and the next one comes out under the same name. -/
def recurrentParts : GraphParts where
  nodes := [
    { op := "Relu", inputs := ["x"], outputs := ["h"] },
    { op := "Add", inputs := ["h", "state"], outputs := ["k"] },
    { op := "Sum", inputs := ["k", "h", "k"], outputs := ["y"] },
    { op := "Relu", inputs := ["k"], outputs := ["state"] }]
  inputs := ["x", "state"].map fun name => { name, type := .of .float (.ofExtents [4]) }
  outputs := [{ name := "y" }]

def recurrent : Graph :=
  { recurrentParts with producers := recurrentParts.index, order := [0, 1, 2, 3] }

/-- The second node takes the state that is an input, not that of the last node. Without the input
the order stays, and the nodes that can no longer be told about are reported in this order. -/
theorem order_keeps_listing_of_recurrent :
    let g := recurrent.retainInputs fun v => v.name != "state"
    recurrentParts.build = .ok recurrent ∧ recurrent.Revises g ∧ g.ListedInOrder ∧
      g.order = [0, 1, 2, 3] ∧
      ∃ g' report skips, g.propagate .builtin 13 = .ok (g', report) ∧
        g.skipsByNode .builtin 13 = .ok skips ∧ skips.map Prod.fst = recurrentParts.nodes ∧
        report.skipped = skips.flatMap Prod.snd ∧
        report.skipped.map Skip.op = ["Add", "Sum"] := by
  intro g
  have hbuild : recurrentParts.build = .ok recurrent := by decide +kernel
  have hrevises : recurrent.Revises g := .retainInputs _ .refl
  have hlisted : g.ListedInOrder := by decide
  obtain ⟨horder, hfollow⟩ := order_keeps_listing hbuild hrevises
  have hreport : (g.propagate .builtin 13).map (fun p => p.2.skipped.map Skip.op) =
      .ok ["Add", "Sum"] := by rfl
  obtain ⟨⟨g', report⟩, hpropagate, hops⟩ := map_eq_ok_iff.mp hreport
  obtain ⟨skips, hskips, hnodes, hskipped, _⟩ :=
    (hfollow hlisted .builtin 13).2 g' report hpropagate
  exact ⟨hbuild, hrevises, hlisted, horder.mpr hlisted, g', report, skips, hpropagate, hskips,
    hnodes, hskipped, hops⟩

end Graph

end TensorGraph
