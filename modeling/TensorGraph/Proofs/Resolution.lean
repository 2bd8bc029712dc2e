import TensorGraph.Graph.Resolve
import TensorGraph.Proofs.DependencyOrder
import TensorGraph.Proofs.Results

/-!
# When a graph resolves

The producer of a name is described a second time, without an index: the first constant of that
name, else the first sparse constant, else an input, else the first result of a node. A graph
resolves exactly if each name it refers to has a producer and no node depends on itself, and the
order it then gets has every node once, behind all nodes it takes values from.
-/

namespace TensorGraph
open Relation

namespace GraphParts

/-- The first result of that name among nodes in stored order. -/
def firstResult? (nodes : List Node) (name : String) : Option Producer :=
  nodes.zipIdx.findSome? fun (n, position) =>
    (n.outputs.findIdx? fun out => !name.isEmpty && out == name).map fun slot => .node position slot

/-- What produces a value of that name. -/
def firstProducer? (p : GraphParts) (name : String) : Option Producer :=
  ((p.initializers.findIdx? fun t => t.name == name).map .initializer).or <|
    ((p.sparse.findIdx? fun s => !name.isEmpty && s.name == name).map .sparse).or <|
    (if p.inputs.any fun v => v.name == name then some .input else none).or <|
    firstResult? p.nodes name

/-- The node at `i` takes a value whose producer is the node at `j`. -/
def DependsOn (p : GraphParts) (i j : Nat) : Prop :=
  ∃ n, p.nodes[i]? = some n ∧
    ∃ name ∈ n.presentInputs, ∃ slot, p.firstProducer? name = some (.node j slot)

/-- No node depends on itself, be it through others. -/
def Acyclic (p : GraphParts) : Prop := ∀ i, ¬TransGen p.DependsOn i i

/-- All names that nodes or the graph itself refer to have a producer. -/
def NamesResolve (p : GraphParts) : Prop :=
  (∀ n ∈ p.nodes, ∀ name ∈ n.presentInputs, (p.firstProducer? name).isSome) ∧
    ∀ v ∈ p.outputs, (p.firstProducer? v.name).isSome

/-! ### The index -/

lemma lookup_zipIdx_map {α : Type} (name : String) (key : α → String) (entry : Nat → Producer)
    (as : List α) (k : Nat) :
    ((as.zipIdx k).map fun (a, i) => (key a, entry i)).lookup name =
      (as.findIdx? fun a => key a == name).map fun i => entry (k + i) := by
  induction as generalizing k with
  | nil => simp
  | cons a as ih =>
    rw [List.zipIdx_cons, List.map_cons, List.lookup_cons, ih, List.findIdx?_cons, BEq.comm]
    cases key a == name <;> simp [Function.comp_def, Nat.add_assoc, Nat.add_comm 1]

lemma lookup_zipIdx_filterMap {α : Type} (name : String) (key : α → String)
    (entry : Nat → Producer) (as : List α) (k : Nat) :
    ((as.zipIdx k).filterMap fun (a, i) =>
        if (key a).isEmpty then none else some (key a, entry i)).lookup name =
      (as.findIdx? fun a => !name.isEmpty && key a == name).map fun i => entry (k + i) := by
  induction as generalizing k with
  | nil => simp
  | cons a as ih =>
    rw [List.zipIdx_cons, List.findIdx?_cons]
    by_cases hkey : key a = name
    · subst hkey
      by_cases hempty : (key a).isEmpty = true
      · rw [List.filterMap_cons_none (by simp [hempty]), ih]
        simp [hempty, Function.comp_def, Nat.add_assoc, Nat.add_comm 1]
      · rw [List.filterMap_cons_some (b := (key a, entry k)) (by simp [hempty])]
        simp [hempty]
    · have hne : (name == key a) = false := by simpa using Ne.symm hkey
      by_cases hempty : (key a).isEmpty = true
      · rw [List.filterMap_cons_none (by simp [hempty]), ih]
        simp [hkey, Function.comp_def, Nat.add_assoc, Nat.add_comm 1]
      · rw [List.filterMap_cons_some (b := (key a, entry k)) (by simp [hempty]),
          List.lookup_cons, hne, ih]
        simp [hkey, Function.comp_def, Nat.add_assoc, Nat.add_comm 1]

lemma lookup_flatMap {α : Type} (name : String) (f : α → ProducerIndex) (as : List α) :
    (as.flatMap f).lookup name = as.findSome? fun a => (f a).lookup name := by
  induction as with
  | nil => rfl
  | cons a as ih =>
    rw [List.flatMap_cons, List.lookup_append, ih, List.findSome?_cons]
    cases (f a).lookup name <;> rfl

lemma lookup_nodeProducers (nodes : List Node) (name : String) :
    (nodeProducers nodes).lookup name = firstResult? nodes name := by
  rw [nodeProducers, lookup_flatMap, firstResult?]
  congr 1
  funext ⟨n, position⟩
  have h := lookup_zipIdx_filterMap name id (fun slot => .node position slot) n.outputs 0
  simpa using h

lemma lookup_inputs (inputs : List ValueInfo) (name : String) :
    ((inputs.map fun v => (v.name, Producer.input)).lookup name) =
      if inputs.any fun v => v.name == name then some .input else none := by
  induction inputs with
  | nil => rfl
  | cons v inputs ih =>
    rw [List.map_cons, List.lookup_cons, ih, List.any_cons, BEq.comm]
    cases v.name == name <;> simp

lemma lookup_index (p : GraphParts) (name : String) :
    p.index.lookup name = p.firstProducer? name := by
  have hconstants := lookup_zipIdx_map name Tensor.name .initializer p.initializers 0
  have hsparse := lookup_zipIdx_filterMap name SparseConstant.name .sparse p.sparse 0
  simp only [Nat.zero_add] at hconstants hsparse
  rw [index, List.lookup_append, List.lookup_append, List.lookup_append, hconstants, hsparse,
    lookup_inputs, lookup_nodeProducers, firstProducer?, Option.or_assoc, Option.or_assoc]

lemma exists_node_of_firstResult? {nodes : List Node} {name : String} {producer : Producer}
    (h : firstResult? nodes name = some producer) : ∃ j slot, producer = .node j slot := by
  obtain ⟨⟨_, j⟩, _, heq⟩ := List.exists_of_findSome?_eq_some h
  obtain ⟨slot, _, rfl⟩ := Option.map_eq_some_iff.mp heq
  exact ⟨j, slot, rfl⟩

lemma exists_of_firstResult? {nodes : List Node} {name : String} {j slot : Nat}
    (h : firstResult? nodes name = some (.node j slot)) :
    ∃ n, nodes[j]? = some n ∧ n.outputs[slot]? = some name := by
  obtain ⟨⟨n, position⟩, hmem, heq⟩ := List.exists_of_findSome?_eq_some h
  obtain ⟨slot', hfound, hnode⟩ := Option.map_eq_some_iff.mp heq
  obtain ⟨rfl, rfl⟩ := Producer.node.inj hnode
  obtain ⟨hlt, hmatch, _⟩ := List.findIdx?_eq_some_iff_getElem.mp hfound
  have hname : ¬name = "" ∧ n.outputs[slot'] = name := by simpa using hmatch
  refine ⟨n, List.mem_zipIdx_iff_getElem?.mp hmem, ?_⟩
  rw [List.getElem?_eq_getElem hlt, hname.2]

lemma lt_length_of_firstResult? {nodes : List Node} {name : String} {j slot : Nat}
    (h : firstResult? nodes name = some (.node j slot)) : j < nodes.length := by
  obtain ⟨n, hn, _⟩ := exists_of_firstResult? h
  exact (List.getElem?_eq_some_iff.mp hn).1

lemma firstProducer?_eq_node {p : GraphParts} {name : String} {j slot : Nat}
    (h : p.firstProducer? name = some (.node j slot)) :
    firstResult? p.nodes name = some (.node j slot) := by
  unfold firstProducer? at h
  rcases Option.or_eq_some_iff.mp h with h | ⟨_, h⟩
  · simp at h
  rcases Option.or_eq_some_iff.mp h with h | ⟨_, h⟩
  · simp at h
  rcases Option.or_eq_some_iff.mp h with h | ⟨_, h⟩
  · simp at h
  exact h

lemma DependsOn.lt_length {p : GraphParts} {i j : Nat} (h : p.DependsOn i j) :
    j < p.nodes.length := by
  obtain ⟨_, _, _, _, _, hnode⟩ := h
  exact lt_length_of_firstResult? (firstProducer?_eq_node hnode)

/-! ### Dependencies -/

/-- The dependency that one operand makes. -/
def takenFrom? (p : GraphParts) (name : String) : Option Order.Dependency :=
  match p.firstProducer? name with
  | some (.node position _) => some (position, name)
  | _ => none

lemma takenFrom?_eq_some_iff {p : GraphParts} {name : String} {d : Order.Dependency} :
    p.takenFrom? name = some d ↔
      d.2 = name ∧ ∃ slot, p.firstProducer? name = some (.node d.1 slot) := by
  unfold takenFrom?
  split
  · rename_i position slot h
    rw [h]
    constructor
    · intro heq
      obtain rfl := Option.some.inj heq
      exact ⟨rfl, slot, rfl⟩
    · rintro ⟨rfl, slot', heq⟩
      obtain ⟨rfl, rfl⟩ := Producer.node.inj (Option.some.inj heq)
      rfl
  · rename_i hnot
    constructor
    · simp
    · rintro ⟨_, slot, heq⟩
      exact absurd heq (hnot d.1 slot)

/-- The positions that a node takes values from, each with the value. -/
def takenBy (p : GraphParts) (n : Node) : List Order.Dependency :=
  n.presentInputs.filterMap p.takenFrom?

lemma foldlM_dependencies_eq_ok_iff {p : GraphParts} {user : String} {names : List String}
    {found ds : List Order.Dependency} :
    names.foldlM (fun found name => match p.index.lookup name with
        | some (.node position _) => Except.ok (found ++ [(position, name)])
        | some _ => .ok found
        | none => .error (StructureError.unresolved user name)) found = .ok ds ↔
      (∀ name ∈ names, (p.firstProducer? name).isSome) ∧
        ds = found ++ names.filterMap p.takenFrom? := by
  induction names generalizing found with
  | nil => simpa [pure, Except.pure] using eq_comm
  | cons name names ih =>
    rw [List.foldlM_cons, bind_eq_ok_iff, List.forall_mem_cons, lookup_index]
    cases h : p.firstProducer? name with
    | none => simp
    | some producer => cases producer <;> simp [ih, takenFrom?, h]

lemma dependencies_eq_ok_iff {p : GraphParts} {n : Node} {ds : List Order.Dependency} :
    dependencies p.index n = .ok ds ↔
      (∀ name ∈ n.presentInputs, (p.firstProducer? name).isSome) ∧ ds = p.takenBy n :=
  foldlM_dependencies_eq_ok_iff

lemma checkOutputs_eq_ok_iff {p : GraphParts} :
    checkOutputs p.index p.outputs = .ok () ↔
      ∀ v ∈ p.outputs, (p.firstProducer? v.name).isSome := by
  unfold checkOutputs
  rw [forM_eq_ok_iff]
  refine forall₂_congr fun v _ => ?_
  rw [lookup_index]
  cases p.firstProducer? v.name <;> simp

/-- The dependencies of all nodes. -/
def dependencyTable (p : GraphParts) : Array (List Order.Dependency) :=
  (p.nodes.map p.takenBy).toArray

lemma depends_dependencyTable_iff {p : GraphParts} {i j : Nat} :
    Order.Depends p.dependencyTable i j ↔ p.DependsOn i j := by
  unfold Order.Depends Order.Takes DependsOn dependencyTable takenBy
  simp only [List.getElem?_toArray, List.getElem?_map, Option.map_eq_some_iff]
  constructor
  · rintro ⟨value, _, ⟨n, hn, rfl⟩, hmem⟩
    obtain ⟨name, hname, htaken⟩ := List.mem_filterMap.mp hmem
    exact ⟨n, hn, name, hname, (takenFrom?_eq_some_iff.mp htaken).2⟩
  · rintro ⟨n, hn, name, hname, hproducer⟩
    exact ⟨name, _, ⟨n, hn, rfl⟩,
      List.mem_filterMap.mpr ⟨name, hname, takenFrom?_eq_some_iff.mpr ⟨rfl, hproducer⟩⟩⟩

lemma depends_dependencyTable (p : GraphParts) : Order.Depends p.dependencyTable = p.DependsOn := by
  funext i j
  exact propext depends_dependencyTable_iff

lemma lt_size_of_depends {p : GraphParts} (i j : Nat) (h : Order.Depends p.dependencyTable i j) :
    j < p.dependencyTable.size := by
  simpa [dependencyTable] using (depends_dependencyTable_iff.mp h).lt_length

lemma search_dependencyTable (p : GraphParts) :
    Order.search p.dependencyTable = Order.sort p.dependencyTable :=
  Order.search_eq_sort (Order.inRange_of_depends lt_size_of_depends)

lemma resolve_eq_ok_iff {p : GraphParts} {producers : ProducerIndex} {order : List Nat} :
    p.resolve = .ok (producers, order) ↔
      p.NamesResolve ∧ producers = p.index ∧ Order.sort p.dependencyTable = .ok order := by
  rw [← search_dependencyTable]
  unfold resolve NamesResolve
  simp only [bind_eq_ok_iff, mapM_eq_ok_iff, mapError_eq_ok_iff, dependencies_eq_ok_iff]
  simp only [forall₂_and_eq_iff]
  constructor
  · rintro ⟨_, ⟨hnames, rfl⟩, ⟨⟩, houtputs, _, hsort, heq⟩
    obtain ⟨rfl, rfl⟩ := Prod.mk.inj (Except.ok.inj heq)
    exact ⟨⟨hnames, checkOutputs_eq_ok_iff.mp houtputs⟩, rfl, hsort⟩
  · rintro ⟨⟨hnames, houtputs⟩, rfl, hsort⟩
    exact ⟨_, ⟨hnames, rfl⟩, (), checkOutputs_eq_ok_iff.mpr houtputs, order, hsort, rfl⟩

lemma exists_resolve_eq_ok_iff {p : GraphParts} :
    (∃ r, p.resolve = .ok r) ↔ p.NamesResolve ∧ p.Acyclic := by
  have hsort := Order.sort_isOk_iff (lt_size_of_depends (p := p))
  rw [depends_dependencyTable] at hsort
  unfold Acyclic
  rw [← hsort]
  constructor
  · rintro ⟨⟨producers, order⟩, h⟩
    obtain ⟨hnames, _, horder⟩ := resolve_eq_ok_iff.mp h
    exact ⟨hnames, order, horder⟩
  · rintro ⟨hnames, order, horder⟩
    exact ⟨(p.index, order), resolve_eq_ok_iff.mpr ⟨hnames, rfl, horder⟩⟩

lemma toGraphParts_of_build {p : GraphParts} {g : Graph} (h : p.build = .ok g) :
    g.toGraphParts = p := by
  obtain ⟨⟨producers, order⟩, _, rfl⟩ := map_eq_ok_iff.mp h
  rfl

/-- A graph is built exactly if all names resolve and no node depends on itself. The graph has the
given parts, its index gives the first producer of each name, and its order has every node once,
behind the nodes that it takes values from. -/
theorem build_succeeds_iff_and_orders (p : GraphParts) :
    ((∃ g, p.build = .ok g) ↔ p.NamesResolve ∧ p.Acyclic) ∧
      ∀ g, p.build = .ok g →
        g.toGraphParts = p ∧ (∀ name, g.producer? name = p.firstProducer? name) ∧
          g.order.Perm (List.range p.nodes.length) ∧
          ∀ i j, p.DependsOn i j → g.order.idxOf j < g.order.idxOf i := by
  constructor
  · rw [← exists_resolve_eq_ok_iff]
    constructor
    · rintro ⟨g, h⟩
      obtain ⟨r, hr, _⟩ := map_eq_ok_iff.mp h
      exact ⟨r, hr⟩
    · rintro ⟨r, hr⟩
      exact ⟨_, map_eq_ok_iff.mpr ⟨r, hr, rfl⟩⟩
  · intro g h
    obtain ⟨⟨producers, order⟩, hr, rfl⟩ := map_eq_ok_iff.mp h
    obtain ⟨_, rfl, hsort⟩ := resolve_eq_ok_iff.mp hr
    refine ⟨rfl, lookup_index p, ?_, ?_⟩
    · simpa [dependencyTable] using Order.sort_perm hsort
    · intro i j hdep
      have hdep' := depends_dependencyTable_iff.mpr hdep
      exact Order.sort_idxOf_lt hsort hdep' (lt_size_of_depends i j hdep')

end GraphParts

end TensorGraph
