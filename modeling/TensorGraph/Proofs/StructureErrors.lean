import TensorGraph.Proofs.Resolution

/-!
# Why a graph does not resolve

A graph that does not resolve names a culprit. It is the first reference that has no producer:
operands come first, in the order of the nodes, and then the outputs. If all references have one, it
is a value that closes a circle: a node takes it from a node that depends on the taker.
-/

namespace TensorGraph

open Relation

variable {α β ε : Type}

/-- The reason why a computation fails, if it does. -/
def failure? : Except ε α → Option ε
  | .error e => some e
  | .ok _ => none

lemma failure?_eq_some_iff {x : Except ε α} {e : ε} : failure? x = some e ↔ x = .error e := by
  cases x <;> simp [failure?]

lemma failure?_bind {x : Except ε α} {f : α → Except ε β} {r : Option ε}
    (hf : ∀ a, x = .ok a → failure? (f a) = r) : failure? (x >>= f) = (failure? x).or r := by
  cases x with
  | error e => rfl
  | ok a => exact hf a rfl

lemma failure?_mapError {ε' : Type} (x : Except ε α) (f : ε → ε') :
    failure? (x.mapError f) = (failure? x).map f := by
  cases x <;> rfl

lemma failure?_mapM (f : α → Except ε β) (as : List α) :
    failure? (as.mapM f) = as.findSome? fun a => failure? (f a) := by
  induction as with
  | nil => rfl
  | cons a as ih =>
    rw [List.mapM_cons, List.findSome?_cons, ← ih]
    cases f a with
    | error e => rfl
    | ok b => cases as.mapM f <;> rfl

lemma failure?_forM (f : α → Except ε Unit) (as : List α) :
    failure? (as.forM f) = as.findSome? fun a => failure? (f a) := by
  induction as with
  | nil => rfl
  | cons a as ih =>
    rw [List.findSome?_cons, ← ih]
    change failure? (f a >>= fun _ => as.forM f) = _
    cases f a <;> rfl

namespace GraphParts

variable {p : GraphParts}

/-- The name stands for nothing. -/
def lacksProducer (p : GraphParts) (name : String) : Bool := (p.firstProducer? name).isNone

/-- The first operand of a node that stands for nothing. -/
def unresolvedOperand? (p : GraphParts) (n : Node) : Option String :=
  n.presentInputs.find? p.lacksProducer

/-- The first reference that stands for nothing, behind the label of its user. -/
def firstUnresolved? (p : GraphParts) : Option (String × String) :=
  (p.nodes.findSome? fun n => (p.unresolvedOperand? n).map fun value => (n.label, value)).or <|
    ((p.outputs.map ValueInfo.name).find? p.lacksProducer).map
      fun value => (graphOutputUser, value)

/-- A node takes this value from itself or from a node that depends on it. -/
def ClosesCycle (p : GraphParts) (value : String) : Prop :=
  ∃ i j n d slot, p.nodes[i]? = some n ∧ value ∈ n.presentInputs ∧
    p.firstProducer? value = some (.node j slot) ∧ p.nodes[j]? = some d ∧
    d.outputs[slot]? = some value ∧ ReflTransGen p.DependsOn j i

lemma lacksProducer_eq_false_iff {name : String} :
    p.lacksProducer name = false ↔ (p.firstProducer? name).isSome := by
  unfold lacksProducer
  cases p.firstProducer? name <;> simp

lemma firstUnresolved?_eq_none_iff : p.firstUnresolved? = none ↔ p.NamesResolve := by
  simp [firstUnresolved?, unresolvedOperand?, NamesResolve, List.findSome?_eq_none_iff,
    lacksProducer_eq_false_iff]

lemma firstProducer?_of_firstUnresolved? {user value : String}
    (h : p.firstUnresolved? = some (user, value)) : p.firstProducer? value = none := by
  have hlacks : p.lacksProducer value = true := by
    rcases Option.or_eq_some_iff.mp h with hnode | ⟨_, houtput⟩
    · obtain ⟨n, _, hn⟩ := List.exists_of_findSome?_eq_some hnode
      obtain ⟨name, hname, heq⟩ := Option.map_eq_some_iff.mp hn
      obtain ⟨_, rfl⟩ := Prod.mk.inj heq
      exact List.find?_some hname
    · obtain ⟨name, hname, heq⟩ := Option.map_eq_some_iff.mp houtput
      obtain ⟨_, rfl⟩ := Prod.mk.inj heq
      exact List.find?_some hname
  simpa [lacksProducer] using hlacks

lemma failure?_foldlM_dependencies (p : GraphParts) (user : String) (names : List String)
    (found : List Order.Dependency) :
    failure? (names.foldlM (fun found name => match p.index.lookup name with
        | some (.node position _) => Except.ok (found ++ [(position, name)])
        | some _ => .ok found
        | none => .error (StructureError.unresolved user name)) found) =
      (names.find? p.lacksProducer).map (.unresolved user) := by
  induction names generalizing found with
  | nil => rfl
  | cons name names ih =>
    rw [List.foldlM_cons, List.find?_cons, lookup_index]
    unfold lacksProducer at ih ⊢
    cases p.firstProducer? name with
    | none => rfl
    | some producer => cases producer <;> exact ih _

lemma failure?_dependencies (p : GraphParts) (n : Node) :
    failure? (dependencies p.index n) = (p.unresolvedOperand? n).map (.unresolved n.label) :=
  failure?_foldlM_dependencies p n.label n.presentInputs []

lemma failure?_checkOutputs (p : GraphParts) :
    failure? (checkOutputs p.index p.outputs) =
      ((p.outputs.map ValueInfo.name).find? p.lacksProducer).map (.unresolved graphOutputUser) := by
  unfold checkOutputs
  rw [failure?_forM]
  induction p.outputs with
  | nil => rfl
  | cons v vs ih =>
    rw [List.findSome?_cons, List.map_cons, List.find?_cons, ih, lookup_index]
    unfold lacksProducer
    cases p.firstProducer? v.name <;> rfl

lemma failure?_mapM_dependencies (p : GraphParts) :
    failure? (p.nodes.mapM (dependencies p.index)) =
      (p.nodes.findSome? fun n => (p.unresolvedOperand? n).map fun value => (n.label, value)).map
        fun (user, value) => .unresolved user value := by
  rw [failure?_mapM, List.map_findSome?]
  congr 1
  funext n
  rw [Function.comp_apply, Option.map_map]
  exact p.failure?_dependencies n

lemma eq_of_mapM_dependencies {p : GraphParts} {table : List (List Order.Dependency)}
    (h : p.nodes.mapM (dependencies p.index) = .ok table) : table.toArray = p.dependencyTable := by
  rw [mapM_eq_ok_iff] at h
  simp only [dependencies_eq_ok_iff, forall₂_and_eq_iff] at h
  rw [h.2]
  rfl

/-- The nodes are looked through, then the outputs, and then the nodes are sorted. -/
lemma failure?_resolve (p : GraphParts) :
    failure? p.resolve =
      (p.firstUnresolved?.map fun (user, value) => .unresolved user value).or
        ((failure? (Order.sort p.dependencyTable)).map .cyclic) := by
  unfold firstUnresolved?
  rw [Option.map_or, ← failure?_mapM_dependencies, Option.map_map, Option.or_assoc]
  unfold resolve
  apply failure?_bind
  intro table htable
  rw [eq_of_mapM_dependencies htable]
  have houtputs := p.failure?_checkOutputs
  rw [Function.comp_def, ← houtputs]
  apply failure?_bind
  intro _ _
  rw [← failure?_mapError, ← search_dependencyTable]
  cases Order.search p.dependencyTable <;> rfl

lemma resolve_eq_unresolved_iff {user value : String} :
    p.resolve = .error (.unresolved user value) ↔ p.firstUnresolved? = some (user, value) := by
  rw [← failure?_eq_some_iff, failure?_resolve]
  cases p.firstUnresolved? with
  | none => simp
  | some found => simp [Prod.ext_iff]

lemma resolve_eq_cyclic_iff {value : String} :
    p.resolve = .error (.cyclic value) ↔
      p.NamesResolve ∧ Order.sort p.dependencyTable = .error value := by
  rw [← failure?_eq_some_iff, failure?_resolve, ← firstUnresolved?_eq_none_iff,
    ← failure?_eq_some_iff]
  cases p.firstUnresolved? with
  | none => simp
  | some found => simp

/-! ### Circles -/

lemma ClosesCycle.not_acyclic {value : String} (h : p.ClosesCycle value) : ¬p.Acyclic := by
  obtain ⟨i, j, n, _, slot, hn, hname, hproducer, _, _, hback⟩ := h
  intro hacyclic
  have hdepends : p.DependsOn i j := ⟨n, hn, value, hname, slot, hproducer⟩
  exact hacyclic i (TransGen.head' hdepends hback)

lemma closesCycle_of_dependencyTable {value : String}
    (h : Order.ClosesCycle p.dependencyTable value) : p.ClosesCycle value := by
  obtain ⟨i, j, ⟨ds, hds, htaken⟩, hback⟩ := h
  rw [depends_dependencyTable] at hback
  unfold dependencyTable at hds
  rw [List.getElem?_toArray, List.getElem?_map] at hds
  obtain ⟨n, hn, rfl⟩ := Option.map_eq_some_iff.mp hds
  obtain ⟨name, hname, hfrom⟩ := List.mem_filterMap.mp htaken
  obtain ⟨rfl, slot, hproducer⟩ := takenFrom?_eq_some_iff.mp hfrom
  obtain ⟨d, hd, hresult⟩ := exists_of_firstResult? (firstProducer?_eq_node hproducer)
  exact ⟨i, j, n, d, slot, hn, hname, hproducer, hd, hresult, hback⟩

lemma exists_cyclic_of_not_acyclic (hnames : p.NamesResolve) (hcycle : ¬p.Acyclic) :
    ∃ value, p.resolve = .error (.cyclic value) := by
  have hnot : ¬∃ r, p.resolve = .ok r := fun h => hcycle (exists_resolve_eq_ok_iff.mp h).2
  cases h : p.resolve with
  | ok r => exact absurd ⟨r, h⟩ hnot
  | error e =>
    cases e with
    | cyclic value => exact ⟨value, rfl⟩
    | unresolved user value =>
      have hfirst := resolve_eq_unresolved_iff.mp h
      rw [firstUnresolved?_eq_none_iff.mpr hnames] at hfirst
      cases hfirst

/-- A graph that is not built for want of a producer names the first reference without one: that of
the first node that has one, or else of the outputs. It names a value of a circle exactly if all
references have a producer and some node depends on itself. Then a node takes that value from itself
or from a node that depends on it. -/
theorem culprit_of_build_error (p : GraphParts) :
    (∀ user value, p.build = .error (.unresolved user value) ↔
      p.firstUnresolved? = some (user, value) ∧ p.firstProducer? value = none) ∧
      (∀ value, p.build = .error (.cyclic value) → p.NamesResolve ∧ p.ClosesCycle value) ∧
      ((∃ value, p.build = .error (.cyclic value)) ↔ p.NamesResolve ∧ ¬p.Acyclic) := by
  have hcyclic : ∀ value, p.resolve = .error (.cyclic value) →
      p.NamesResolve ∧ p.ClosesCycle value := by
    intro value h
    obtain ⟨hnames, hsort⟩ := resolve_eq_cyclic_iff.mp h
    exact ⟨hnames, closesCycle_of_dependencyTable (Order.closesCycle_of_sort hsort)⟩
  unfold build
  simp only [map_eq_error_iff]
  refine ⟨?_, hcyclic, ?_⟩
  · intro user value
    rw [resolve_eq_unresolved_iff]
    exact ⟨fun h => ⟨h, firstProducer?_of_firstUnresolved? h⟩, And.left⟩
  · constructor
    · rintro ⟨value, h⟩
      obtain ⟨hnames, hcloses⟩ := hcyclic value h
      exact ⟨hnames, hcloses.not_acyclic⟩
    · rintro ⟨hnames, hcycle⟩
      exact exists_cyclic_of_not_acyclic hnames hcycle

end GraphParts

end TensorGraph
