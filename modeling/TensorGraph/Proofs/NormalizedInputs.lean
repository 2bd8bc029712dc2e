import TensorGraph.Proofs.Propagation.Order
import TensorGraph.Proofs.RepairValidity

/-!
# Graphs without constants among their inputs

A graph may list the names of constants among its inputs. Normalizing drops these inputs, and no
others. A constant outweighs an input of its name, so that the index and the order of a graph that
was built stay as they are, and the graph built anew from what is left has the same.
-/

namespace TensorGraph

namespace GraphParts

variable {p q : GraphParts}

lemma KeepsProducers.resolve_eq (h : p.KeepsProducers q) {producers : ProducerIndex}
    {order : List Nat} (hp : p.resolve = .ok (producers, order)) :
    q.resolve = .ok (q.index, order) := by
  have hproducers : q.firstProducer? = p.firstProducer? := funext h.producers
  have htable : q.dependencyTable = p.dependencyTable := by
    unfold dependencyTable takenBy takenFrom?
    rw [h.nodes, hproducers]
  obtain ⟨hnames, _⟩ := exists_resolve_eq_ok_iff.mp (h.resolve ⟨_, hp⟩)
  obtain ⟨_, _, hsort⟩ := resolve_eq_ok_iff.mp hp
  exact resolve_eq_ok_iff.mpr ⟨hnames, rfl, htable ▸ hsort⟩

lemma KeepsProducers.exists_build (h : p.KeepsProducers q) {g : Graph} (hp : p.build = .ok g) :
    ∃ fresh, q.build = .ok fresh ∧ fresh.toGraphParts = q ∧
      (∀ name, fresh.producer? name = g.producer? name) ∧ fresh.order = g.order := by
  obtain ⟨⟨producers, order⟩, hresolve, rfl⟩ := map_eq_ok_iff.mp hp
  obtain ⟨_, rfl, _⟩ := resolve_eq_ok_iff.mp hresolve
  refine ⟨{ q with producers := q.index, order }, ?_, rfl, ?_, rfl⟩
  · exact map_eq_ok_iff.mpr ⟨_, h.resolve_eq hresolve, rfl⟩
  · intro name
    calc q.index.lookup name
      _ = q.firstProducer? name := q.lookup_index name
      _ = p.firstProducer? name := h.producers name
      _ = p.index.lookup name := (p.lookup_index name).symm

lemma firstProducer?_ne_input {name : String} (h : name ∈ p.initializers.map Tensor.name) :
    p.firstProducer? name ≠ some .input := by
  have hfound : (p.initializers.findIdx? fun t => t.name == name).isSome := by
    rw [List.findIdx?_isSome]
    simpa using h
  obtain ⟨i, hi⟩ := Option.isSome_iff_exists.mp hfound
  unfold firstProducer?
  rw [hi]
  simp

end GraphParts

namespace Graph

variable {g : Graph} {keep : ValueInfo → Bool}

lemma retainInputs_eq_self (h : ∀ v ∈ g.inputs, keep v = true) : g.retainInputs keep = g := by
  have hinputs : g.inputs.filter keep = g.inputs := List.filter_eq_self.mpr h
  have hremoved : (g.inputs.filter fun v => !keep v) = [] :=
    List.filter_eq_nil_iff.mpr fun v hv => by simp [h v hv]
  unfold retainInputs
  simp [hinputs, hremoved]

lemma retainInputs_producers_eq (h : ∀ v ∈ g.inputs, keep v = false →
      g.producer? v.name ≠ some .input) :
    (g.retainInputs keep).producers = g.producers := by
  unfold retainInputs
  apply List.filter_eq_self.mpr
  intro e _
  by_cases hremoved : e.1 ∈ (g.inputs.filter fun v => !keep v).map ValueInfo.name
  · obtain ⟨v, hv, hname⟩ := List.mem_map.mp hremoved
    obtain ⟨hmem, hkeep⟩ := List.mem_filter.mp hv
    have hother : g.producers.lookup e.1 ≠ some .input := by
      rw [← hname]
      exact h v hmem (by simpa using hkeep)
    simp [hother]
  · simp [hremoved]

/-! ### Inputs that name constants -/

lemma isProperInput_eq (g : Graph) (v : ValueInfo) :
    g.isProperInput v = decide (v.name ∉ g.initializers.map Tensor.name) := by
  rw [Bool.eq_iff_iff]
  simp [isProperInput]

lemma normalizeInputs_inputs (g : Graph) : g.normalizeInputs.inputs =
    g.inputs.filter fun v => v.name ∉ g.initializers.map Tensor.name :=
  List.filter_congr fun v _ => g.isProperInput_eq v

lemma isProperInput_of_mem_normalizeInputs :
    ∀ v ∈ g.normalizeInputs.inputs, g.isProperInput v = true :=
  fun _ hv => (List.mem_filter.mp hv).2

lemma countConstantInputs_eq (g : Graph) :
    g.countConstantInputs = g.inputs.countP fun v => v.name ∈ g.initializers.map Tensor.name := by
  unfold countConstantInputs countDropped
  rw [List.countP_eq_length_filter]
  congr 2
  funext v
  rw [isProperInput_eq, decide_not, Bool.not_not]

lemma normalizeInputs_normalizeInputs (g : Graph) :
    g.normalizeInputs.normalizeInputs = g.normalizeInputs :=
  retainInputs_eq_self isProperInput_of_mem_normalizeInputs

lemma countConstantInputs_normalizeInputs (g : Graph) :
    g.normalizeInputs.countConstantInputs = 0 := by
  unfold countConstantInputs countDropped
  rw [List.length_eq_zero_iff, List.filter_eq_nil_iff]
  intro v hv
  have hproper : g.isProperInput v = true := isProperInput_of_mem_normalizeInputs v hv
  have hsame : g.normalizeInputs.isProperInput v = g.isProperInput v := rfl
  simp [hsame, hproper]

lemma InOrder.normalizeInputs (h : g.InOrder) : g.normalizeInputs.InOrder where
  perm := h.perm
  behind i j hdep := by
    rw [g.normalizeInputs_keepsProducers.dependsOn] at hdep
    exact h.behind i j hdep

lemma Resolved.normalizeInputs_producers (hg : g.Resolved) :
    g.normalizeInputs.producers = g.producers := by
  apply retainInputs_producers_eq
  intro v _ himproper
  rw [hg.index]
  apply GraphParts.firstProducer?_ne_input
  simpa [isProperInput_eq] using himproper

/-- Of a graph that was built, normalizing drops exactly the inputs that name constants, and changes
nothing else: neither what produces a name nor the order. It counts what it drops, and a second time
it drops nothing. The graph that is built anew from what is left has the same index and order. -/
theorem normalizeInputs_of_build {p : GraphParts} (h : p.build = .ok g) :
    g.normalizeInputs = { g with
        inputs := g.inputs.filter fun v => v.name ∉ g.initializers.map Tensor.name } ∧
      g.countConstantInputs =
        (g.inputs.countP fun v => v.name ∈ g.initializers.map Tensor.name) ∧
      g.normalizeInputs.normalizeInputs = g.normalizeInputs ∧
      g.normalizeInputs.countConstantInputs = 0 ∧
      (∀ name, g.normalizeInputs.producer? name = g.producer? name) ∧
      ∃ fresh, g.normalizeInputs.toGraphParts.build = .ok fresh ∧
        fresh.toGraphParts = g.normalizeInputs.toGraphParts ∧
        (∀ name, fresh.producer? name = g.producer? name) ∧ fresh.order = g.order := by
  have hproducers := (resolved_of_build h).normalizeInputs_producers
  have hinputs := g.normalizeInputs_inputs
  refine ⟨?_, g.countConstantInputs_eq, g.normalizeInputs_normalizeInputs,
    g.countConstantInputs_normalizeInputs, ?_, ?_⟩
  · rw [← hinputs]
    conv_rhs => rw [← hproducers]
    rfl
  · intro name
    unfold producer?
    rw [hproducers]
  · have hkeeps := g.normalizeInputs_keepsProducers
    rw [GraphParts.toGraphParts_of_build h] at hkeeps
    exact hkeeps.exists_build h

/-- The constant `b` is listed as an input twice, and a node gives a result of that name as well. -/
def crowded : GraphParts where
  nodes := [{ op := "Relu", inputs := ["h"], outputs := ["y"] },
            { op := "Dropout", inputs := ["b"], outputs := ["h", "b"] }]
  inputs := [{ name := "b" }, { name := "x" }, { name := "b" }]
  outputs := [{ name := "y" }]
  initializers := [{ name := "b", elem? := some .float, extents := [1], payload := .floats [0] }]

theorem normalizeInputs_of_crowded :
    ∃ g, crowded.build = .ok g ∧ g.countConstantInputs = 2 ∧
      g.normalizeInputs.inputs = [{ name := "x" }] ∧
      g.normalizeInputs.producer? "b" = some (.initializer 0) ∧
      ∃ fresh, g.normalizeInputs.toGraphParts.build = .ok fresh ∧ fresh.order = [1, 0] ∧
        ∀ name, fresh.producer? name = g.producer? name := by
  have hbuild :
      crowded.build = .ok { crowded with producers := crowded.index, order := [1, 0] } := by
    decide +kernel
  obtain ⟨hdropped, hcount, _, _, hindex, fresh, hfresh, _, hproducer, horder⟩ :=
    normalizeInputs_of_build hbuild
  refine ⟨_, hbuild, ?_, ?_, ?_, fresh, hfresh, horder, hproducer⟩
  · rw [hcount]
    decide
  · rw [hdropped]
    decide
  · rw [hindex]
    decide

end Graph

end TensorGraph
