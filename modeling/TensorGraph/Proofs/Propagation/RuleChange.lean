import TensorGraph.Proofs.Propagation.Parts
import TensorGraph.Proofs.Propagation.Records
import TensorGraph.Proofs.Propagation.Sequence

/-!
# Changing one rule

Two registries may disagree about one operator. What they lead to can then differ at the nodes of
that operator and at the nodes that take values from those, directly or through other nodes. All
other nodes add the same in both runs, whatever becomes of the former.
-/

namespace TensorGraph

open Knowledge

namespace Registry

/-- Two registries have the same rules but perhaps for one operator. -/
def AgreeExcept (rules rules' : Registry) (op : String) : Prop :=
  ∀ other, other ≠ op → rules.rule? other = rules'.rule? other

lemma agreeExcept_register (rules : Registry) (op : String) (rule : Rule) :
    rules.AgreeExcept (rules.register op rule) op := by
  intro other hne
  have hother : (other == op) = false := beq_false_of_ne hne
  unfold rule? register
  rw [List.lookup_cons, hother]
  exact ((lookup_filter_key rules.rules (fun name => name != op) other).trans
    (if_pos (by simpa using hne))).symm

end Registry

namespace Graph

/-- A node is of an operator of the default collection, or it takes a result of a node that is
downstream of that operator. -/
inductive Downstream (g : Graph) (op : String) : Node → Prop
  | own {n : Node} : n.isDefaultDomain = true → n.op = op → Downstream g op n
  | takes {n m : Node} : m ∈ g.nodes → Downstream g op m → n.Takes m → Downstream g op n

/-- No node that gives the value is downstream of the operator. -/
def Spares (g : Graph) (op name : String) : Prop :=
  ∀ n ∈ g.nodes, name ∈ n.presentOutputs → ¬g.Downstream op n

/-- What one node of the graph adds in two runs, which differs at most downstream of the
operator. -/
structure PartAgrees (g : Graph) (op : String) (e e' : Node × Knowledge) : Prop where
  node : e.1 = e'.1
  same : ¬g.Downstream op e.1 → e.2 = e'.2
  mem : e.1 ∈ g.nodes
  concerns : e.2.Concerns e.1.presentOutputs
  concerns' : e'.2.Concerns e'.1.presentOutputs

section Runs

variable {g : Graph} {op : String} {rules rules' : Registry} {opset : Int}
  {declared : List (String × TensorType)} {k k' d d' : Knowledge} {n : Node} {ns : List Node}
  {es es' : List (Node × Knowledge)} {name : String}

lemma askRule_eq_of_agreeExcept (hrules : rules.AgreeExcept rules' op) {c : Context}
    (hnode : ¬(c.node.isDefaultDomain = true ∧ c.node.op = op)) :
    askRule rules c = askRule rules' c := by
  unfold askRule
  by_cases hdomain : c.node.isDefaultDomain = true
  · rw [hrules c.node.op fun hop => hnode ⟨hdomain, hop⟩]
  · simp [hdomain]

lemma gain_eq_of_not_downstream (hrules : rules.AgreeExcept rules' op)
    (hk : ∀ name, g.Spares op name → k.AgreeAt k' name) (hn : ¬g.Downstream op n) :
    gain rules opset g declared k n = gain rules' opset g declared k' n := by
  have hspared : ∀ name ∈ n.presentInputs, g.Spares op name := fun name hname m hm hresult hdown =>
    hn (.takes hm hdown ⟨name, hname, hresult⟩)
  have hrule : gain rules opset g declared k n = gain rules' opset g declared k n := by
    unfold gain
    rw [askRule_eq_of_agreeExcept hrules fun hown => hn (.own hown.1 hown.2)]
  rw [hrule, gain_congr fun name hname => hk name (hspared name hname)]

lemma agreeAt_append_of_partAgrees (h : g.PartAgrees op (n, d) (n, d'))
    (hk : ∀ name, g.Spares op name → k.AgreeAt k' name) (hname : g.Spares op name) :
    (d ++ k).AgreeAt (d' ++ k') name := by
  by_cases hgiven : name ∈ n.presentOutputs
  · obtain rfl : d = d' := h.same (hname n h.mem hgiven)
    have hbefore := hk name hname
    constructor
    · rw [known_append, known_append, List.lookup_append, List.lookup_append, hbefore.known]
    · rw [constants_append, constants_append, List.lookup_append, List.lookup_append,
        hbefore.constants]
  · exact (h.concerns.agreeAt_append hgiven).symm.trans
      ((hk name hname).trans (h.concerns'.agreeAt_append hgiven))

/-- All nodes of a run, one after the other. -/
lemma forall₂_partAgrees_gains (hrules : rules.AgreeExcept rules' op) (hns : ∀ n ∈ ns, n ∈ g.nodes)
    (hk : ∀ name, g.Spares op name → k.AgreeAt k' name)
    (h : gains rules opset g declared k ns = .ok es)
    (h' : gains rules' opset g declared k' ns = .ok es') :
    List.Forall₂ (g.PartAgrees op) es es' := by
  induction ns generalizing k k' es es' with
  | nil =>
    obtain rfl := Except.ok.inj h
    obtain rfl := Except.ok.inj h'
    exact .nil
  | cons n ns ih =>
    obtain ⟨d, rest, hd, hrest, rfl⟩ := gains_cons_eq_ok_iff.mp h
    obtain ⟨d', rest', hd', hrest', rfl⟩ := gains_cons_eq_ok_iff.mp h'
    rw [List.forall_mem_cons] at hns
    have hagree : g.PartAgrees op (n, d) (n, d') := {
      node := rfl
      same := fun hn => by
        rw [gain_eq_of_not_downstream hrules hk hn, hd'] at hd
        exact (Except.ok.inj hd).symm
      mem := hns.1
      concerns := learn_concerns hd
      concerns' := learn_concerns hd' }
    exact .cons hagree
      (ih hns.2 (fun _ hname => agreeAt_append_of_partAgrees hagree hk hname) hrest hrest')

lemma filter_records_eq_nil (hd : d.Concerns n.presentOutputs) (hname : name ∉ n.presentOutputs) :
    (d.records.reverse.filter fun v => v.name == name) = [] := by
  refine List.filter_eq_nil_iff.mpr fun v hv heq => hname ?_
  obtain ⟨_, _, hknown⟩ := hd.records v (List.mem_reverse.mp hv)
  exact beq_iff_eq.mp heq ▸ hd.known _ hknown

lemma filter_records_eq_of_partAgrees {e e' : Node × Knowledge} (h : g.PartAgrees op e e')
    (hname : g.Spares op name) :
    (e.2.records.reverse.filter fun v => v.name == name) =
      e'.2.records.reverse.filter fun v => v.name == name := by
  by_cases hgiven : name ∈ e.1.presentOutputs
  · rw [h.same (hname e.1 h.mem hgiven)]
  · rw [filter_records_eq_nil h.concerns hgiven,
      filter_records_eq_nil h.concerns' (h.node ▸ hgiven)]

lemma filter_records_eq_of_forall₂ (h : List.Forall₂ (g.PartAgrees op) es es')
    (hname : g.Spares op name) :
    ((es.flatMap fun e => e.2.records.reverse).filter fun v => v.name == name) =
      (es'.flatMap fun e => e.2.records.reverse).filter fun v => v.name == name := by
  induction h with
  | nil => rfl
  | cons hagree _ ih =>
    rw [List.flatMap_cons, List.flatMap_cons, List.filter_append, List.filter_append,
      filter_records_eq_of_partAgrees hagree hname, ih]

/-- Of all records only those of a value matter to its description. -/
lemma inner?_foldl_record_filter {g g' : Graph} (hinputs : g'.inputs = g.inputs)
    (hinner : g'.inner? name = g.inner? name) (records : List ValueInfo) :
    (records.foldl record g').inner? name =
      ((records.filter fun v => v.name == name).foldl record g).inner? name := by
  induction records generalizing g g' with
  | nil => exact hinner
  | cons v records ih =>
    by_cases hv : v.name = name
    · subst hv
      rw [List.filter_cons_of_pos (by simp)]
      refine ih ?_ (inner?_record_congr hinputs hinner)
      rw [record_inputs, record_inputs, hinputs]
    · rw [List.filter_cons_of_neg (by simpa using hv)]
      refine ih ?_ ((inner?_record_of_ne (Ne.symm hv)).trans hinner)
      rw [record_inputs, hinputs]

lemma valueType?_foldl_record_congr {g : Graph} {records records' : List ValueInfo}
    (h : (records.filter fun v => v.name == name) = records'.filter fun v => v.name == name) :
    (records.foldl record g).valueType? name = (records'.foldl record g).valueType? name := by
  rw [valueType?_eq, valueType?_eq, constantType?_foldl_record, constantType?_foldl_record,
    foldl_record_inputs, foldl_record_inputs, inner?_foldl_record_filter rfl rfl records,
    inner?_foldl_record_filter rfl rfl records', h]

end Runs

/-- The nodes in the order of the graph, each with what is reported of it if it is skipped. -/
def skipsByNode (g : Graph) (rules : Registry) (opset : Int) :
    Except Abort (List (Node × List Skip)) :=
  (g.parts rules opset).map fun es => es.map fun e => (e.1, e.2.skips.reverse)

/-- Types are propagated by two registries that disagree about one operator. Then all values have
the same types afterwards unless a node that gives them is downstream of that operator. What is
reported splits into what is reported of each node, and this is the same for all nodes that are not
downstream. -/
theorem propagate_agrees_upstream {g g₁ g₂ : Graph} {rules₁ rules₂ : Registry} {op : String}
    {opset : Int} {report₁ report₂ : PropagationReport} (hrules : rules₁.AgreeExcept rules₂ op)
    (h₁ : g.propagate rules₁ opset = .ok (g₁, report₁))
    (h₂ : g.propagate rules₂ opset = .ok (g₂, report₂)) :
    (∀ name, g.Spares op name → g₁.valueType? name = g₂.valueType? name) ∧
      ∃ skips₁ skips₂, g.skipsByNode rules₁ opset = .ok skips₁ ∧
        g.skipsByNode rules₂ opset = .ok skips₂ ∧
        report₁.skipped = skips₁.flatMap Prod.snd ∧ report₂.skipped = skips₂.flatMap Prod.snd ∧
        (∀ e ∈ skips₁ ++ skips₂, ∀ s ∈ e.2, s.node = e.1.label ∧ s.op = e.1.op) ∧
        List.Forall₂ (fun e e' => e.1 = e'.1 ∧ (¬g.Downstream op e.1 → e.2 = e'.2))
          skips₁ skips₂ := by
  obtain ⟨es₁, hes₁, rfl, rfl⟩ := propagate_eq_ok_iff.mp h₁
  obtain ⟨es₂, hes₂, rfl, rfl⟩ := propagate_eq_ok_iff.mp h₂
  have hparts : List.Forall₂ (g.PartAgrees op) es₁ es₂ :=
    forall₂_partAgrees_gains hrules (fun _ hn => mem_nodes_of_mem_orderedNodes hn)
      (fun name _ => .refl _ name) hes₁ hes₂
  refine ⟨fun name hname => ?_, _, _, map_eq_ok_iff.mpr ⟨es₁, hes₁, rfl⟩,
    map_eq_ok_iff.mpr ⟨es₂, hes₂, rfl⟩, ?_, ?_, ?_, ?_⟩
  · exact valueType?_foldl_record_congr (filter_records_eq_of_forall₂ hparts hname)
  · rw [List.flatMap_map]
  · rw [List.flatMap_map]
  · rw [← List.map_append]
    refine List.forall_mem_map.mpr fun e he s hs => ?_
    rw [List.mem_reverse] at hs
    rcases List.mem_append.mp he with he | he
    · exact skips_of_gains hes₁ e he s hs
    · exact skips_of_gains hes₂ e he s hs
  · rw [List.forall₂_map_left_iff, List.forall₂_map_right_iff]
    refine hparts.imp fun e e' hagree => ⟨hagree.node, fun hn => ?_⟩
    rw [hagree.same hn]

/-- Two nodes that take the same value. -/
def fork : Graph where
  nodes := [{ op := "Relu", inputs := ["x"], outputs := ["h"] },
            { op := "Exp", inputs := ["x"], outputs := ["y"] }]
  inputs := [{ name := "x", type := .of .float (.ofExtents [4]) }]
  outputs := [{ name := "h" }, { name := "y" }]
  producers := [("x", .input), ("h", .node 0 0), ("y", .node 1 0)]
  order := [0, 1]

/-- With a rule for `Relu` that tells of truth values, the other branch is as before. -/
theorem propagate_agrees_upstream_on_fork :
    let rules := Registry.builtin.register "Relu" { infer := Rule.predicate }
    Registry.builtin.AgreeExcept rules "Relu" ∧ fork.Spares "Relu" "y" ∧
      ∃ g₁ r₁ g₂ r₂, fork.propagate .builtin 13 = .ok (g₁, r₁) ∧
        fork.propagate rules 13 = .ok (g₂, r₂) ∧
        g₁.valueType? "h" = some (.of .float (.ofExtents [4])) ∧
        g₂.valueType? "h" = some (.of .bool (.ofExtents [4])) ∧
        g₁.valueType? "y" = g₂.valueType? "y" := by
  intro rules
  have hrules : Registry.builtin.AgreeExcept rules "Relu" := Registry.agreeExcept_register _ _ _
  have hspares : fork.Spares "Relu" "y" := by
    have htaken : ∀ n ∈ fork.nodes, ∀ m ∈ fork.nodes, ¬n.Takes m := by
      rintro n hn m hm ⟨name, hinput, hresult⟩
      have hx : ∀ n ∈ fork.nodes, n.presentInputs = ["x"] := by decide
      have hnot : ∀ n ∈ fork.nodes, "x" ∉ n.presentOutputs := by decide
      rw [hx n hn, List.mem_singleton] at hinput
      exact hnot m hm (hinput ▸ hresult)
    have hop : ∀ n ∈ fork.nodes, "y" ∈ n.presentOutputs → n.op ≠ "Relu" := by decide
    intro n hn hresult hdown
    cases hdown with
    | own _ hrelu => exact hop n hn hresult hrelu
    | takes hm _ htakes => exact htaken n hn _ hm htakes
  have h₁ : (fork.propagate .builtin 13).map (fun p => p.1.valueType? "h") =
      .ok (some (.of .float (.ofExtents [4]))) := by decide +kernel
  have h₂ : (fork.propagate rules 13).map (fun p => p.1.valueType? "h") =
      .ok (some (.of .bool (.ofExtents [4]))) := by decide +kernel
  obtain ⟨⟨g₁, r₁⟩, hg₁, hh₁⟩ := map_eq_ok_iff.mp h₁
  obtain ⟨⟨g₂, r₂⟩, hg₂, hh₂⟩ := map_eq_ok_iff.mp h₂
  exact ⟨hrules, hspares, g₁, r₁, g₂, r₂, hg₁, hg₂, hh₁, hh₂,
    (propagate_agrees_upstream hrules hg₁ hg₂).1 "y" hspares⟩

end Graph

end TensorGraph
