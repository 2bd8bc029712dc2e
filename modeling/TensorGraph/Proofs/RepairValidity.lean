import TensorGraph.Proofs.Propagation.Gains
import TensorGraph.Proofs.Propagation.GivingUp
import TensorGraph.Proofs.Validation
import TensorGraph.Repair

/-!
# Repairs of valid models

A repair changes what a valid model declares, but neither its nodes nor the producers of its names.
What is left for the checks after a repair are the two rules that depend on the version: from a
certain version on, operators have to be imported, and before another one, constants have to be
declared as inputs. A repair raises the version and drops such declarations.
-/

namespace TensorGraph

namespace GraphParts

/-- The second graph has the nodes, constants and outputs of the first one and some of its inputs,
and all names have the same producers. -/
structure KeepsProducers (p q : GraphParts) : Prop where
  nodes : q.nodes = p.nodes
  initializers : q.initializers = p.initializers
  sparse : q.sparse = p.sparse
  inputs : (q.inputs.map ValueInfo.name).Sublist (p.inputs.map ValueInfo.name)
  outputs : q.outputs.map ValueInfo.name = p.outputs.map ValueInfo.name
  producers : ∀ name, q.firstProducer? name = p.firstProducer? name

namespace KeepsProducers

variable {p q r : GraphParts}

lemma refl (p : GraphParts) : p.KeepsProducers p := ⟨rfl, rfl, rfl, .refl _, rfl, fun _ => rfl⟩

lemma trans (hpq : p.KeepsProducers q) (hqr : q.KeepsProducers r) : p.KeepsProducers r where
  nodes := hqr.nodes.trans hpq.nodes
  initializers := hqr.initializers.trans hpq.initializers
  sparse := hqr.sparse.trans hpq.sparse
  inputs := hqr.inputs.trans hpq.inputs
  outputs := hqr.outputs.trans hpq.outputs
  producers name := (hqr.producers name).trans (hpq.producers name)

lemma namesUnique (h : p.KeepsProducers q) (hp : p.NamesUnique) : q.NamesUnique := by
  have hresults : q.presentResults = p.presentResults := by
    unfold presentResults
    rw [h.nodes]
  refine ⟨h.inputs.nodup hp.inputs, h.outputs ▸ hp.outputs, h.initializers ▸ hp.initializers,
    hresults ▸ hp.results, ?_⟩
  rw [hresults]
  intro name hname hheld
  rw [mem_holders_iff, h.sparse, h.initializers] at hheld
  refine hp.fresh name hname (mem_holders_iff.mpr ?_)
  exact hheld.imp_right (Or.imp_right fun hinput => h.inputs.subset hinput)

lemma dependsOn (h : p.KeepsProducers q) : q.DependsOn = p.DependsOn := by
  funext i j
  simp only [DependsOn, h.nodes, h.producers]

lemma resolve (h : p.KeepsProducers q) (hp : ∃ r, p.resolve = .ok r) :
    ∃ r, q.resolve = .ok r := by
  rw [exists_resolve_eq_ok_iff] at hp ⊢
  obtain ⟨⟨hnames, houtputs⟩, hacyclic⟩ := hp
  refine ⟨⟨?_, fun v hv => ?_⟩, ?_⟩
  · simpa only [h.nodes, h.producers] using hnames
  · have hname : v.name ∈ p.outputs.map ValueInfo.name :=
      h.outputs ▸ List.mem_map_of_mem hv
    obtain ⟨w, hw, hwv⟩ := List.mem_map.mp hname
    rw [h.producers, ← hwv]
    exact houtputs w hw
  · unfold Acyclic
    rw [h.dependsOn]
    exact hacyclic

end KeepsProducers

end GraphParts

namespace Graph

open GraphParts

/-- A constant outweighs an input of the same name, so that dropping the input changes nothing. -/
lemma normalizeInputs_keepsProducers (g : Graph) :
    g.toGraphParts.KeepsProducers g.normalizeInputs.toGraphParts where
  nodes := rfl
  initializers := rfl
  sparse := rfl
  inputs := List.filter_sublist.map _
  outputs := rfl
  producers name := by
    unfold firstProducer?
    change ((g.initializers.findIdx? _).map _).or _ = ((g.initializers.findIdx? _).map _).or _
    cases hfind : g.initializers.findIdx? fun t => t.name == name with
    | some i => rfl
    | none =>
      have hkept : (g.normalizeInputs.inputs.any fun v => v.name == name) =
          g.inputs.any fun v => v.name == name := by
        have hproper (v : ValueInfo) (hv : (v.name == name) = true) : g.isProperInput v = true := by
          have hnone := List.findIdx?_eq_none_iff.mp hfind
          simpa [isProperInput, beq_iff_eq.mp hv] using hnone
        rw [normalizeInputs, retainInputs, List.any_filter]
        refine List.any_congr rfl fun v => ?_
        cases hv : v.name == name with
        | true => rw [hproper v hv, Bool.true_and]
        | false => rw [Bool.and_false]
      rw [hkept]
      rfl

lemma input_not_constant_of_normalized {g : Graph} :
    ∀ v ∈ g.normalizeInputs.inputs, ∀ t ∈ g.initializers, t.name ≠ v.name := by
  intro v hv t ht heq
  have hproper := (List.mem_filter.mp hv).2
  simp only [isProperInput, Bool.not_eq_eq_eq_not, Bool.not_true, List.any_eq_false,
    beq_iff_eq] at hproper
  exact hproper t ht heq

lemma setType?_map_name {name : String} {type : TensorType} {values values' : List ValueInfo}
    (h : setType? name type values = some values') :
    values'.map ValueInfo.name = values.map ValueInfo.name := by
  induction values generalizing values' with
  | nil => simp [setType?] at h
  | cons v values ih =>
    unfold setType? at h
    split_ifs at h
    · obtain rfl := Option.some.inj h
      simp
    · obtain rfl := Option.some.inj h
      simp
    · obtain ⟨rest, hrest, rfl⟩ := Option.map_eq_some_iff.mp h
      simp [ih hrest]

lemma record_keepsProducers (g : Graph) (v : ValueInfo) :
    g.toGraphParts.KeepsProducers (g.record v).toGraphParts := by
  unfold record
  split_ifs
  · exact .refl _
  · split
    · rename_i outputs houtputs
      exact { KeepsProducers.refl g.toGraphParts with outputs := setType?_map_name houtputs }
    · split
      · exact { KeepsProducers.refl g.toGraphParts with }
      · exact { KeepsProducers.refl g.toGraphParts with }

lemma foldl_record_keepsProducers (g : Graph) (records : List ValueInfo) :
    g.toGraphParts.KeepsProducers (records.foldl record g).toGraphParts := by
  induction records generalizing g with
  | nil => exact .refl _
  | cons v records ih => exact (g.record_keepsProducers v).trans (ih (g.record v))

lemma propagate_keepsProducers {g g' : Graph} {rules : Registry} {opset : Int}
    {report : PropagationReport} (h : g.propagate rules opset = .ok (g', report)) :
    g.toGraphParts.KeepsProducers g'.toGraphParts := by
  obtain ⟨k, _, hk⟩ := map_eq_ok_iff.mp h
  rw [← (Prod.mk.inj hk).1]
  exact foldl_record_keepsProducers g _

end Graph

namespace Model

/-- The two ways in which types are propagated, or not. -/
lemma propagateIf_cases {m m' : Model} {s : Settings} {report? : Option PropagationReport}
    (h : m.propagateIf s = .ok (m', report?)) :
    (s.inferShapes = true ∧ ∃ g report,
        m.graph.propagate .builtin m.propagationOpset = .ok (g, report) ∧
          m' = { m with graph := g } ∧ report? = some report) ∨
      s.inferShapes = false ∧ m' = m ∧ report? = none := by
  unfold propagateIf at h
  cases hinfer : s.inferShapes with
  | true =>
    rw [if_pos hinfer] at h
    obtain ⟨⟨_, report⟩, hmodel, heq⟩ := map_eq_ok_iff.mp h
    obtain ⟨rfl, rfl⟩ := Prod.mk.inj heq
    obtain ⟨⟨g, _⟩, hgraph, heq⟩ := map_eq_ok_iff.mp hmodel
    obtain ⟨rfl, rfl⟩ := Prod.mk.inj heq
    exact .inl ⟨rfl, g, _, hgraph, rfl, rfl⟩
  | false =>
    rw [hinfer, if_neg Bool.false_ne_true] at h
    obtain ⟨rfl, rfl⟩ := Prod.mk.inj (Except.ok.inj h)
    exact .inr ⟨rfl, rfl, rfl⟩

lemma propagateIf_keeps {m m' : Model} {s : Settings} {report? : Option PropagationReport}
    (h : m.propagateIf s = .ok (m', report?)) :
    m'.irVersion = m.irVersion ∧ m'.opsets = m.opsets ∧
      m.graph.toGraphParts.KeepsProducers m'.graph.toGraphParts := by
  rcases propagateIf_cases h with ⟨_, g, _, hgraph, rfl, _⟩ | ⟨_, rfl, _⟩
  · exact ⟨rfl, rfl, Graph.propagate_keepsProducers hgraph⟩
  · exact ⟨rfl, rfl, .refl _⟩

/-- Of a model that has kept the producers of a valid one only the imports and the declarations of
constants have to be checked again. -/
lemma validate_iff_of_keepsProducers {m m' : Model} {range : VersionRange}
    (hm : m.validate range = .ok ())
    (hkeeps : m.graph.toGraphParts.KeepsProducers m'.graph.toGraphParts)
    (hopsets : m'.opsets = m.opsets) (hleast : range.least ≤ m'.irVersion)
    (hgreatest : m'.irVersion ≤ range.greatest) :
    m'.validate range = .ok () ↔ m'.OpsetsCover ∧ m'.ConstantsDeclared := by
  rw [validate_eq_ok_iff] at hm ⊢
  obtain ⟨hnames, hresolve, hnodes, himports, _⟩ := hm
  rw [checkOpsets_eq_ok_iff] at himports
  rw [checkOpsets_eq_ok_iff, checkVersion_eq_ok_iff, hkeeps.nodes, hopsets]
  constructor
  · rintro ⟨_, _, _, ⟨_, hcover⟩, _, _, hdeclared⟩
    exact ⟨hcover, hdeclared⟩
  · rintro ⟨hcover, hdeclared⟩
    exact ⟨hkeeps.namesUnique hnames, hkeeps.resolve hresolve, hnodes, ⟨himports.1, hcover⟩,
      hleast, hgreatest, hdeclared⟩

/-! ### Versions -/

lemma le_raiseVersion_iff {m : Model} {least version : Int64} :
    version ≤ (m.raiseVersion least).irVersion ↔ version ≤ m.irVersion ∨ version ≤ least := by
  unfold raiseVersion
  split_ifs with hlow
  · rw [Int64.lt_iff_toInt_lt] at hlow
    simp only [Int64.le_iff_toInt_le]
    omega
  · rw [Int64.lt_iff_toInt_lt] at hlow
    simp only [Int64.le_iff_toInt_le]
    omega

lemma raiseVersion_lt_iff {m : Model} {least version : Int64} :
    (m.raiseVersion least).irVersion < version ↔ m.irVersion < version ∧ least < version := by
  rw [← Int64.not_le, le_raiseVersion_iff, not_or, Int64.not_le, Int64.not_le]

lemma raiseVersion_le {m : Model} {least greatest : Int64} (hm : m.irVersion ≤ greatest)
    (hleast : least ≤ greatest) : (m.raiseVersion least).irVersion ≤ greatest := by
  unfold raiseVersion
  split_ifs
  · exact hleast
  · exact hm

end Model

lemma Settings.versions_of_check {s : Settings} (h : s.check = .ok ()) :
    1 ≤ s.leastVersion ∧ s.leastVersion ≤ s.greatestVersion := by
  unfold Settings.check at h
  split at h
  · simp at h
  · rename_i hbounds
    simpa [Int64.not_lt] using hbounds

namespace Model

/-- The imports of a valid model still suffice at a higher version, unless a model without any has
nodes. -/
lemma opsetsCover_iff_of_raised {m m' : Model} {least : Int64} (hm : m.OpsetsCover)
    (hopsets : m'.opsets = m.opsets) (hnodes : m'.graph.nodes = m.graph.nodes)
    (hversion : m'.irVersion = (m.raiseVersion least).irVersion) :
    m'.OpsetsCover ↔ m.graph.nodes = [] ∨ m.opsets ≠ [] ∨ least < opsetsRequiredVersion := by
  unfold OpsetsCover at hm ⊢
  rw [hopsets, hnodes, hversion, raiseVersion_lt_iff]
  constructor
  · rintro (⟨_, _, hleast⟩ | hcover)
    · exact .inr (.inr hleast)
    · by_cases hnone : m.opsets = []
      · left
        rw [List.eq_nil_iff_forall_not_mem]
        intro n hn
        obtain ⟨o, ho, _⟩ := hcover n hn
        simp [hnone] at ho
      · exact .inr (.inl hnone)
  · rintro (hnone | hsome | hleast)
    · exact .inr (by simp [hnone])
    · exact .inr (hm.resolve_left fun h => hsome h.1)
    · exact hm.imp_left fun h => ⟨h.1, h.2, hleast⟩

lemma constantsDeclared_iff_of_raised {m m' : Model} {least : Int64}
    (hinitializers : m'.graph.initializers = m.graph.initializers)
    (hinputs : ∀ v ∈ m'.graph.inputs, ∀ t ∈ m.graph.initializers, t.name ≠ v.name)
    (hversion : m'.irVersion = (m.raiseVersion least).irVersion) :
    m'.ConstantsDeclared ↔ m.graph.initializers = [] ∨
      undeclaredConstantsVersion ≤ m.irVersion ∨ undeclaredConstantsVersion ≤ least := by
  unfold ConstantsDeclared
  rw [hinitializers, hversion, le_raiseVersion_iff, or_comm]
  refine or_congr_left ⟨fun hdeclared => ?_, fun hnone => by simp [hnone]⟩
  rw [List.eq_nil_iff_forall_not_mem]
  intro t ht
  obtain ⟨v, hv, hname⟩ := hdeclared t ht
  exact hinputs v hv t ht hname.symm

/-- The model whose types a repair propagates. -/
def prepared (m : Model) (s : Settings) : Model :=
  { m with graph := m.graph.normalizeInputs }.raiseVersion s.leastVersion

lemma prepared_graph (m : Model) (s : Settings) :
    (m.prepared s).graph = m.graph.normalizeInputs := by
  unfold prepared raiseVersion
  split_ifs <;> rfl

lemma prepared_opsets (m : Model) (s : Settings) : (m.prepared s).opsets = m.opsets := by
  unfold prepared raiseVersion
  split_ifs <;> rfl

lemma prepared_irVersion (m : Model) (s : Settings) :
    (m.prepared s).irVersion = (m.raiseVersion s.leastVersion).irVersion := by
  unfold prepared raiseVersion
  split_ifs <;> rfl

lemma prepared_propagationOpset (m : Model) (s : Settings) :
    (m.prepared s).propagationOpset = m.propagationOpset := by
  unfold propagationOpset defaultOpset? opsetVersion?
  rw [prepared_opsets]

lemma propagateIf_prepared_eq_error_iff {m : Model} {s : Settings} {a : Abort} :
    (m.prepared s).propagateIf s = .error a ↔
      s.inferShapes = true ∧ m.graph.normalizeInputs.GivesUp m.propagationOpset a := by
  unfold propagateIf propagate
  rw [prepared_propagationOpset, prepared_graph]
  split_ifs with hinfer
  · rw [map_eq_error_iff, map_eq_error_iff, Graph.propagate_eq_error_iff, and_iff_right hinfer]
  · exact iff_of_false nofun fun h => hinfer h.1

lemma repair_eq_aborted_iff {m : Model} {s : Settings} {a : Abort} :
    m.repair s = .error (.aborted a) ↔ (m.prepared s).propagateIf s = .error a := by
  unfold repair
  simp only [bind_eq_error_iff, mapError_eq_error_iff]
  constructor
  · rintro (⟨a', hpropagate, heq⟩ | ⟨_, _, ⟨_, _, heq⟩ | ⟨_, _, hreport⟩⟩)
    · rwa [RepairError.aborted.inj heq] at hpropagate
    · cases heq
    · cases hreport
  · exact fun h => .inl ⟨a, h, rfl⟩

lemma repair_succeeds_iff_of_ok {m m' : Model} {s : Settings} {report? : Option PropagationReport}
    (h : (m.prepared s).propagateIf s = .ok (m', report?)) :
    (∃ r, m.repair s = .ok r) ↔ m'.validate s.versions = .ok () := by
  unfold prepared at h
  unfold repair
  dsimp only
  rw [h]
  cases hv : m'.validate s.versions with
  | error v => simp [hv, Except.mapError, bind, Except.bind]
  | ok _ => simp [hv, Except.mapError, bind, Except.bind, pure, Except.pure]

/-- A repair that succeeds: types are propagated, and the model that comes out is valid. -/
lemma repair_eq_ok_iff {m m' : Model} {s : Settings} {r : RepairReport} :
    m.repair s = .ok (m', r) ↔
      (m.prepared s).propagateIf s = .ok (m', r.propagation?) ∧ m'.validate s.versions = .ok () ∧
        r.inputsRemoved = m.graph.countConstantInputs ∧
        r.version = ⟨m.irVersion, (m.prepared s).irVersion⟩ := by
  unfold repair
  simp only [bind_eq_ok_iff, mapError_eq_ok_iff]
  constructor
  · rintro ⟨⟨m₁, report?⟩, hpropagate, ⟨⟩, hvalid, heq⟩
    obtain ⟨rfl, rfl⟩ := Prod.mk.inj (Except.ok.inj heq)
    exact ⟨hpropagate, hvalid, rfl, rfl⟩
  · rintro ⟨hpropagate, hvalid, hinputs, hversion⟩
    obtain ⟨inputsRemoved, version, report?⟩ := r
    dsimp only at hpropagate hinputs hversion
    subst hinputs hversion
    exact ⟨_, hpropagate, (), hvalid, rfl⟩

/-- What comes out of the propagation of a valid model is valid if operators are imported where they
have to be at the least version of the settings, and constants need not be declared. -/
lemma validate_iff_of_propagateIf {m m' : Model} {s : Settings} {report? : Option PropagationReport}
    (hs : s.check = .ok ()) (hm : m.validate s.versions = .ok ())
    (hpropagate : (m.prepared s).propagateIf s = .ok (m', report?)) :
    m'.validate s.versions = .ok () ↔
      (m.graph.nodes = [] ∨ m.opsets ≠ [] ∨ s.leastVersion < opsetsRequiredVersion) ∧
        (m.graph.initializers = [] ∨ undeclaredConstantsVersion ≤ m.irVersion ∨
          undeclaredConstantsVersion ≤ s.leastVersion) := by
  obtain ⟨hversion, hopsets, hpropagated⟩ := propagateIf_keeps hpropagate
  rw [prepared_irVersion] at hversion
  rw [prepared_opsets] at hopsets
  rw [prepared_graph] at hpropagated
  have hkeeps := m.graph.normalizeInputs_keepsProducers.trans hpropagated
  obtain ⟨_, _, _, himports, hrange⟩ := validate_eq_ok_iff.mp hm
  obtain ⟨hleast, hgreatest, _⟩ := checkVersion_eq_ok_iff.mp hrange
  have hleast' : s.versions.least ≤ m'.irVersion := by
    rw [hversion, le_raiseVersion_iff]
    exact .inl hleast
  have hgreatest' : m'.irVersion ≤ s.versions.greatest := by
    rw [hversion]
    exact raiseVersion_le hgreatest (Settings.versions_of_check hs).2
  have hinputs : ∀ v ∈ m'.graph.inputs, ∀ t ∈ m.graph.initializers, t.name ≠ v.name := by
    intro v hv t ht
    obtain ⟨w, hw, hwv⟩ := List.mem_map.mp (hpropagated.inputs.subset (List.mem_map_of_mem hv))
    exact hwv ▸ Graph.input_not_constant_of_normalized w hw t ht
  rw [validate_iff_of_keepsProducers hm hkeeps hopsets hleast' hgreatest',
    opsetsCover_iff_of_raised (checkOpsets_eq_ok_iff.mp himports).2 hopsets hkeeps.nodes hversion,
    constantsDeclared_iff_of_raised hkeeps.initializers hinputs hversion]

/-- Repairing a valid model is given up exactly where the propagation is, if there is to be one. It
succeeds if it is not given up and two conditions hold: operators are imported if they have to be at
the least version of the settings, and constants need not be declared, be it for the version of the
model or that of the settings. -/
theorem repair_succeeds_iff_of_valid {m : Model} {s : Settings} (hs : s.check = .ok ())
    (hm : m.validate s.versions = .ok ()) :
    (∀ a, m.repair s = .error (.aborted a) ↔
      s.inferShapes = true ∧ m.graph.normalizeInputs.GivesUp m.propagationOpset a) ∧
    ((∃ r, m.repair s = .ok r) ↔
      ¬(s.inferShapes = true ∧ ∃ a, m.graph.normalizeInputs.GivesUp m.propagationOpset a) ∧
        (m.graph.nodes = [] ∨ m.opsets ≠ [] ∨ s.leastVersion < opsetsRequiredVersion) ∧
        (m.graph.initializers = [] ∨ undeclaredConstantsVersion ≤ m.irVersion ∨
          undeclaredConstantsVersion ≤ s.leastVersion)) := by
  refine ⟨fun a => repair_eq_aborted_iff.trans propagateIf_prepared_eq_error_iff, ?_⟩
  cases hpropagate : (m.prepared s).propagateIf s with
  | error a =>
    have hgives := propagateIf_prepared_eq_error_iff.mp hpropagate
    have haborted := repair_eq_aborted_iff.mpr hpropagate
    refine iff_of_false ?_ fun h => h.1 ⟨hgives.1, a, hgives.2⟩
    rintro ⟨r, hr⟩
    cases haborted.symm.trans hr
  | ok result =>
    have hgoes : ¬(s.inferShapes = true ∧
        ∃ a, m.graph.normalizeInputs.GivesUp m.propagationOpset a) := by
      rintro ⟨hinfer, a, ha⟩
      cases hpropagate.symm.trans (propagateIf_prepared_eq_error_iff.mpr ⟨hinfer, ha⟩)
    rw [and_iff_right hgoes, repair_succeeds_iff_of_ok hpropagate]
    exact validate_iff_of_propagateIf hs hm hpropagate

/-- A model of a single node, at an old version. -/
def rectifier (opsets : List OpsetImport) : Model where
  irVersion := 2
  opsets
  graph := {
    name := "g"
    nodes := [{ op := "Relu", inputs := ["x"], outputs := ["y"] }]
    inputs := [{ name := "x", type := .of .float (.ofExtents [4]) }]
    outputs := [{ name := "y" }]
    producers := [("x", .input), ("y", .node 0 0)]
    order := [0] }

theorem repair_succeeds_on_rectifier :
    ({} : Settings).check = .ok () ∧
      (rectifier [⟨"", 13⟩]).validate ({} : Settings).versions = .ok () ∧
        ∃ r, (rectifier [⟨"", 13⟩]).repair {} = .ok r := by
  have hs : ({} : Settings).check = .ok () := rfl
  have hm : (rectifier [⟨"", 13⟩]).validate ({} : Settings).versions = .ok () := by decide +kernel
  refine ⟨hs, hm, ?_⟩
  refine (repair_succeeds_iff_of_valid hs hm).2.mpr
    ⟨?_, .inr (.inl (by simp [rectifier])), .inl rfl⟩
  rintro ⟨-, a, hgives⟩
  obtain ⟨n, hn, hop⟩ := hgives.exists_mem_abortingOps
  obtain rfl := List.mem_singleton.mp hn
  exact absurd hop (by decide)

/-- A model without imports is valid at an old version and no longer so once that is raised. -/
theorem repair_rejects_valid_rectifier :
    ¬∀ (s : Settings) (m : Model), s.check = .ok () → m.validate s.versions = .ok () →
      ∃ r, m.repair s = .ok r := by
  intro h
  have hm : (rectifier []).validate ({} : Settings).versions = .ok () := by decide +kernel
  have hrepair : (rectifier []).repair {} =
      .error (.invalid (.opset (.notImported "Relu" "ai.onnx"))) := by decide +kernel
  obtain ⟨r, hr⟩ := h {} (rectifier []) rfl hm
  rw [hrepair] at hr
  cases hr

end Model

end TensorGraph
