import TensorGraph.Proofs.Complaints
import TensorGraph.Proofs.ValidModels
import TensorGraph.Propagation

/-!
# Operands that rules need

Signatures say how many operands an operator has at least, and rules ask for operands by their
positions; neither knows of the other. They agree: all operands that a built-in rule cannot do
without are ones that the signature of the operator requires, and none of them may be left out. So
no built-in rule misses an operand of a node that passed the checks.
-/

namespace TensorGraph

/-- A context has a view of each operand that its node names, and of no other. -/
def Context.Covers (c : Context) : Prop := ∀ i, c.has i = (c.node.input? i).isSome

/-- What propagation shows to a rule covers the node. -/
lemma Knowledge.covers_operands (k : Knowledge) (g : Graph)
    (declared : List (String × TensorType)) (n : Node) (opset : Int) :
    Context.Covers { node := n, operands := n.inputs.map (k.operand? g declared), opset } := by
  intro i
  unfold Context.has Context.operand? Node.input?
  rw [List.getElem?_map]
  cases n.inputs[i]? with
  | none => rfl
  | some name =>
    by_cases hempty : name.isEmpty = true
    · simp [Knowledge.operand?, hempty]
    · simp [Knowledge.operand?, hempty]

namespace Signature

lemma mem_of_find? {op : String} {s : Signature} (h : find? op = some s) :
    s ∈ all ∧ s.op = op :=
  ⟨List.mem_of_find?_eq_some h, by simpa using List.find?_some h⟩

lemma Fits.names {s : Signature} {n : Node} (h : s.Fits n) {i : Nat} (hi : i < s.inputs.least)
    (hneeded : i ∉ s.optionalInputs) : (n.input? i).isSome := by
  have hlt : i < n.inputs.length := Nat.lt_of_lt_of_le hi h.inputs.atLeast
  have hfilled : n.inputs[i] ≠ "" :=
    h.inputs.filled i _ hi hneeded (List.getElem?_eq_getElem hlt)
  simp [Node.input?, List.getElem?_eq_getElem hlt, hfilled]

lemma requires_needed_or_no_rule : ∀ s ∈ all,
    (Registry.operandsNeeded s.op ≤ s.inputs.least ∧
      ∀ i < Registry.operandsNeeded s.op, i ∉ s.optionalInputs) ∨
        Registry.builtin.rule? s.op = none := by
  decide +kernel

end Signature

lemma Node.WellFormed.names_needed {n : Node} (h : n.WellFormed)
    (hdomain : n.isDefaultDomain = true) {s : Signature} (hs : Signature.find? n.op = some s)
    {rule : Rule} (hrule : Registry.builtin.rule? n.op = some rule) :
    ∀ i < Registry.operandsNeeded n.op, (n.input? i).isSome := by
  obtain ⟨hmem, hop⟩ := Signature.mem_of_find? hs
  rw [← hop] at hrule ⊢
  intro i hi
  rcases Signature.requires_needed_or_no_rule s hmem with ⟨hleast, hoptional⟩ | hnone
  · exact (h.signature hdomain s hs).names (Nat.lt_of_lt_of_le hi hleast) (hoptional i hi)
  · rw [hnone] at hrule
    cases hrule

namespace Model

/-- No built-in rule misses an operand of a node that has a signature and belongs to a valid model,
at any version of the operators and whatever is known about the operands. In particular it misses
none in the midst of a propagation. -/
theorem builtin_finds_operands {m : Model} {range : VersionRange}
    (hvalid : m.validate range = .ok ()) {n : Node} (hn : n ∈ m.graph.nodes)
    (hdomain : n.isDefaultDomain = true) {s : Signature} (hs : Signature.find? n.op = some s)
    {rule : Rule} (hrule : Registry.builtin.rule? n.op = some rule) :
    (∀ c : Context, c.node = n → c.Covers → ∀ i, rule.infer c ≠ .error (.missingInput i)) ∧
      ∀ k g declared opset i,
        askRule .builtin
          { node := n, operands := n.inputs.map (Knowledge.operand? k g declared), opset } ≠
            .error (.missingInput i) := by
  obtain ⟨_, _, hnodes, _, _⟩ := validate_eq_ok_iff.mp hvalid
  have hformed := GraphParts.checkNode_eq_ok_iff.mp (hnodes n hn)
  have hfinds (c : Context) (hc : c.node = n) (hcovers : c.Covers) (i : Nat) :
      rule.infer c ≠ .error (.missingInput i) := by
    intro hmissing
    obtain ⟨hi, hnone⟩ := Registry.missing_of_builtin hrule c _ hmissing i rfl
    have hhas : c.has i = true := by
      rw [hcovers i, hc]
      exact hformed.names_needed hdomain hs hrule i hi
    rw [Context.has, hnone] at hhas
    cases hhas
  refine ⟨hfinds, fun k g declared opset i hmissing => ?_⟩
  unfold askRule at hmissing
  simp only [hdomain, hrule, Bool.not_true, Bool.false_eq_true, if_false] at hmissing
  rw [map_eq_error_iff] at hmissing
  exact hfinds _ rfl (k.covers_operands g declared n opset) i hmissing

/-- A slice with steps but without a list of axes: an operand is left out before another one. -/
def stride : Node where
  op := "Slice"
  inputs := ["x", "starts", "stops", "", "steps"]
  outputs := ["y"]

/-- A model that takes a slice of an input between bounds that are inputs too. -/
def strider : Model where
  irVersion := 8
  opsets := [⟨"", 13⟩]
  graph := {
    name := "g"
    nodes := [stride]
    inputs := [{ name := "x", type := .of .float (.ofExtents [4]) }, { name := "starts" },
      { name := "stops" }, { name := "steps" }]
    outputs := [{ name := "y" }]
    producers := [("x", .input), ("starts", .input), ("stops", .input), ("steps", .input),
      ("y", .node 0 0)]
    order := [0] }

theorem builtin_finds_operands_of_stride :
    strider.validate {} = .ok () ∧ ∃ rule, Registry.builtin.rule? "Slice" = some rule ∧
      ∀ (x : Operand) (opset : Int) (i : Nat),
        rule.infer { node := stride, operands := [some x, some x, some x, none, some x], opset } ≠
          .error (.missingInput i) := by
  have hvalid : strider.validate {} = .ok () := by decide +kernel
  have hfinds := builtin_finds_operands hvalid (n := stride) (List.mem_singleton.mpr rfl) rfl
    (s := { op := "Slice", inputs := .between 1 5 }) rfl rfl
  refine ⟨hvalid, _, rfl, fun x opset => hfinds.1 _ rfl fun i => ?_⟩
  rcases i with _ | _ | _ | _ | _ | i <;> rfl

end Model

end TensorGraph
