import TensorGraph.Manifest
import TensorGraph.Proofs.RepairScope

/-!
# Manifests of repaired models

A repair drops the inputs that name constants and leaves the others alone. So the manifest entry of
a repaired model describes the first input of the original one that names no constant.
-/

namespace TensorGraph

/-- An image has four axes and as many entries along the second one as there are channels, or else
along the last one. Height and width are the two axes that remain, where they are numbers. -/
inductive Layout.Fits (shape? : Option Shape) : Layout → Option Nat → Option Nat → Prop
  | channelsFirst {n h w : Dim} (hshape : shape? = some ⟨[n, .known imageChannels, h, w]⟩) :
    Fits shape? .channelsFirst h.extent? w.extent?
  | channelsLast {n h w : Dim} (hshape : shape? = some ⟨[n, h, w, .known imageChannels]⟩)
    (hfirst : h ≠ .known imageChannels) : Fits shape? .channelsLast h.extent? w.extent?
  | unknown (hshape : ∀ n a b c, shape? = some ⟨[n, a, b, c]⟩ →
      a ≠ .known imageChannels ∧ c ≠ .known imageChannels) :
    Fits shape? .unknown none none

/-- A manifest entry describes an input, or that there is none. -/
structure ManifestEntry.Describes (e : ManifestEntry) (v? : Option ValueInfo) : Prop where
  input : e.input = v?.elim "" ValueInfo.name
  elem : e.elem? = v?.bind fun v => v.type.elem?
  layout : Layout.Fits (v?.bind fun v => v.type.shape?) e.layout e.height? e.width?

lemma Dim.is_iff {d : Dim} {n : Nat} : d.is n = true ↔ d = .known n := by
  cases d <;> simp [Dim.is, Dim.extent?]

lemma map_dims_eq_some_iff {shape? : Option Shape} {dims : List Dim} :
    shape?.map Shape.dims = some dims ↔ shape? = some ⟨dims⟩ := by
  rw [Option.map_eq_some_iff]
  exact ⟨fun ⟨_, hs, hdims⟩ => hdims ▸ hs, fun h => ⟨_, h, rfl⟩⟩

lemma fits_classify (shape? : Option Shape) :
    Layout.Fits shape? (classify shape?).1 (classify shape?).2.1 (classify shape?).2.2 := by
  unfold classify
  split
  · rename_i n a b c hdims
    have hshape := map_dims_eq_some_iff.mp hdims
    split_ifs with ha hc
    · rw [Dim.is_iff.mp ha] at hshape
      exact .channelsFirst hshape
    · rw [Dim.is_iff.mp hc] at hshape
      exact .channelsLast hshape fun h => ha (Dim.is_iff.mpr h)
    · refine .unknown fun n' a' b' c' h => ?_
      rw [hshape] at h
      cases h
      exact ⟨fun h => ha (Dim.is_iff.mpr h), fun h => hc (Dim.is_iff.mpr h)⟩
  · rename_i hnot
    exact .unknown fun n a b c h => absurd (map_dims_eq_some_iff.mpr h) (hnot n a b c)

/-- Only one layout fits. -/
lemma classify_of_fits {shape? : Option Shape} {layout : Layout} {height? width? : Option Nat}
    (h : layout.Fits shape? height? width?) : classify shape? = (layout, height?, width?) := by
  cases h with
  | channelsFirst hshape => simp [classify, hshape, Dim.is_iff]
  | channelsLast hshape hfirst => simp [classify, hshape, Dim.is_iff, hfirst]
  | unknown hshape =>
    unfold classify
    split
    · rename_i n a b c hdims
      obtain ⟨ha, hc⟩ := hshape n a b c (map_dims_eq_some_iff.mp hdims)
      rw [if_neg (mt Dim.is_iff.mp ha), if_neg (mt Dim.is_iff.mp hc)]
    · rfl

namespace Model

variable {m m' : Model} {s : Settings}

lemma describes_manifest (m : Model) : m.manifest.Describes m.graph.inputs.head? :=
  ⟨rfl, rfl, fits_classify _⟩

/-- The manifest entry of a repaired model describes the first input that names no constant, as it
is in the original model; it has the greater version and the first opset of that model. -/
theorem manifest_of_repair {r : RepairReport} (h : m.repair s = .ok (m', r)) :
    m'.manifest.Describes
        (m.graph.inputs.find? fun v => v.name ∉ m.graph.initializers.map Tensor.name) ∧
      m'.manifest.opset? = m.opsets.head?.map OpsetImport.version ∧
      m'.manifest.irVersion = max m.irVersion s.leastVersion := by
  obtain ⟨hpropagate, -⟩ := repair_eq_ok_iff.mp h
  obtain ⟨hmodel, -⟩ := propagateIf_redescribes hpropagate
  have hinputs : m'.graph.inputs =
      m.graph.inputs.filter fun v => v.name ∉ m.graph.initializers.map Tensor.name := by
    rw [propagateIf_inputs hpropagate, prepared_graph, Graph.normalizeInputs_inputs]
  have hopsets : m'.opsets = m.opsets := by
    rw [hmodel]
    exact prepared_opsets m s
  have hversion : m'.irVersion = max m.irVersion s.leastVersion := by
    rw [hmodel]
    exact (prepared_irVersion m s).trans (by rw [raiseVersion_eq])
  refine ⟨?_, congrArg (fun opsets => opsets.head?.map OpsetImport.version) hopsets, hversion⟩
  rw [← List.head?_filter, ← hinputs]
  exact m'.describes_manifest

/-- A model of an old version, with two constants before the image among its inputs. -/
def brightened : Model where
  irVersion := 3
  opsets := [⟨"", 13⟩, ⟨"ai.onnx.ml", 2⟩]
  graph := {
    nodes := [{ op := "Add", inputs := ["image", "b"], outputs := ["h"] },
              { op := "Mul", inputs := ["h", "w"], outputs := ["y"] }]
    inputs := [{ name := "w", type := .of .float (.ofExtents [1]) },
               { name := "b", type := .of .float (.ofExtents [1, 3, 1, 1]) },
               { name := "image",
                 type := .of .float ⟨[.param "N", .known 3, .known 224, .param "W"]⟩ }]
    outputs := [{ name := "y" }]
    initializers := [
      { name := "w", elem? := some .float, extents := [1], payload := .floats [0] },
      { name := "b", elem? := some .float, extents := [1, 3, 1, 1],
        payload := .floats [0, 0, 0] }]
    producers := [("w", .initializer 0), ("b", .initializer 1), ("image", .input),
      ("h", .node 0 0), ("y", .node 1 0)]
    order := [0, 1] }

theorem manifest_of_repair_on_brightened :
    ∃ m' r, brightened.repair {} = .ok (m', r) ∧ m'.manifest.input = "image" ∧
      m'.manifest.elem? = some .float ∧
      (m'.manifest.layout, m'.manifest.height?, m'.manifest.width?) =
        (.channelsFirst, some 224, none) ∧
      m'.manifest.opset? = some 13 ∧ m'.manifest.irVersion = 4 := by
  have hfacts : (brightened.repair {}).map (fun p => p.2.inputsRemoved) = .ok 2 := by decide +kernel
  obtain ⟨⟨m', r⟩, hrepair, -⟩ := map_eq_ok_iff.mp hfacts
  obtain ⟨hinput, hopset, hversion⟩ := manifest_of_repair hrepair
  have hfirst : (brightened.graph.inputs.find? fun v =>
      v.name ∉ brightened.graph.initializers.map Tensor.name) = some
        { name := "image"
          type := .of .float ⟨[.param "N", .known 3, .known 224, .param "W"]⟩ } := by
    decide
  rw [hfirst] at hinput
  exact ⟨m', r, hrepair, hinput.input, hinput.elem, (classify_of_fits hinput.layout).symm, hopset,
    hversion⟩

end Model

end TensorGraph
