import TensorGraph.Model.Basic

/-!
# Manifest entries

A short description of what a model expects as its first input: which axis order, which height and
width, which elements, and the versions of the model.
-/

namespace TensorGraph

/-- Where the channels of an image are among its four axes. -/
inductive Layout where
  | channelsFirst
  | channelsLast
  | unknown
deriving DecidableEq, Repr, Inhabited

def Layout.text : Layout → String
  | channelsFirst => "NCHW"
  | channelsLast => "NHWC"
  | unknown => "unknown"

def Layout.ofText? (s : String) : Option Layout :=
  [channelsFirst, channelsLast, unknown].find? fun l => l.text == s

/-- How many channels tell that an axis is that of the channels. -/
def imageChannels : Nat := 3

/-- What a model expects as its first input. -/
structure ManifestEntry where
  /-- The name of the first input; empty if there is none. -/
  input : String
  layout : Layout
  height? : Option Nat
  width? : Option Nat
  elem? : Option ElemType
  irVersion : Int64
  /-- The version of the first collection of operators that the model relies on. -/
  opset? : Option Int64
deriving DecidableEq, Repr, Inhabited

/-- The order of the axes of a shape, with height and width where they are numbers. An image has
four axes, and the second or else the last has as many entries as there are channels. -/
def classify (shape? : Option Shape) : Layout × Option Nat × Option Nat :=
  match shape?.map Shape.dims with
  | some [_, a, b, c] =>
    if a.is imageChannels then (.channelsFirst, b.extent?, c.extent?)
    else if c.is imageChannels then (.channelsLast, a.extent?, b.extent?)
    else (.unknown, none, none)
  | _ => (.unknown, none, none)

/-- The manifest entry of a model, read off its first declared input. -/
def Model.manifest (m : Model) : ManifestEntry :=
  let first? := m.graph.inputs.head?
  let (layout, height?, width?) := classify (first?.bind fun v => v.type.shape?)
  { input := first?.elim "" ValueInfo.name
    layout
    height?
    width?
    elem? := first?.bind fun v => v.type.elem?
    irVersion := m.irVersion
    opset? := m.opsets.head?.map OpsetImport.version }

end TensorGraph
