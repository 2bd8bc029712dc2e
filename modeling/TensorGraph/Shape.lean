import TensorGraph.Dim

/-!
# Shapes

A shape is the list of a tensor's extents. Its length, the rank, is always known; a tensor of
unknown rank has no shape at all. Extents count machine words, so a product of extents is known
only below `wordLimit`.
-/

namespace TensorGraph

/-- Extents and element counts are below this number. -/
def wordLimit : Nat := 0x10000000000000000

/-- A known number of extents, each of them known or not. -/
structure Shape where
  dims : List Dim
deriving DecidableEq, Repr, Inhabited

/-- Why shapes do not fit together, or an axis is none of a shape. -/
inductive ShapeError where
  | incompatible (op : String) (lhs rhs : Shape)
  | axisOutOfRange (axis : Int) (rank : Nat)
deriving DecidableEq, Repr

/-- The product of some extents, unless it reaches `wordLimit` on the way. -/
def checkedProduct (extents : List Nat) : Option Nat :=
  extents.foldlM (fun acc n => if acc * n < wordLimit then some (acc * n) else none) 1

/-- Resolves an axis against a rank: a negative one counts from the end. -/
def resolveAxis (axis : Int) (rank : Nat) : Except ShapeError Nat :=
  let position := if axis < 0 then axis + rank else axis
  if 0 ≤ position ∧ position < rank then .ok position.toNat
  else .error (.axisOutOfRange axis rank)

namespace Shape

def ofExtents (extents : List Nat) : Shape := ⟨extents.map Dim.known⟩

def scalar : Shape := ⟨[]⟩

/-- A shape of which only the rank is known. -/
def ofRank (rank : Nat) : Shape := ⟨List.replicate rank .unknown⟩

def rank (s : Shape) : Nat := s.dims.length

/-- All extents, if they are numbers. -/
def extents? (s : Shape) : Option (List Nat) := s.dims.mapM Dim.extent?

def isFullyKnown (s : Shape) : Bool := s.dims.all Dim.isKnown

/-- The number of elements, if all extents are numbers and it is a machine word. -/
def numElements? (s : Shape) : Option Nat := s.extents?.bind checkedProduct

def resolveAxis (s : Shape) (axis : Int) : Except ShapeError Nat :=
  TensorGraph.resolveAxis axis s.rank

/-- The extents, aligned at the right end of a longer shape by ones in front. -/
def padded (s : Shape) (rank : Nat) : List Dim :=
  List.replicate (rank - s.rank) (.known 1) ++ s.dims

/-- Aligns two shapes at the right and broadcasts them position by position. -/
def broadcast (a b : Shape) : Except ShapeError Shape :=
  let rank := max a.rank b.rank
  match (List.zip (a.padded rank) (b.padded rank)).mapM fun (x, y) => x.broadcast y with
  | some dims => .ok ⟨dims⟩
  | none => .error (.incompatible "broadcast" a b)

/-- Broadcasts any number of shapes, from a scalar on. -/
def broadcastAll (shapes : List Shape) : Except ShapeError Shape :=
  shapes.foldlM broadcast scalar

/-- Combines two descriptions of the shape of one value. -/
def merge (a b : Shape) : Except ShapeError Shape :=
  if a.rank ≠ b.rank then .error (.incompatible "merge" a b)
  else
    match (List.zip a.dims b.dims).mapM fun (x, y) => x.merge y with
    | some dims => .ok ⟨dims⟩
    | none => .error (.incompatible "merge" a b)

def text (s : Shape) : String := "[" ++ ", ".intercalate (s.dims.map Dim.text) ++ "]"

end Shape

def ShapeError.message : ShapeError → String
  | .incompatible op lhs rhs => s!"incompatible shapes for {op}: {lhs.text} vs {rhs.text}"
  | .axisOutOfRange axis rank => s!"axis {axis} out of range for rank {rank}"

end TensorGraph
