/-!
# Dependency order

Positions are ordered such that each comes after the positions it depends on. The search starts at
the positions by ascending number and goes through the dependencies of each as they are listed; a
position is placed once all its dependencies are. A dependency on a position that is still being
visited closes a cycle, which is reported under the name of the value that closes it.
-/

namespace TensorGraph.Order

/-- A position to come first, and the value that is taken from there. -/
abbrev Dependency := Nat × String

/-- How far the search is with a position. -/
inductive Colour where
  | unvisited
  | visiting
  | done
deriving DecidableEq, Repr

/-- A search between two of its steps. -/
structure Search where
  colours : List Colour
  /-- The positions that have their place. -/
  order : List Nat := []
  /-- The positions being visited, the latest first, each with the number of its dependencies that
  were looked at. -/
  stack : List (Nat × Nat) := []
deriving DecidableEq, Repr

namespace Search

variable (dependencies : Array (List Dependency))

/-- No position was visited. -/
def initial : Search where
  colours := List.replicate dependencies.size .unvisited

/-- Looks at the next dependency of the position visited last; behind the last one, the position
gets its place. Nothing is left to do if nothing is being visited. -/
def step (s : Search) : Except String (Option Search) :=
  match s.stack with
  | [] => .ok none
  | (n, next) :: stack =>
    match (dependencies[n]?.getD [])[next]? with
    | some (dependency, value) =>
      match s.colours[dependency]? with
      | some .unvisited =>
        .ok (some { s with
          colours := s.colours.set dependency .visiting
          stack := (dependency, 0) :: (n, next + 1) :: stack })
      | some .visiting => .error value
      | _ => .ok (some { s with stack := (n, next + 1) :: stack })
    | none =>
      .ok (some { colours := s.colours.set n .done, order := s.order ++ [n], stack })

/-- The number of steps at a position from one of its dependencies on: one for each dependency, and
one to place the position. -/
def stepsAt (n next : Nat) : Nat := ((dependencies[n]?.getD []).length - next) + 1

/-- The number of steps at positions that were not visited, the first one of which is `n`. -/
def unvisitedSteps (n : Nat) : List Colour → Nat
  | [] => 0
  | c :: rest =>
    (if c = .unvisited then stepsAt dependencies n 0 else 0) + unvisitedSteps (n + 1) rest

/-- The number of steps at positions that are being visited. -/
def visitingSteps : List (Nat × Nat) → Nat
  | [] => 0
  | (n, next) :: rest => stepsAt dependencies n next + visitingSteps rest

/-- How many steps are left. -/
def stepsLeft (s : Search) : Nat :=
  unvisitedSteps dependencies 0 s.colours + visitingSteps dependencies s.stack

theorem unvisitedSteps_visit {colours : List Colour} {n k : Nat}
    (h : colours[k]? = some .unvisited) :
    unvisitedSteps dependencies n (colours.set k .visiting) + stepsAt dependencies (n + k) 0 =
      unvisitedSteps dependencies n colours := by
  induction colours generalizing n k with
  | nil => cases h
  | cons c rest ih =>
    cases k with
    | zero =>
      obtain rfl : c = .unvisited := by simpa using h
      simp [unvisitedSteps, Nat.add_comm]
    | succ k =>
      have hrest := ih (n := n + 1) (k := k) (by simpa using h)
      have hposition : n + 1 + k = n + (k + 1) := by omega
      rw [hposition] at hrest
      simp only [List.set_cons_succ, unvisitedSteps]
      omega

theorem unvisitedSteps_place (colours : List Colour) (n k : Nat) :
    unvisitedSteps dependencies n (colours.set k .done) ≤
      unvisitedSteps dependencies n colours := by
  induction colours generalizing n k with
  | nil => exact Nat.le_refl _
  | cons c rest ih =>
    cases k with
    | zero => simp [unvisitedSteps]
    | succ k => simpa [unvisitedSteps] using ih (n + 1) k

/-- A step leaves fewer steps. -/
theorem stepsLeft_lt_of_step {s s' : Search} (h : step dependencies s = .ok (some s')) :
    stepsLeft dependencies s' < stepsLeft dependencies s := by
  unfold step at h
  split at h
  · cases h
  · rename_i n next stack hstack
    split at h
    · rename_i dependency value hnext
      have hlt := (List.getElem?_eq_some_iff.mp hnext).1
      split at h
      · rename_i hcolour
        obtain rfl := Option.some.inj (Except.ok.inj h)
        have hvisit := unvisitedSteps_visit dependencies (n := 0) hcolour
        simp only [stepsLeft, visitingSteps, stepsAt, hstack, Nat.zero_add] at hvisit ⊢
        omega
      · cases h
      · obtain rfl := Option.some.inj (Except.ok.inj h)
        simp only [stepsLeft, visitingSteps, stepsAt, hstack]
        omega
    · obtain rfl := Option.some.inj (Except.ok.inj h)
      have hplace := unvisitedSteps_place dependencies s.colours 0 n
      simp only [stepsLeft, visitingSteps, stepsAt, hstack]
      omega

/-- Goes on until nothing is being visited. -/
def finish (s : Search) : Except String Search :=
  match _h : step dependencies s with
  | .ok (some s') => finish s'
  | .ok none => .ok s
  | .error value => .error value
termination_by stepsLeft dependencies s
decreasing_by exact stepsLeft_lt_of_step dependencies _h

/-- Visits a position with everything it depends on, unless it was visited before. -/
def start (s : Search) (n : Nat) : Except String Search :=
  if s.colours[n]? = some .unvisited then
    finish dependencies { s with
      colours := s.colours.set n .visiting
      stack := (n, 0) :: s.stack }
  else .ok s

end Search

/-- Orders all positions, or names the value that closes a cycle. -/
def search (dependencies : Array (List Dependency)) : Except String (List Nat) :=
  ((List.range dependencies.size).foldlM (Search.start dependencies)
    (Search.initial dependencies)).map Search.order

end TensorGraph.Order
