import Mathlib.Tactic.Lemma
import Mathlib.Tactic.SplitIfs
import TensorGraph.Graph.Order

/-!
# The search as a recursion

Visiting a position and all it depends on is a recursion along its dependencies: the stack holds the
path to the position, and the colours tell which positions are on the path and which have a place.
The recursion is written out here, and the search comes to the same.
-/

namespace TensorGraph.Order

/-- How many positions below `count` are not on a path. -/
def free (count : Nat) (path : List Nat) : Nat :=
  ((List.range count).filter fun n => n ∉ path).length

lemma free_cons_lt {count n : Nat} {path : List Nat} (hlt : n < count) (hfree : n ∉ path) :
    free count (n :: path) < free count path := by
  unfold free
  have hmem : n ∈ (List.range count).filter fun m => m ∉ path := by simp [hlt, hfree]
  have hfilter : ((List.range count).filter fun m => m ∉ n :: path) =
      ((List.range count).filter fun m => m ∉ path).filter fun m => m ≠ n := by
    rw [List.filter_filter]
    congr 1
    funext m
    simp
  rw [hfilter]
  refine Nat.lt_of_le_of_ne (List.length_filter_le _ _) fun heq => ?_
  have hall := List.length_filter_eq_length_iff.1 heq
  simpa using hall n hmem

mutual

/-- Places a position behind its dependencies, unless it has a place already. The path holds the
positions that wait for this one. -/
def place (dependencies : Array (List Dependency)) (path placed : List Nat) (n : Nat) :
    Except String (List Nat) :=
  if n ∈ placed then .ok placed
  else if h : n < dependencies.size ∧ n ∉ path then
    (placeAll dependencies (n :: path) placed dependencies[n]).map fun placed => placed ++ [n]
  else .ok placed
termination_by (free dependencies.size path, 0)
decreasing_by
  exact .left _ _ (free_cons_lt h.1 h.2)

/-- Places all of a list of dependencies; one on the path closes a cycle. -/
def placeAll (dependencies : Array (List Dependency)) (path placed : List Nat) :
    List Dependency → Except String (List Nat)
  | [] => .ok placed
  | (n, value) :: rest =>
    if n ∈ path then .error value
    else
      match place dependencies path placed n with
      | .ok placed => placeAll dependencies path placed rest
      | .error value => .error value
termination_by rest => (free dependencies.size path, rest.length + 1)
decreasing_by
  · exact .right _ (by simp)
  · exact .right _ (by simp)

end

/-- Orders all positions, or names the value that closes a cycle. -/
def sort (dependencies : Array (List Dependency)) : Except String (List Nat) :=
  (List.range dependencies.size).foldlM (place dependencies []) []

/-- All dependencies are positions themselves. -/
def InRange (dependencies : Array (List Dependency)) : Prop :=
  ∀ (n : Nat) (d : Dependency), d ∈ dependencies[n]?.getD [] → d.1 < dependencies.size

/-! ### Colours -/

/-- The colours of all positions: those on the path are being visited, and those placed are done. -/
def colouring (count : Nat) (path placed : List Nat) : List Colour :=
  (List.range count).map fun n =>
    if n ∈ path then .visiting else if n ∈ placed then .done else .unvisited

variable {count n : Nat} {path placed : List Nat}

lemma getElem?_colouring (hn : n < count) :
    (colouring count path placed)[n]? =
      some (if n ∈ path then .visiting else if n ∈ placed then .done else .unvisited) := by
  simp [colouring, hn]

lemma colouring_set_visiting (count n : Nat) (path placed : List Nat) :
    (colouring count path placed).set n .visiting = colouring count (n :: path) placed := by
  refine List.ext_getElem? fun m => ?_
  by_cases hm : m < count
  · rw [List.getElem?_set, getElem?_colouring hm, getElem?_colouring hm]
    by_cases heq : n = m
    · simp [heq, colouring, hm]
    · simp [heq, Ne.symm heq]
  · simp [colouring, hm]

lemma colouring_set_done (hn : n ∉ path) :
    (colouring count (n :: path) placed).set n .done = colouring count path (placed ++ [n]) := by
  refine List.ext_getElem? fun m => ?_
  by_cases hm : m < count
  · rw [List.getElem?_set, getElem?_colouring hm, getElem?_colouring hm]
    by_cases heq : n = m
    · subst heq
      simp [colouring, hm, hn]
    · simp [heq, Ne.symm heq]
  · simp [colouring, hm]

lemma colouring_nil (count : Nat) : colouring count [] [] = List.replicate count .unvisited := by
  simp [colouring, List.map_const']

/-! ### One step of the search -/

namespace Search

variable {dependencies : Array (List Dependency)} {next : Nat} {stack : List (Nat × Nat)}

/-- The search between two of its steps, where these positions are on the path and have a place. -/
def visiting (dependencies : Array (List Dependency)) (path placed : List Nat)
    (stack : List (Nat × Nat)) : Search where
  colours := colouring dependencies.size path placed
  order := placed
  stack

lemma finish_eq_of_step {s s' : Search} (h : step dependencies s = .ok (some s')) :
    finish dependencies s = finish dependencies s' := by
  rw [finish]
  split
  · rename_i hstep
    rw [Option.some.inj (Except.ok.inj (h.symm.trans hstep))]
  · rename_i hstep
    cases h.symm.trans hstep
  · rename_i hstep
    cases h.symm.trans hstep

lemma finish_eq_error {s : Search} {value : String} (h : step dependencies s = .error value) :
    finish dependencies s = .error value := by
  rw [finish]
  split
  · rename_i hstep
    cases h.symm.trans hstep
  · rename_i hstep
    cases h.symm.trans hstep
  · rename_i hstep
    rw [Except.error.inj (h.symm.trans hstep)]

lemma finish_idle (path placed : List Nat) :
    finish dependencies (visiting dependencies path placed []) =
      .ok (visiting dependencies path placed []) := by
  rw [finish]
  rfl

lemma step_visiting {value : String} {m : Nat}
    (hnext : (dependencies[n]?.getD [])[next]? = some (m, value)) (hm : m < dependencies.size) :
    step dependencies (visiting dependencies path placed ((n, next) :: stack)) =
      if m ∈ path then .error value
      else if m ∈ placed then
        .ok (some (visiting dependencies path placed ((n, next + 1) :: stack)))
      else
        .ok (some (visiting dependencies (m :: path) placed
          ((m, 0) :: (n, next + 1) :: stack))) := by
  unfold step visiting
  simp only [hnext, getElem?_colouring hm, colouring_set_visiting]
  split_ifs <;> rfl

lemma step_visited (hnext : (dependencies[n]?.getD [])[next]? = none) (hn : n ∉ path) :
    step dependencies (visiting dependencies (n :: path) placed ((n, next) :: stack)) =
      .ok (some (visiting dependencies path (placed ++ [n]) stack)) := by
  unfold step visiting
  simp only [hnext, colouring_set_done hn]

/-! ### Runs of the search -/

/-- The search goes on with the stack once a recursion has come to its end. -/
def resume (dependencies : Array (List Dependency)) (path : List Nat) (stack : List (Nat × Nat))
    (x : Except String (List Nat)) : Except String Search :=
  x >>= fun placed => finish dependencies (visiting dependencies path placed stack)

/-- A dependency that is not on the path is placed, if it is visited as it is placed. -/
lemma finish_eq_resume_place {value : String} {m : Nat}
    (hnext : (dependencies[n]?.getD [])[next]? = some (m, value)) (hm : m < dependencies.size)
    (hpath : m ∉ path)
    (hvisit : m ∉ placed →
      finish dependencies (visiting dependencies (m :: path) placed
        ((m, 0) :: (n, next + 1) :: stack)) =
          resume dependencies path ((n, next + 1) :: stack) (place dependencies path placed m)) :
    finish dependencies (visiting dependencies path placed ((n, next) :: stack)) =
      resume dependencies path ((n, next + 1) :: stack) (place dependencies path placed m) := by
  by_cases hplaced : m ∈ placed
  · have hstep : step dependencies (visiting dependencies path placed ((n, next) :: stack)) =
        .ok (some (visiting dependencies path placed ((n, next + 1) :: stack))) := by
      rw [step_visiting hnext hm, if_neg hpath, if_pos hplaced]
    rw [finish_eq_of_step hstep, place, if_pos hplaced]
    rfl
  · have hstep : step dependencies (visiting dependencies path placed ((n, next) :: stack)) =
        .ok (some (visiting dependencies (m :: path) placed
          ((m, 0) :: (n, next + 1) :: stack))) := by
      rw [step_visiting hnext hm, if_neg hpath, if_neg hplaced]
    rw [finish_eq_of_step hstep, hvisit hplaced]

lemma head_of_drop {ds rest : List Dependency} {next : Nat} {d : Dependency}
    (h : ds.drop next = d :: rest) : ds[next]? = some d ∧ ds.drop (next + 1) = rest := by
  constructor
  · rw [← List.head?_drop, h, List.head?_cons]
  · rw [← List.tail_drop, h, List.tail_cons]

/-- A position that comes onto the path is visited as it is placed, and so are the dependencies that
were not looked at yet. -/
lemma finish_eq_resume (hrange : InRange dependencies) :
    (∀ (path placed : List Nat) (n : Nat) (stack : List (Nat × Nat)),
      n < dependencies.size → n ∉ path → n ∉ placed →
      finish dependencies (visiting dependencies (n :: path) placed ((n, 0) :: stack)) =
        resume dependencies path stack (place dependencies path placed n)) ∧
    (∀ (path placed : List Nat) (ds : List Dependency) (n next : Nat) (stack : List (Nat × Nat)),
      (dependencies[n]?.getD []).drop next = ds →
      finish dependencies (visiting dependencies path placed ((n, next) :: stack)) =
        resume dependencies path ((n, next + ds.length) :: stack)
          (placeAll dependencies path placed ds)) := by
  -- the induction that the two recursions share; each step of the search is one of their branches
  apply place.mutual_induct
  case case1 => exact fun path placed n hmem stack _ _ hplaced => absurd hmem hplaced
  case case2 =>
    intro path placed n hnew hn ih stack _ _ _
    have hds : dependencies[n]?.getD [] = dependencies[n] := by
      rw [Array.getElem?_eq_getElem hn.1, Option.getD_some]
    rw [ih n 0 stack hds, place, if_neg hnew, dif_pos hn]
    cases placeAll dependencies (n :: path) placed dependencies[n] with
    | error value => rfl
    | ok placed' =>
      refine finish_eq_of_step (step_visited ?_ hn.2)
      simp [hds]
  case case3 => exact fun path placed n _ hn stack hlt hpath _ => absurd ⟨hlt, hpath⟩ hn
  case case4 =>
    intro path placed n next stack _
    rw [placeAll]
    rfl
  case case5 =>
    intro path placed m value rest hpath n next stack hds
    obtain ⟨hnext, -⟩ := head_of_drop hds
    have hm := hrange n (m, value) (List.mem_of_getElem? hnext)
    have hstep : step dependencies (visiting dependencies path placed ((n, next) :: stack)) =
        .error value := by
      rw [step_visiting hnext hm, if_pos hpath]
    rw [finish_eq_error hstep, placeAll, if_pos hpath]
    rfl
  case case6 =>
    intro path placed m value rest hpath middle hplace ihplace ihrest n next stack hds
    obtain ⟨hnext, hrest⟩ := head_of_drop hds
    have hm := hrange n (m, value) (List.mem_of_getElem? hnext)
    rw [finish_eq_resume_place hnext hm hpath (ihplace _ hm hpath), placeAll, if_neg hpath, hplace,
      List.length_cons, Nat.add_comm rest.length, ← Nat.add_assoc]
    exact ihrest n (next + 1) stack hrest
  case case7 =>
    intro path placed m value rest hpath value' hplace ihplace n next stack hds
    obtain ⟨hnext, -⟩ := head_of_drop hds
    have hm := hrange n (m, value) (List.mem_of_getElem? hnext)
    rw [finish_eq_resume_place hnext hm hpath (ihplace _ hm hpath), placeAll, if_neg hpath, hplace]
    rfl

lemma start_eq (hrange : InRange dependencies) (hn : n < dependencies.size) :
    start dependencies (visiting dependencies [] placed []) n =
      (place dependencies [] placed n).map fun placed => visiting dependencies [] placed [] := by
  unfold start
  simp only [visiting, getElem?_colouring hn, colouring_set_visiting, List.not_mem_nil, if_false]
  by_cases hplaced : n ∈ placed
  · rw [if_pos hplaced, if_neg (by decide), place, if_pos hplaced]
    rfl
  · rw [if_neg hplaced, if_pos rfl]
    refine ((finish_eq_resume hrange).1 [] placed n [] hn List.not_mem_nil hplaced).trans ?_
    unfold resume
    cases place dependencies [] placed n with
    | error value => rfl
    | ok placed' => exact finish_idle [] placed'

end Search

/-- Where all dependencies are positions, the search comes to the same as the recursion. -/
lemma search_eq_sort (hrange : InRange dependencies) :
    search dependencies = sort dependencies := by
  have hstart (positions : List Nat) (hpositions : ∀ n ∈ positions, n < dependencies.size) :
      ∀ placed : List Nat,
        positions.foldlM (Search.start dependencies) (Search.visiting dependencies [] placed []) =
          (positions.foldlM (place dependencies []) placed).map fun placed =>
            Search.visiting dependencies [] placed [] := by
    induction positions with
    | nil => exact fun _ => rfl
    | cons n positions ih =>
      intro placed
      rw [List.forall_mem_cons] at hpositions
      rw [List.foldlM_cons, List.foldlM_cons, Search.start_eq hrange hpositions.1]
      cases place dependencies [] placed n with
      | error value => rfl
      | ok placed' => exact ih hpositions.2 placed'
  have hinitial : Search.initial dependencies = Search.visiting dependencies [] [] [] := by
    rw [Search.initial, Search.visiting, colouring_nil]
  unfold search sort
  rw [hinitial, hstart _ fun n hn => List.mem_range.mp hn]
  cases (List.range dependencies.size).foldlM (place dependencies []) [] <;> rfl

end TensorGraph.Order
