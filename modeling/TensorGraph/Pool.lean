import TensorGraph.Batch

/-!
# Pools

The jobs of a batch side by side. Each waits for one of a number of permits, keeps it for as long
as it is at work, and its result is collected at some time after it has ended. What goes on next is
not laid down: a run of a pool is any list of moves that are possible one after another.
-/

namespace TensorGraph

variable {σ τ α : Type}

/-- How a job ends: with a result of its own, or aborted. -/
inductive JobEnd (α : Type) where
  | returned (result : Except RepairError α)
  | aborted (abort : Abort)

/-- The result that is recorded; an aborted job is a failed one. -/
def JobEnd.result : JobEnd α → Except RepairError α
  | returned result => result
  | aborted abort => .error (.aborted abort)

/-- Work on a path, stage by stage, on something that all jobs share. -/
structure Job (σ τ α : Type) where
  start : Path → τ
  /-- What becomes of the shared thing, and the next stage or the end. -/
  step : σ → τ → σ × (τ ⊕ JobEnd α)

/-- A job that shares nothing and has one stage. -/
def Job.ofFunction (f : Path → JobEnd α) : Job Unit Path α where
  start := id
  step _ p := ((), .inr (f p))

/-- The jobs of a batch in the midst of their work. -/
structure Pool (σ τ α : Type) where
  shared : σ
  /-- Paths for which there is no task yet. -/
  unsubmitted : List Path
  /-- Tasks without a permit. -/
  waiting : List Path := []
  /-- Jobs at work, each with a permit, and their stages. -/
  running : List (Path × τ) := []
  /-- Results that nobody has asked for. -/
  ended : List (Path × Except RepairError α) := []
  collected : List (Path × Except RepairError α) := []

namespace Pool

def ofPaths (shared : σ) (paths : List Path) : Pool σ τ α := { shared, unsubmitted := paths }

/-- What may go on next. -/
inductive Move where
  /-- The next path is made a task. -/
  | submit
  /-- A waiting task takes a permit. -/
  | take (i : Nat)
  /-- A job at work goes through a stage; it gives its permit back if that was the last one. -/
  | work (i : Nat)
  | collect (i : Nat)
deriving DecidableEq, Repr

/-- How many jobs may be at work; at least one. -/
def permits (workers : Nat) : Nat := max workers 1

/-- The pool after a move, if the move is possible. -/
def move? (job : Job σ τ α) (workers : Nat) (s : Pool σ τ α) : Move → Option (Pool σ τ α)
  | .submit =>
    match s.unsubmitted with
    | [] => none
    | p :: rest => some { s with unsubmitted := rest, waiting := s.waiting ++ [p] }
  | .take i =>
    if s.running.length < permits workers then
      s.waiting[i]?.map fun p =>
        { s with waiting := s.waiting.eraseIdx i, running := s.running ++ [(p, job.start p)] }
    else none
  | .work i =>
    s.running[i]?.map fun (p, stage) =>
      match job.step s.shared stage with
      | (shared, .inl next) => { s with shared, running := s.running.set i (p, next) }
      | (shared, .inr last) =>
        { s with
          shared
          running := s.running.eraseIdx i
          ended := s.ended ++ [(p, last.result)] }
  | .collect i =>
    -- Results are asked for when all tasks are there.
    if s.unsubmitted.isEmpty then
      s.ended[i]?.map fun r =>
        { s with ended := s.ended.eraseIdx i, collected := s.collected ++ [r] }
    else none

/-- The pool after some moves, if each is possible when it is made. -/
def run? (job : Job σ τ α) (workers : Nat) : Pool σ τ α → List Move → Option (Pool σ τ α)
  | s, [] => some s
  | s, move :: moves => (s.move? job workers move).bind fun s' => run? job workers s' moves

/-- Whether all results are collected. -/
def isDone (s : Pool σ τ α) : Bool :=
  s.unsubmitted.isEmpty && s.waiting.isEmpty && s.running.isEmpty && s.ended.isEmpty

/-- What the pool returns when all results are collected. -/
def batch (s : Pool σ τ α) : Batch α := .ofResults s.collected

end Pool

/-- How far the repair of a file is. -/
inductive RepairStage where
  | reading (source : Path)
  | writing (source : Path) (plan : RepairPlan)

/-- The repair of a file in two stages: others may read and write between them. -/
def FileTree.repairJob (s : Settings) : Job FileTree RepairStage FileRepair where
  start := .reading
  step
    | t, .reading p =>
      match t.planRepair s p with
      | .ok plan => (t, .inl (.writing p plan))
      | .error e => (t, .inr (.returned (.error e)))
    | t, .writing p plan =>
      match t.carryOut plan with
      | .ok repaired =>
        let outcome := { source := p, written? := plan.write?.map Prod.fst, report := plan.report }
        (repaired, .inr (.returned (.ok outcome)))
      | .error e => (t, .inr (.returned (.error e)))

end TensorGraph
