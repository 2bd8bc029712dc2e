import TensorGraph.Proofs.Pool.Runs

/-!
# Pools of independent jobs

A pool of jobs that share nothing and have one stage comes to its end whatever it does, and what it
then gives is the batch of the jobs one after another.
-/

namespace TensorGraph.Pool

variable {σ τ α : Type} {workers : Nat}

lemma isDone_iff {s : Pool σ τ α} :
    s.isDone = true ↔ s.unsubmitted = [] ∧ s.waiting = [] ∧ s.running = [] ∧ s.ended = [] := by
  simp [isDone, and_assoc]

lemma account_of_isDone {β : Type} {ofPath : Path → β} {ofStage : Path → τ → β}
    {ofResult : Path → Except RepairError α → β} {s : Pool σ τ α} (hdone : s.isDone = true) :
    s.account ofPath ofStage ofResult = s.collected.map fun x => ofResult x.1 x.2 := by
  obtain ⟨hunsubmitted, hwaiting, hrunning, hended⟩ := isDone_iff.mp hdone
  simp [account, hunsubmitted, hwaiting, hrunning, hended]

lemma permits_pos (workers : Nat) : 0 < permits workers :=
  Nat.lt_of_lt_of_le Nat.zero_lt_one (Nat.le_max_right workers 1)

/-- A pool that is not done can go on: there is always a permit for the last tasks. -/
lemma exists_move_of_not_isDone (job : Job σ τ α) {s : Pool σ τ α} (hdone : s.isDone = false) :
    ∃ move, (s.move? job workers move).isSome := by
  cases hrunning : s.running with
  | cons x rest => exact ⟨.work 0, by simp [move?, hrunning]⟩
  | nil =>
    cases hunsubmitted : s.unsubmitted with
    | cons p rest => exact ⟨.submit, by simp [move?, hunsubmitted]⟩
    | nil =>
      cases hwaiting : s.waiting with
      | cons p rest => exact ⟨.take 0, by simp [move?, hrunning, hwaiting, permits_pos]⟩
      | nil =>
        cases hended : s.ended with
        | cons r rest => exact ⟨.collect 0, by simp [move?, hunsubmitted, hended]⟩
        | nil => simp [isDone, hrunning, hunsubmitted, hwaiting, hended] at hdone

/-- The number of moves that jobs with one stage have before them. -/
def remaining (s : Pool σ τ α) : Nat :=
  4 * s.unsubmitted.length + 3 * s.waiting.length + 2 * s.running.length + s.ended.length

variable {f : Path → JobEnd α} {moves : List Move} {s s' : Pool Unit Path α}

lemma remaining_of_moved (h : Moved (.ofFunction f) workers s s') :
    s'.remaining + 1 = s.remaining := by
  cases h with
  | submitted p rest hnext => simp [remaining, hnext]; omega
  | taken before behind p hfree hwaiting => simp [remaining, hwaiting]; omega
  | advanced before behind p stage next shared hrunning hstep => simp [Job.ofFunction] at hstep
  | finished before behind p stage last shared hrunning hstep => simp [remaining, hrunning]; omega
  | collected before behind r hsubmitted hended => simp [remaining, hended]; omega

lemma length_add_remaining (h : s.run? (.ofFunction f) workers moves = some s') :
    moves.length + s'.remaining = s.remaining := by
  induction moves generalizing s with
  | nil => simp [Option.some.inj h]
  | cons move moves ih =>
    obtain ⟨next, hnext, hrest⟩ := Option.bind_eq_some_iff.mp h
    rw [← remaining_of_moved (moved_of_move? hnext), ← ih hrest, List.length_cons]
    omega

lemma collected_perm {paths : List Path}
    (hrun : (ofPaths () paths).run? (.ofFunction f) workers moves = some s)
    (hdone : s.isDone = true) : s.collected.Perm (paths.map fun p => (p, (f p).result)) := by
  have haccount : (account (fun p => (p, (f p).result)) (fun p stage => (p, (f stage).result))
      (fun p r => (p, r)) s).Perm (account _ _ _ (ofPaths () paths)) :=
    account_perm (fun _ => rfl) (fun _ _ _ _ _ h => by simp [Job.ofFunction] at h)
      (fun _ _ _ _ _ h => by simp_all [Job.ofFunction]) hrun
  rw [account_of_isDone hdone] at haccount
  simpa [account, ofPaths] using haccount

/-- Whatever the order of moves: no more jobs are at work than there are permits, the pool can go on
until it is done, and after a bounded number of moves it is. Then each submission is in the batch
once, with the result of its own path; both lists are sorted, and if all paths are different the
batch is always the same. -/
theorem outcome_of_run {paths : List Path}
    (hrun : (ofPaths () paths).run? (.ofFunction f) workers moves = some s) :
    s.running.length ≤ max workers 1 ∧ moves.length ≤ 4 * paths.length ∧
      (s.isDone = false → ∃ move, (s.move? (.ofFunction f) workers move).isSome) ∧
      (s.isDone = true →
        s.batch.results.Perm (paths.map fun p => (p, (f p).result)) ∧
        (s.batch.successes.Pairwise fun x y => y.1.before x.1 = false) ∧
        (s.batch.failures.Pairwise fun x y => y.1.before x.1 = false) ∧
        ((paths.Pairwise fun p q => p.agrees q = false) →
          s.batch = .run (fun p => (f p).result) paths)) := by
  refine ⟨running_length_le hrun (Nat.zero_le _), ?_, exists_move_of_not_isDone _, fun hdone => ?_⟩
  · have hlength := length_add_remaining hrun
    simp only [remaining, ofPaths, List.length_nil] at hlength
    omega
  · have hperm := collected_perm hrun hdone
    refine ⟨(Batch.results_ofResults_perm _).trans hperm, Batch.pairwise_sortByPath _,
      Batch.pairwise_sortByPath _, fun hdistinct => ?_⟩
    refine (Batch.ofResults_congr hperm.symm ?_).symm
    rw [Batch.Distinct, List.pairwise_map]
    exact hdistinct

/-- Three jobs on two permits: one fails, one is aborted, and they end in an order of their own. -/
theorem outcome_of_run_out_of_order :
    let f : Path → JobEnd Nat := fun p =>
      if p.segments = ["c"] then .aborted (.outOfBounds 1 1)
      else if p.segments = ["b"] then .returned (.error (.selection "b" "missing"))
      else .returned (.ok 7)
    let paths : List Path := [⟨["c"]⟩, ⟨["b"]⟩, ⟨["a"]⟩]
    let moves : List Move := [.submit, .take 0, .submit, .submit, .take 1, .work 1, .take 0,
      .work 1, .work 0, .collect 1, .collect 1, .collect 0]
    ∃ s, (ofPaths () paths).run? (.ofFunction f) 2 moves = some s ∧ s.isDone = true ∧
      s.running.length ≤ 2 ∧ moves.length ≤ 12 ∧
      s.collected.map (fun x => x.1.text) = ["b", "c", "a"] ∧
      s.batch = .run (fun p => (f p).result) paths := by
  intro f paths moves
  have hrun : (ofPaths () paths).run? (.ofFunction f) 2 moves = some _ := rfl
  obtain ⟨hpermits, hlength, -, hdone⟩ := outcome_of_run hrun
  exact ⟨_, hrun, rfl, hpermits, hlength, by decide, (hdone rfl).2.2.2 (by decide)⟩

end TensorGraph.Pool
