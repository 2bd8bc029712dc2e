import TensorGraph.Pool
import TensorGraph.Proofs.Pool.Batches

/-!
# Runs of a pool

What any order of moves leaves as it is: there are never more jobs at work than permits, and every
submitted path is in one place, with its own result in the end.
-/

namespace TensorGraph

namespace Pool

variable {σ τ α β : Type} {job : Job σ τ α} {workers : Nat} {s s' : Pool σ τ α} {move : Move}
  {moves : List Move}

/-- What a move does to a pool. -/
inductive Moved (job : Job σ τ α) (workers : Nat) (s : Pool σ τ α) : Pool σ τ α → Prop
  | submitted (p : Path) (rest : List Path) (hnext : s.unsubmitted = p :: rest) :
    Moved job workers s { s with unsubmitted := rest, waiting := s.waiting ++ [p] }
  | taken (before behind : List Path) (p : Path) (hfree : s.running.length < permits workers)
      (hwaiting : s.waiting = before ++ p :: behind) :
    Moved job workers s
      { s with waiting := before ++ behind, running := s.running ++ [(p, job.start p)] }
  | advanced (before behind : List (Path × τ)) (p : Path) (stage next : τ) (shared : σ)
      (hrunning : s.running = before ++ (p, stage) :: behind)
      (hstep : job.step s.shared stage = (shared, .inl next)) :
    Moved job workers s { s with shared, running := before ++ (p, next) :: behind }
  | finished (before behind : List (Path × τ)) (p : Path) (stage : τ) (last : JobEnd α)
      (shared : σ) (hrunning : s.running = before ++ (p, stage) :: behind)
      (hstep : job.step s.shared stage = (shared, .inr last)) :
    Moved job workers s
      { s with
        shared
        running := before ++ behind
        ended := s.ended ++ [(p, last.result)] }
  | collected (before behind : List (Path × Except RepairError α))
      (r : Path × Except RepairError α) (hsubmitted : s.unsubmitted = [])
      (hended : s.ended = before ++ r :: behind) :
    Moved job workers s { s with ended := before ++ behind, collected := s.collected ++ [r] }

lemma exists_append_of_getElem? {as : List β} {i : Nat} {a : β} (h : as[i]? = some a) :
    ∃ before behind, as = before ++ a :: behind ∧ as.eraseIdx i = before ++ behind ∧
      ∀ b, as.set i b = before ++ b :: behind := by
  obtain ⟨hi, rfl⟩ := List.getElem?_eq_some_iff.mp h
  refine ⟨as.take i, as.drop (i + 1), ?_, List.eraseIdx_eq_take_drop_succ .., fun b => ?_⟩
  · rw [List.getElem_cons_drop, List.take_append_drop]
  · rw [List.set_eq_take_append_cons_drop, if_pos hi]

lemma moved_of_move? (h : s.move? job workers move = some s') : Moved job workers s s' := by
  cases move with
  | submit =>
    simp only [move?] at h
    split at h
    · cases h
    · rename_i p rest hnext
      obtain rfl := Option.some.inj h
      exact .submitted p rest hnext
  | take i =>
    simp only [move?] at h
    split_ifs at h with hfree
    obtain ⟨p, hp, rfl⟩ := Option.map_eq_some_iff.mp h
    obtain ⟨before, behind, hwaiting, herase, -⟩ := exists_append_of_getElem? hp
    rw [herase]
    exact .taken before behind p hfree hwaiting
  | work i =>
    obtain ⟨⟨p, stage⟩, hp, rfl⟩ := Option.map_eq_some_iff.mp h
    obtain ⟨before, behind, hrunning, herase, hset⟩ := exists_append_of_getElem? hp
    dsimp only
    split
    · rename_i shared next hstep
      rw [hset]
      exact .advanced before behind p stage next shared hrunning hstep
    · rename_i shared last hstep
      rw [herase]
      exact .finished before behind p stage last shared hrunning hstep
  | collect i =>
    simp only [move?] at h
    split_ifs at h with hsubmitted
    obtain ⟨r, hr, rfl⟩ := Option.map_eq_some_iff.mp h
    obtain ⟨before, behind, hended, herase, -⟩ := exists_append_of_getElem? hr
    rw [herase]
    exact .collected before behind r (List.isEmpty_iff.mp hsubmitted) hended

/-- What every move preserves holds after every run. -/
lemma run?_induction {P : Pool σ τ α → Prop} (hrun : s.run? job workers moves = some s')
    (hstart : P s) (hmove : ∀ s s', Moved job workers s s' → P s → P s') : P s' := by
  induction moves generalizing s with
  | nil => exact Option.some.inj hrun ▸ hstart
  | cons move moves ih =>
    obtain ⟨next, hnext, hrest⟩ := Option.bind_eq_some_iff.mp hrun
    exact ih hrest (hmove s next (moved_of_move? hnext) hstart)

lemma running_length_le (hrun : s.run? job workers moves = some s')
    (hstart : s.running.length ≤ permits workers) : s'.running.length ≤ permits workers := by
  refine run?_induction (P := fun s => s.running.length ≤ permits workers) hrun hstart
    fun s s' hmoved hs => ?_
  cases hmoved with
  | submitted => exact hs
  | taken before behind p hfree hwaiting => simpa using Nat.succ_le_of_lt hfree
  | advanced before behind p stage next shared hrunning => simpa [hrunning] using hs
  | finished before behind p stage last shared hrunning =>
    simp only [hrunning, List.length_append, List.length_cons] at hs ⊢
    omega
  | collected => exact hs

section Account

lemma count_map_append_cons {γ : Type} [DecidableEq β] (f : γ → β) (before behind : List γ) (c : γ)
    (b : β) : ((before ++ c :: behind).map f).count b =
      ((before ++ behind).map f).count b + if f c == b then 1 else 0 := by
  simp only [List.map_append, List.map_cons, List.count_append, List.count_cons]
  omega

/-- All submissions of a pool, each as it is seen in the place where it is. -/
def account (ofPath : Path → β) (ofStage : Path → τ → β)
    (ofResult : Path → Except RepairError α → β) (s : Pool σ τ α) : List β :=
  s.unsubmitted.map ofPath ++ s.waiting.map ofPath ++ s.running.map (fun x => ofStage x.1 x.2) ++
    s.ended.map (fun x => ofResult x.1 x.2) ++ s.collected.map fun x => ofResult x.1 x.2

variable {ofPath : Path → β} {ofStage : Path → τ → β} {ofResult : Path → Except RepairError α → β}

variable (hstart : ∀ p, ofStage p (job.start p) = ofPath p)
  (hnext : ∀ p stage next t t', job.step t stage = (t', .inl next) →
    ofStage p next = ofStage p stage)
  (hlast : ∀ p stage last t t', job.step t stage = (t', .inr last) →
    ofResult p last.result = ofStage p stage)

include hstart hnext hlast

/-- If a submission looks the same before and after each stage, a move changes only its place. -/
lemma account_perm_of_moved (hmoved : Moved job workers s s') :
    (account ofPath ofStage ofResult s').Perm (account ofPath ofStage ofResult s) := by
  classical
  rw [List.perm_iff_count]
  intro b
  simp only [account]
  cases hmoved with
  | submitted p rest hnext =>
    simp only [hnext, List.map_cons, List.count_append, List.count_cons, count_map_append_cons,
      List.append_nil]
    omega
  | taken before behind p hfree hwaiting =>
    simp only [hwaiting, hstart, List.count_append, count_map_append_cons, List.append_nil]
    omega
  | advanced before behind p stage next shared hrunning hstep =>
    simp only [hrunning, hnext p stage next _ _ hstep, List.count_append, count_map_append_cons]
  | finished before behind p stage last shared hrunning hstep =>
    simp only [hrunning, hlast p stage last _ _ hstep, List.count_append, count_map_append_cons,
      List.append_nil]
    omega
  | collected before behind r hsubmitted hended =>
    simp only [hended, List.count_append, count_map_append_cons, List.append_nil]
    omega

lemma account_perm (hrun : s.run? job workers moves = some s') :
    (account ofPath ofStage ofResult s').Perm (account ofPath ofStage ofResult s) := by
  refine run?_induction
    (P := fun s' => (account ofPath ofStage ofResult s').Perm (account ofPath ofStage ofResult s))
    hrun (List.Perm.refl _) fun s s' hmoved hs => ?_
  exact (account_perm_of_moved hstart hnext hlast hmoved).trans hs

end Account

/-- All paths of a pool, wherever they are. -/
def paths (s : Pool σ τ α) : List Path := account id (fun p _ => p) (fun p _ => p) s

lemma paths_perm_of_moved (hmoved : Moved job workers s s') : s'.paths.Perm s.paths :=
  account_perm_of_moved (fun _ => rfl) (fun _ _ _ _ _ _ => rfl) (fun _ _ _ _ _ _ => rfl) hmoved

lemma paths_perm_of_run {shared : σ} {submitted : List Path}
    (hrun : (ofPaths shared submitted).run? job workers moves = some s) :
    s.paths.Perm submitted := by
  have hperm : s.paths.Perm (ofPaths shared submitted : Pool σ τ α).paths :=
    account_perm (fun _ => rfl) (fun _ _ _ _ _ _ => rfl) (fun _ _ _ _ _ _ => rfl) hrun
  simpa [ofPaths, paths, account] using hperm

lemma mem_paths_iff {p : Path} :
    p ∈ s.paths ↔ p ∈ s.unsubmitted ∨ p ∈ s.waiting ∨ p ∈ s.running.map Prod.fst ∨
      p ∈ (s.ended ++ s.collected).map Prod.fst := by
  simp only [paths, account, List.mem_append, List.map_append, List.map_id, or_assoc]

end Pool

end TensorGraph
