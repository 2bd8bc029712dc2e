import TensorGraph.Proofs.Files.Copies
import TensorGraph.Proofs.Pool.Functions

/-!
# Pools of repairs

Repairs at work side by side in one tree. If all copies are out of the way of all sources and of
each other, every repair finds its source as it was and no copy is lost, so that the order in which
they read and write leaves no trace in the tree.
-/

namespace TensorGraph

open FileTree

namespace Pool

variable {t : FileTree} {s : Settings} {paths : List Path} {workers : Nat} {moves : List Move}
  {pool pool' : Pool FileTree RepairStage FileRepair}

/-- A stage at which the repair of a file is right to be. -/
def Fits (t : FileTree) (s : Settings) (p : Path) : RepairStage → Prop
  | .reading q => q = p
  | .writing q plan => q = p ∧ t.planRepair s p = .ok plan

/-- An outcome that the plan for a file has if it can be carried out. -/
def Fulfils (t : FileTree) (s : Settings) (p : Path) (outcome : FileRepair) : Prop :=
  ∃ plan, t.planRepair s p = .ok plan ∧
    outcome = { source := p, written? := plan.write?.map Prod.fst, report := plan.report } ∧
    ∀ path contents, plan.write? = some (path, contents) → ∃ l, t.target path = .ok l

/-- What holds of a pool of repairs at every time. -/
structure Undisturbed (t : FileTree) (s : Settings) (paths : List Path)
    (pool : Pool FileTree RepairStage FileRepair) : Prop where
  within : ∀ p ∈ pool.paths, p ∈ paths
  copied : t.Copied s ((pool.ended ++ pool.collected).map Prod.fst) pool.shared
  stages : ∀ x ∈ pool.running, Fits t s x.1 x.2
  results : ∀ x ∈ pool.ended ++ pool.collected, ∀ outcome, x.2 = .ok outcome →
    Fulfils t s x.1 outcome

lemma undisturbed_ofPaths (t : FileTree) (s : Settings) (paths : List Path) :
    Undisturbed t s paths (ofPaths t paths) where
  within p hp := by simpa [ofPaths, Pool.paths, account] using hp
  copied := .nil t s
  stages := nofun
  results := nofun

/-! ### Stages -/

lemma exists_of_step_inl {u u' : FileTree} {stage next : RepairStage}
    (h : (repairJob s).step u stage = (u', .inl next)) :
    ∃ q plan, stage = .reading q ∧ u' = u ∧ u.planRepair s q = .ok plan ∧
      next = .writing q plan := by
  cases stage with
  | reading q =>
    simp only [repairJob] at h
    split at h
    · rename_i plan hplan
      cases h
      exact ⟨q, plan, rfl, rfl, hplan, rfl⟩
    · cases h
  | writing q plan =>
    simp only [repairJob] at h
    split at h <;> cases h

lemma exists_target_of_carryOut {u u' : FileTree} {plan : RepairPlan} {path : Path}
    {contents : Bytes} (h : u.carryOut plan = .ok u')
    (hwrite : plan.write? = some (path, contents)) : ∃ l, u.target path = .ok l := by
  simp only [carryOut, save, hwrite, mapError_eq_ok_iff, write, map_eq_ok_iff] at h
  exact h.imp fun _ => And.left

lemma exists_of_step_inr {u u' : FileTree} {stage : RepairStage} {last : JobEnd FileRepair}
    (h : (repairJob s).step u stage = (u', .inr last)) :
    (∃ q e, stage = .reading q ∧ u' = u ∧ u.planRepair s q = .error e ∧ last.result = .error e) ∨
      ∃ q plan, stage = .writing q plan ∧ u' = u.afterPlan plan ∧
        ∀ outcome, last.result = .ok outcome →
          outcome = { source := q, written? := plan.write?.map Prod.fst, report := plan.report } ∧
          ∀ path contents, plan.write? = some (path, contents) → ∃ l, u.target path = .ok l := by
  cases stage with
  | reading q =>
    simp only [repairJob] at h
    split at h
    · cases h
    · rename_i e hplan
      cases h
      exact .inl ⟨q, e, rfl, rfl, hplan, rfl⟩
  | writing q plan =>
    simp only [repairJob] at h
    split at h
    · rename_i repaired hcarry
      cases h
      refine .inr ⟨q, plan, rfl, by simp [afterPlan, hcarry, Except.toOption], ?_⟩
      rintro outcome ⟨⟩
      exact ⟨rfl, fun path contents => exists_target_of_carryOut hcarry⟩
    · rename_i e hcarry
      cases h
      refine .inr ⟨q, plan, rfl, by simp [afterPlan, hcarry, Except.toOption], ?_⟩
      rintro outcome ⟨⟩

/-! ### Moves -/

namespace Undisturbed

lemma mem_of_running (h : Undisturbed t s paths pool) {x : Path × RepairStage}
    (hx : x ∈ pool.running) : x.1 ∈ paths :=
  h.within x.1 (mem_paths_iff.mpr (.inr (.inr (.inl (List.mem_map_of_mem hx)))))

lemma mem_of_done (h : Undisturbed t s paths pool) :
    ∀ p ∈ (pool.ended ++ pool.collected).map Prod.fst, p ∈ paths := fun p hp =>
  h.within p (mem_paths_iff.mpr (.inr (.inr (.inr hp))))

lemma planRepair_eq (h : Undisturbed t s paths pool) (hapart : t.CopiesApart s paths)
    (hfiles : ∀ p ∈ paths, t.isFile p = true) {p : Path} (hp : p ∈ paths) :
    pool.shared.planRepair s p = t.planRepair s p :=
  planRepair_congr (h.copied.contents?_eq h.mem_of_done hapart hp (hfiles p hp))

variable {p : Path} {stage : RepairStage} {u : FileTree}

/-- The first stage of a repair leaves the tree as it is, and the plan is the one of before. -/
lemma of_step_inl (h : Undisturbed t s paths pool) (hapart : t.CopiesApart s paths)
    (hfiles : ∀ p ∈ paths, t.isFile p = true) (hp : p ∈ paths) (hstage : Fits t s p stage)
    {next : RepairStage} (hstep : (repairJob s).step pool.shared stage = (u, .inl next)) :
    u = pool.shared ∧ Fits t s p next := by
  obtain ⟨q, plan, rfl, rfl, hplan, rfl⟩ := exists_of_step_inl hstep
  obtain rfl : q = p := hstage
  rw [h.planRepair_eq hapart hfiles hp] at hplan
  exact ⟨rfl, rfl, hplan⟩

/-- The last stage of a repair adds its copy to the tree, or nothing. -/
lemma of_step_inr (h : Undisturbed t s paths pool) (hgrounded : t.Grounded)
    (hapart : t.CopiesApart s paths) (hfiles : ∀ p ∈ paths, t.isFile p = true) (hp : p ∈ paths)
    (hstage : Fits t s p stage) {last : JobEnd FileRepair}
    (hstep : (repairJob s).step pool.shared stage = (u, .inr last)) :
    t.Copied s (p :: (pool.ended ++ pool.collected).map Prod.fst) u ∧
      ∀ outcome, last.result = .ok outcome → Fulfils t s p outcome := by
  rcases exists_of_step_inr hstep with ⟨q, e, rfl, rfl, hplan, hlast⟩ |
    ⟨q, plan, rfl, rfl, hwritten⟩
  · obtain rfl : q = p := hstage
    rw [h.planRepair_eq hapart hfiles hp] at hplan
    exact ⟨h.copied.cons_of_eq_none (by simp [copy?, hplan, Except.toOption]), by simp [hlast]⟩
  · obtain ⟨rfl, hplan⟩ : q = p ∧ t.planRepair s p = .ok plan := hstage
    refine ⟨h.copied.afterPlan hgrounded h.mem_of_done hapart hp hplan, fun outcome hok => ?_⟩
    obtain ⟨heq, htarget⟩ := hwritten outcome hok
    refine ⟨plan, hplan, heq, fun path contents hwrite => ?_⟩
    exact (htarget path contents hwrite).imp fun l =>
      (h.copied.grown.target_eq_ok_iff hgrounded).mp

lemma of_moved (h : Undisturbed t s paths pool) (hgrounded : t.Grounded)
    (hapart : t.CopiesApart s paths) (hfiles : ∀ p ∈ paths, t.isFile p = true)
    (hmoved : Moved (repairJob s) workers pool pool') : Undisturbed t s paths pool' := by
  have hwithin : ∀ p ∈ pool'.paths, p ∈ paths := fun p hp =>
    h.within p ((paths_perm_of_moved hmoved).mem_iff.mp hp)
  cases hmoved with
  | submitted p rest hnext => exact ⟨hwithin, h.copied, h.stages, h.results⟩
  | taken before behind p hfree hwaiting =>
    refine ⟨hwithin, h.copied, ?_, h.results⟩
    exact List.forall_mem_append.mpr ⟨h.stages, by simp [repairJob, Fits]⟩
  | advanced before behind p stage next shared hrunning hstep =>
    have hp : p ∈ paths :=
      h.mem_of_running (hrunning ▸ List.mem_append_right before List.mem_cons_self)
    have hstages := h.stages
    rw [hrunning, List.forall_mem_append, List.forall_mem_cons] at hstages
    obtain ⟨rfl, hfits⟩ := h.of_step_inl hapart hfiles hp hstages.2.1 hstep
    refine ⟨hwithin, h.copied, ?_, h.results⟩
    rw [List.forall_mem_append, List.forall_mem_cons]
    exact ⟨hstages.1, hfits, hstages.2.2⟩
  | finished before behind p stage last shared hrunning hstep =>
    have hp : p ∈ paths :=
      h.mem_of_running (hrunning ▸ List.mem_append_right before List.mem_cons_self)
    have hstages := h.stages
    rw [hrunning, List.forall_mem_append, List.forall_mem_cons] at hstages
    obtain ⟨hcopied, hresult⟩ := h.of_step_inr hgrounded hapart hfiles hp hstages.2.1 hstep
    refine ⟨hwithin, hcopied.congr fun q => ?_, ?_, ?_⟩
    · simp only [List.map_append, List.map_cons, List.map_nil, List.mem_append, List.mem_cons,
        List.not_mem_nil, or_false]
      tauto
    · exact List.forall_mem_append.mpr ⟨hstages.1, hstages.2.2⟩
    · have hresults := h.results
      simp only [List.forall_mem_append, List.forall_mem_singleton] at hresults ⊢
      exact ⟨⟨hresults.1, hresult⟩, hresults.2⟩
  | collected before behind r hsubmitted hended =>
    have hmem : ∀ x, x ∈ pool.ended ++ pool.collected ↔
        x ∈ (before ++ behind) ++ (pool.collected ++ [r]) := by
      intro x
      simp only [hended, List.mem_append, List.mem_cons, List.not_mem_nil, or_false]
      tauto
    exact ⟨hwithin, h.copied.congr fun q => by simp only [List.mem_map, hmem], h.stages,
      fun x hx => h.results x ((hmem x).mpr hx)⟩

end Undisturbed

lemma undisturbed_of_run (hgrounded : t.Grounded) (hapart : t.CopiesApart s paths)
    (hfiles : ∀ p ∈ paths, t.isFile p = true)
    (hrun : (ofPaths t paths).run? (repairJob s) workers moves = some pool) :
    Undisturbed t s paths pool :=
  run?_induction hrun (undisturbed_ofPaths t s paths) fun _ _ hmoved h =>
    h.of_moved hgrounded hapart hfiles hmoved

lemma mem_collected_iff (hrun : (ofPaths t paths).run? (repairJob s) workers moves = some pool)
    (hdone : pool.isDone = true) {p : Path} : p ∈ pool.collected.map Prod.fst ↔ p ∈ paths := by
  obtain ⟨hunsubmitted, hwaiting, hrunning, hended⟩ := isDone_iff.mp hdone
  rw [← (paths_perm_of_run hrun).mem_iff, mem_paths_iff, hunsubmitted, hwaiting, hrunning, hended]
  simp

/-- Repairs of files that are no copies themselves, with copies beside their sources. If the copies
are apart, then in whatever order the repairs read and write, the tree becomes what it becomes when
they are made one after another, and each success has the repaired model of its own source where it
says. With a suffix that is part of a name, the copies are apart unless a file without extension
stands beside one of its name with the extension of models. -/
theorem repairs_of_run (hgrounded : t.Grounded) (hcheck : s.check = .ok ())
    (hinPlace : s.inPlace = false)
    (hfiles : ∀ p ∈ paths, p.Writable ∧ t.isFile p = true ∧ s.isOutput p = false)
    (hrun : (ofPaths t paths).run? (repairJob s) workers moves = some pool)
    (hdone : pool.isDone = true) :
    ('/' ∉ s.suffix.toList → (∀ p ∈ paths, ∀ q ∈ paths, ¬t.SharesCopy p q) →
        t.CopiesApart s paths) ∧
      (t.CopiesApart s paths →
        (∀ l, pool.shared.fileAt? l = (t.repairFiles s paths).2.fileAt? l ∧
          pool.shared.isFolderAt l = t.isFolderAt l) ∧
        ∀ x ∈ pool.batch.successes, ∃ m repaired path, t.loadModel x.1 = .ok m ∧
          m.repair s = .ok (repaired, x.2.report) ∧ x.2.written? = some path ∧
          pool.shared.contents? path = .ok (some repaired.encode)) := by
  refine ⟨fun hplain => copiesApart_of_not_sharesCopy hgrounded hcheck hinPlace hplain hfiles,
    fun hapart => ?_⟩
  have hsources : ∀ p ∈ paths, t.isFile p = true := fun p hp => (hfiles p hp).2.1
  have hpool := undisturbed_of_run hgrounded hapart hsources hrun
  have hended : pool.ended = [] := (isDone_iff.mp hdone).2.2.2
  have hcopied : t.Copied s paths pool.shared := hpool.copied.congr fun p => by
    rw [hended, List.nil_append]
    exact mem_collected_iff hrun hdone
  refine ⟨fun l => ⟨hcopied.fileAt?_eq (copied_repairFiles hgrounded hapart hsources) l,
    hcopied.grown.isFolderAt l⟩, fun x hx => ?_⟩
  have hresult : (x.1, .ok x.2) ∈ pool.collected := by
    refine (Batch.results_ofResults_perm pool.collected).mem_iff.mp ?_
    exact List.mem_append_left _ (List.mem_map_of_mem hx)
  obtain ⟨plan, hplan, houtcome, htarget⟩ :=
    hpool.results _ (List.mem_append_right pool.ended hresult) x.2 rfl
  obtain ⟨m, repaired, hm, hrepair, hwrite⟩ := exists_of_planRepair hinPlace hplan
  obtain ⟨l, hl⟩ := htarget _ _ hwrite
  have hcopy : t.copy? s x.1 = some (l, repaired.encode) :=
    copy?_eq_some_iff.mpr ⟨plan, _, hplan, hwrite, hl⟩
  have hx : x.1 ∈ paths := (mem_collected_iff hrun hdone).mp (List.mem_map_of_mem hresult)
  refine ⟨m, repaired, s.outputPath x.1, hm, ?_, ?_, ?_⟩
  · rw [hrepair, houtcome]
  · simp [houtcome, hwrite]
  · exact hcopied.grown.contents?_of_target hgrounded hl (hcopied.copies x.1 hx l _ hcopy)

/-- What a pool has made of the files: their paths, and those of their copies. -/
def written (pool : Pool FileTree RepairStage FileRepair) : List (String × Option String) :=
  pool.collected.map fun x => (x.1.text, (x.2.toOption.bind FileRepair.written?).map Path.text)

/-- Two files in two folders: both are read before either is written. -/
theorem repairs_of_run_interleaved :
    let t : FileTree := { files := [(["a.onnx"], [8, 7, 58, 0]), (["d", "b"], [8, 8, 58, 0])] }
    let paths := [Path.ofText "a.onnx", Path.ofText "./d/b"]
    ∃ pool, (ofPaths t paths).run? (repairJob {}) 2 [.submit, .submit, .take 1, .take 0, .work 0,
        .work 1, .work 1, .work 0, .collect 1, .collect 0] = some pool ∧ pool.isDone = true ∧
      pool.written = [("./d/b", some "./d/b.fixed.onnx"), ("a.onnx", some "a.fixed.onnx")] ∧
      t.CopiesApart {} paths ∧
      ∀ l, pool.shared.fileAt? l = (t.repairFiles {} paths).2.fileAt? l := by
  intro t paths
  have hfiles : ∀ p ∈ paths, p.Writable ∧ t.isFile p = true ∧
      ({} : Settings).isOutput p = false := by
    simp only [paths, List.forall_mem_cons, Path.writable_ofText, true_and]
    exact ⟨by decide, by decide, by simp⟩
  have hshares : ∀ p ∈ paths, ∀ q ∈ paths, ¬t.SharesCopy p q := by
    have hnames : ∀ p ∈ paths, (t.locate p).map List.getLast? = .ok (some "a.onnx") ∨
        (t.locate p).map List.getLast? = .ok (some "b") := by decide
    rintro p hp q hq ⟨folder, name, hlocate, hlocate', -⟩
    have hname := hnames p hp
    have hname' := hnames q hq
    simp only [hlocate, hlocate', Except.map, List.getLast?_append, List.getLast?_singleton,
      Option.some_or, Except.ok.injEq, Option.some.injEq] at hname hname'
    rcases hname with rfl | rfl <;> revert hname' <;> decide
  have hrun : ((ofPaths t paths).run? (repairJob {}) 2 [.submit, .submit, .take 1, .take 0, .work 0,
      .work 1, .work 1, .work 0, .collect 1, .collect 0]).map (fun pool =>
        (pool.isDone, pool.written)) =
      some (true, [("./d/b", some "./d/b.fixed.onnx"), ("a.onnx", some "a.fixed.onnx")]) := by
    decide +kernel
  obtain ⟨pool, hpool, houtcome⟩ := Option.map_eq_some_iff.mp hrun
  obtain ⟨hdone, hwritten⟩ := Prod.mk.inj houtcome
  have h := repairs_of_run (grounded_of_root rfl rfl) rfl rfl hfiles hpool hdone
  have hapart : t.CopiesApart {} paths := h.1 (by decide) hshares
  exact ⟨pool, hpool, hdone, hwritten, hapart, fun l => ((h.2 hapart).1 l).1⟩

/-- Of two files that share the name of their copies, the one that is written last has its copy. -/
theorem repairs_of_run_lost :
    let t : FileTree := { files := [(["m"], [8, 7, 58, 0]), (["m.onnx"], [8, 8, 58, 0])] }
    let paths := [Path.ofText "m", Path.ofText "m.onnx"]
    let final (first : Nat) := (ofPaths t paths).run? (repairJob {}) 1 [.submit, .submit,
      .take first, .work 0, .work 0, .take 0, .work 0, .work 0, .collect 0, .collect 0]
    let outcome (pool : Pool FileTree RepairStage FileRepair) :=
      (pool.isDone, pool.written, pool.shared.fileAt? ["m.fixed.onnx"])
    let m := ("m", some "m.fixed.onnx")
    let named := ("m.onnx", some "m.fixed.onnx")
    Settings.check {} = .ok () ∧
      (paths.all fun p => t.isFile p && !Settings.isOutput {} p) = true ∧
      (final 0).map outcome = some (true, [m, named], some [8, 8, 58, 0]) ∧
      (final 1).map outcome = some (true, [named, m], some [8, 7, 58, 0]) := by
  exact ⟨rfl, by decide, by decide +kernel, by decide +kernel⟩

end Pool

end TensorGraph
