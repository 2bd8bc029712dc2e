import TensorGraph.Batch
import TensorGraph.Proofs.Files.CopyNames
import TensorGraph.Proofs.Files.Places

/-!
# Copies beside their sources

A repair that does not replace its source adds a copy to the tree. While no copy gets in the way of
a source or of another copy, each repair of a batch finds what it would have found at first, and in
the end there are the files of before and all the copies.
-/

namespace TensorGraph.FileTree

variable {t t' : FileTree} {s : Settings} {p q : Path} {done : List Path} {l : Location}
  {contents : Bytes}

/-! ### What one repair adds -/

/-- Where the repair of a file puts its copy, and what is in the copy. -/
def copy? (t : FileTree) (s : Settings) (p : Path) : Option (Location × Bytes) := do
  let plan ← (t.planRepair s p).toOption
  let (path, contents) ← plan.write?
  let l ← (t.target path).toOption
  return (l, contents)

/-- What is there after a plan was carried out, or was not. -/
def afterPlan (t : FileTree) (plan : RepairPlan) : FileTree := (t.carryOut plan).toOption.getD t

/-- Nobody's copy is put where there is a source, and copies in one place are equal. -/
def CopiesApart (t : FileTree) (s : Settings) (paths : List Path) : Prop :=
  ∀ p ∈ paths, ∀ l contents, t.copy? s p = some (l, contents) → ∀ q ∈ paths,
    t.locate q ≠ .ok l ∧ ∀ contents', t.copy? s q = some (l, contents') → contents = contents'

/-- A tree that has grown by the copies of some files. -/
structure Copied (t : FileTree) (s : Settings) (done : List Path) (t' : FileTree) : Prop where
  grown : t.Extends t'
  copies : ∀ p ∈ done, ∀ l contents, t.copy? s p = some (l, contents) →
    t'.fileAt? l = some contents
  others : ∀ l, (∀ p ∈ done, ∀ contents, t.copy? s p ≠ some (l, contents)) →
    t'.fileAt? l = t.fileAt? l

lemma Copied.nil (t : FileTree) (s : Settings) : t.Copied s [] t :=
  ⟨.refl t, nofun, fun _ _ => rfl⟩

lemma Copied.congr {done' : List Path} (h : t.Copied s done t')
    (hdone : ∀ p, p ∈ done ↔ p ∈ done') : t.Copied s done' t' where
  grown := h.grown
  copies p hp := h.copies p ((hdone p).mpr hp)
  others l hl := h.others l fun p hp => hl p ((hdone p).mp hp)

lemma Copied.fileAt?_eq {t'' : FileTree} (h : t.Copied s done t') (h' : t.Copied s done t'')
    (l : Location) : t'.fileAt? l = t''.fileAt? l := by
  by_cases hl : ∃ p ∈ done, ∃ contents, t.copy? s p = some (l, contents)
  · obtain ⟨p, hp, contents, hcopy⟩ := hl
    rw [h.copies p hp l contents hcopy, h'.copies p hp l contents hcopy]
  · have hnot : ∀ p ∈ done, ∀ contents, t.copy? s p ≠ some (l, contents) :=
      fun p hp contents hcopy => hl ⟨p, hp, contents, hcopy⟩
    rw [h.others l hnot, h'.others l hnot]

lemma copy?_eq_some_iff :
    t.copy? s p = some (l, contents) ↔ ∃ plan path, t.planRepair s p = .ok plan ∧
      plan.write? = some (path, contents) ∧ t.target path = .ok l := by
  simp only [copy?, Option.bind_eq_bind, Option.bind_eq_some_iff, toOption_eq_some_iff]
  constructor
  · rintro ⟨plan, hplan, ⟨path, contents'⟩, hwrite, l', htarget, heq⟩
    obtain ⟨rfl, rfl⟩ := Prod.mk.inj (Option.some.inj heq)
    exact ⟨plan, path, hplan, hwrite, htarget⟩
  · rintro ⟨plan, path, hplan, hwrite, htarget⟩
    exact ⟨plan, hplan, (path, contents), hwrite, l, htarget, rfl⟩

/-- A file that was there at first is found as it was. -/
lemma Copied.contents?_eq {paths : List Path} (h : t.Copied s done t')
    (hdone : ∀ p ∈ done, p ∈ paths) (hapart : t.CopiesApart s paths) (hq : q ∈ paths)
    (hfile : t.isFile q = true) : t'.contents? q = t.contents? q := by
  obtain ⟨m, hm, -⟩ := isFile_iff.mp hfile
  have hothers : t'.fileAt? m = t.fileAt? m := h.others m fun p hp contents hcopy =>
    (hapart p (hdone p hp) m contents hcopy q hq).1 hm
  simp only [FileTree.contents?, hm, h.grown.locate hm, Except.map, hothers]

lemma planRepair_congr (h : t'.contents? p = t.contents? p) :
    t'.planRepair s p = t.planRepair s p := by
  simp only [planRepair, loadModel, h]

lemma Copied.cons_of_eq_none (h : t.Copied s done t') (hq : t.copy? s q = none) :
    t.Copied s (q :: done) t' where
  grown := h.grown
  copies p hp l contents hcopy := by
    rcases List.mem_cons.mp hp with rfl | hp
    · rw [hq] at hcopy
      cases hcopy
    · exact h.copies p hp l contents hcopy
  others l hl := h.others l fun p hp => hl p (List.mem_cons_of_mem q hp)

lemma Copied.cons_of_eq_some {paths : List Path} (h : t.Copied s done t')
    (hdone : ∀ p ∈ done, p ∈ paths) (hapart : t.CopiesApart s paths) (hq : q ∈ paths)
    (hcopy : t.copy? s q = some (l, contents)) (hgrown : t'.Extends (t'.put l contents)) :
    t.Copied s (q :: done) (t'.put l contents) where
  grown := h.grown.trans hgrown
  copies p hp l' contents' hcopy' := by
    rw [fileAt?_put]
    rcases List.mem_cons.mp hp with rfl | hp
    · obtain ⟨rfl, rfl⟩ := Prod.mk.inj (Option.some.inj (hcopy.symm.trans hcopy'))
      rw [if_pos rfl]
    · split
      · rename_i hl
        subst hl
        rw [(hapart q hq _ contents hcopy p (hdone p hp)).2 contents' hcopy']
      · exact h.copies p hp l' contents' hcopy'
  others l' hl' := by
    have hne : l' ≠ l := by
      rintro rfl
      exact hl' q List.mem_cons_self contents hcopy
    rw [fileAt?_put, if_neg hne]
    exact h.others l' fun p hp => hl' p (List.mem_cons_of_mem q hp)

lemma afterPlan_of_write? {plan : RepairPlan} {path : Path}
    (hwrite : plan.write? = some (path, contents)) :
    t.afterPlan plan = ((t.target path).toOption.map (t.put · contents)).getD t := by
  cases htarget : t.target path <;>
    simp [afterPlan, carryOut, save, hwrite, write, htarget, Except.map, Except.mapError,
      Except.toOption]

/-- One more repair adds one more copy, if it can be written. -/
lemma Copied.afterPlan {paths : List Path} {plan : RepairPlan} (h : t.Copied s done t')
    (hgrounded : t.Grounded) (hdone : ∀ p ∈ done, p ∈ paths) (hapart : t.CopiesApart s paths)
    (hq : q ∈ paths) (hplan : t.planRepair s q = .ok plan) :
    t.Copied s (q :: done) (t'.afterPlan plan) := by
  cases hwrite : plan.write? with
  | none =>
    have hafter : t'.afterPlan plan = t' := by
      simp [FileTree.afterPlan, carryOut, hwrite, Except.toOption]
    rw [hafter]
    exact h.cons_of_eq_none (by simp [copy?, hplan, hwrite, Except.toOption])
  | some write =>
    obtain ⟨path, contents⟩ := write
    rw [afterPlan_of_write? hwrite]
    cases htarget : t'.target path with
    | error e =>
      refine h.cons_of_eq_none (Option.eq_none_iff_forall_not_mem.mpr fun x hx => ?_)
      obtain ⟨plan', path', hplan', hwrite', htarget'⟩ := copy?_eq_some_iff.mp hx
      obtain rfl := Except.ok.inj (hplan.symm.trans hplan')
      obtain ⟨rfl, -⟩ := Prod.mk.inj (Option.some.inj (hwrite.symm.trans hwrite'))
      rw [(h.grown.target_eq_ok_iff hgrounded).mpr htarget'] at htarget
      cases htarget
    | ok l =>
      have hcopy : t.copy? s q = some (l, contents) := copy?_eq_some_iff.mpr
        ⟨plan, path, hplan, hwrite, (h.grown.target_eq_ok_iff hgrounded).mp htarget⟩
      exact h.cons_of_eq_some hdone hapart hq hcopy (extends_put_target htarget contents)

/-! ### Copies under plain names -/

lemma suffix_ne_empty (hcheck : s.check = .ok ()) (hinPlace : s.inPlace = false) :
    s.suffix ≠ "" := by
  intro hsuffix
  simp only [Settings.check, hinPlace, hsuffix] at hcheck
  split_ifs at hcheck
  simp_all

lemma follow_dropIdle {segments : List String} {m : Location}
    (h : t.follow l segments = .ok m) (first : Bool) :
    t.follow l (Path.dropIdle first segments) = .ok m := by
  induction segments generalizing l first with
  | nil => exact h
  | cons s rest ih =>
    obtain ⟨next, hnext, hrest⟩ := follow_cons_eq_ok_iff.mp h
    have hkept := ih hrest false
    rw [Path.dropIdle]
    split
    · rename_i hnil
      rw [hnil] at hkept
      obtain rfl := Except.ok.inj hkept
      split_ifs with hstep
      · exact hnext
      · -- Only what stays where it is means no step.
        obtain ⟨-, ⟨-, rfl⟩ | ⟨rfl, -⟩ | ⟨hname, -⟩⟩ := follow_singleton.mp hnext
        · rfl
        · simp [Path.stepOf?] at hstep
        · simp [Path.stepOf?_name hname] at hstep
    · exact follow_cons_eq_ok_iff.mpr ⟨next, hnext, hkept⟩

variable {init : List String} {folder : Location} {name : String}

lemma follow_front {m : Location} (h : p.segments = init ++ [name])
    (hfollow : t.follow l init = .ok m) : t.follow l (p.front init) = .ok m := by
  unfold Path.front
  split_ifs with habsolute
  · obtain ⟨init', rfl⟩ := Path.exists_cons_of_isAbsolute habsolute h
    obtain ⟨next, hnext, hrest⟩ := follow_cons_eq_ok_iff.mp hfollow
    exact follow_cons_eq_ok_iff.mpr ⟨next, hnext, follow_dropIdle hrest false⟩
  · exact follow_dropIdle hfollow true

lemma LeadsTo.outputPath (h : t.LeadsTo p init folder name) (hp : p.Writable)
    (hinPlace : s.inPlace = false) (hsuffix : s.suffix ≠ "") (hplain : '/' ∉ s.suffix.toList) :
    t.LeadsTo (s.outputPath p) (p.front init) folder (s.copyOf name) := by
  have hname : '/' ∉ name.toList :=
    hp.slashless name (h.segments ▸ List.mem_append_right init List.mem_cons_self)
  have hsegments : (s.outputPath p).segments = p.front init ++ [s.copyOf name] := by
    rw [Settings.outputPath, hinPlace, if_neg Bool.false_ne_true,
      Settings.copyName_eq (Path.fileName?_of_segments h.segments h.isName)]
    exact Path.withFileName_segments h.segments h.isName (Settings.slashless_copyOf hname hplain)
  have hstart : t.start (s.outputPath p) = t.start p := by
    rw [FileTree.start, Path.isAbsolute_of_segments h.segments hsegments, FileTree.start]
  exact ⟨hsegments, Settings.isName_copyOf h.isName.ne_empty hsuffix,
    hstart ▸ follow_front h.segments h.follow, h.isFolder⟩

lemma LeadsTo.eq_of_target (h : t.LeadsTo p init folder name) (hgrounded : t.Grounded)
    (htarget : t.target p = .ok l) : l = folder ++ [name] := by
  obtain ⟨init', folder', name', h', -, rfl⟩ := (target_eq_ok_iff hgrounded).mp htarget
  obtain ⟨rfl, hname⟩ := List.append_inj' (h'.segments.symm.trans h.segments) rfl
  obtain rfl := Except.ok.inj (h'.follow.symm.trans h.follow)
  rw [hname]

lemma planRepair_eq_ok_iff {plan : RepairPlan} :
    t.planRepair s p = .ok plan ↔ ∃ m repaired, t.loadModel p = .ok m ∧
      m.repair s = .ok (repaired, plan.report) ∧ plan.write? =
        if s.inPlace && !plan.report.changed then none
        else some (s.outputPath p, repaired.encode) := by
  unfold planRepair
  simp only [bind_eq_ok_iff, mapError_eq_ok_iff]
  constructor
  · rintro ⟨m, hm, ⟨repaired, report⟩, hrepair, hplan⟩
    obtain rfl := Except.ok.inj hplan
    exact ⟨m, repaired, hm, hrepair, rfl⟩
  · rintro ⟨m, repaired, hm, hrepair, hwrite⟩
    exact ⟨m, hm, (repaired, plan.report), hrepair, by rw [← hwrite]; rfl⟩

lemma exists_of_planRepair {plan : RepairPlan} (hinPlace : s.inPlace = false)
    (h : t.planRepair s p = .ok plan) :
    ∃ m repaired, t.loadModel p = .ok m ∧ m.repair s = .ok (repaired, plan.report) ∧
      plan.write? = some (s.outputPath p, repaired.encode) := by
  obtain ⟨m, repaired, hm, hrepair, hwrite⟩ := planRepair_eq_ok_iff.mp h
  exact ⟨m, repaired, hm, hrepair, by simpa [hinPlace] using hwrite⟩

lemma loadModel_eq_ok_iff {m : Model} :
    t.loadModel p = .ok m ↔ ∃ contents, t.contents? p = .ok (some contents) ∧
      contents.isEmpty = false ∧ Model.decode contents = .ok m := by
  unfold loadModel
  split
  · rename_i hcontents
    simp [hcontents]
  · rename_i hcontents
    simp [hcontents]
  · rename_i contents hcontents
    split_ifs with hempty
    · simp_all
    · have hne : contents ≠ [] := by simpa using hempty
      simp [hcontents, hne]

lemma loadModel_of_locate_eq {m : Model} (hlocate : t.locate p = t.locate q)
    (h : t.loadModel p = .ok m) : t.loadModel q = .ok m := by
  rw [loadModel_eq_ok_iff, contents?] at h ⊢
  rwa [← hlocate]

lemma exists_of_copy? (hinPlace : s.inPlace = false) (h : t.copy? s p = some (l, contents)) :
    ∃ m repaired report, t.loadModel p = .ok m ∧ m.repair s = .ok (repaired, report) ∧
      contents = repaired.encode ∧ t.target (s.outputPath p) = .ok l := by
  obtain ⟨plan, path, hplan, hwrite, htarget⟩ := copy?_eq_some_iff.mp h
  obtain ⟨m, repaired, hm, hrepair, hwrite'⟩ := exists_of_planRepair hinPlace hplan
  obtain ⟨rfl, rfl⟩ := Prod.mk.inj (Option.some.inj (hwrite'.symm.trans hwrite))
  exact ⟨m, repaired, plan.report, hm, hrepair, rfl, htarget⟩

/-- A file without extension, and one whose name is that name with the extension of models. -/
def SharesCopy (t : FileTree) (p q : Path) : Prop :=
  ∃ folder name, t.locate p = .ok (folder ++ [name]) ∧
    t.locate q = .ok (folder ++ [name ++ ".onnx"]) ∧ (Path.splitName name).2 = none

lemma exists_place (hgrounded : t.Grounded) (hinPlace : s.inPlace = false)
    (hsuffix : s.suffix ≠ "") (hplain : '/' ∉ s.suffix.toList) (hp : p.Writable)
    (hfile : t.isFile p = true) :
    ∃ folder name, t.locate p = .ok (folder ++ [name]) ∧ name ≠ "" ∧ p.fileName? = some name ∧
      ∀ l, t.target (s.outputPath p) = .ok l → l = folder ++ [s.copyOf name] := by
  obtain ⟨l, hl, hsome⟩ := isFile_iff.mp hfile
  obtain ⟨init, folder, name, hleads, rfl⟩ :=
    leadsTo_of_locate hl (isFolderAt_eq_false_of_isSome hgrounded hsome)
  exact ⟨folder, name, hl, hleads.isName.ne_empty,
    Path.fileName?_of_segments hleads.segments hleads.isName,
    fun l => (hleads.outputPath hp hinPlace hsuffix hplain).eq_of_target hgrounded⟩

/-- With a plain suffix, no copy gets in the way unless two files share the name of their copies. -/
lemma copiesApart_of_not_sharesCopy {paths : List Path} (hgrounded : t.Grounded)
    (hcheck : s.check = .ok ()) (hinPlace : s.inPlace = false) (hplain : '/' ∉ s.suffix.toList)
    (hfiles : ∀ p ∈ paths, p.Writable ∧ t.isFile p = true ∧ s.isOutput p = false)
    (hshares : ∀ p ∈ paths, ∀ q ∈ paths, ¬t.SharesCopy p q) : t.CopiesApart s paths := by
  have hsuffix := suffix_ne_empty hcheck hinPlace
  intro p hp l contents hcopy q hq
  obtain ⟨hpwritable, hpfile, -⟩ := hfiles p hp
  obtain ⟨hqwritable, hqfile, hqoutput⟩ := hfiles q hq
  obtain ⟨folder, name, hlocate, hname, -, hplace⟩ :=
    exists_place hgrounded hinPlace hsuffix hplain hpwritable hpfile
  obtain ⟨folder', name', hlocate', hname', hfileName', hplace'⟩ :=
    exists_place hgrounded hinPlace hsuffix hplain hqwritable hqfile
  obtain ⟨m, repaired, report, hm, hrepair, hcontents, htarget⟩ := exists_of_copy? hinPlace hcopy
  obtain rfl := hplace l htarget
  constructor
  · intro hsource
    have hlast := List.append_inj' (Except.ok.inj (hlocate'.symm.trans hsource)) rfl
    obtain rfl : name' = s.copyOf name := List.singleton_inj.mp hlast.2
    have houtput := Settings.isOutput_of_copyOf hname hfileName' hinPlace hsuffix
    simp [hqoutput] at houtput
  · intro contents' hcopy'
    obtain ⟨m', repaired', report', hm', hrepair', hcontents', htarget'⟩ :=
      exists_of_copy? hinPlace hcopy'
    have hlast := List.append_inj' (hplace' _ htarget') rfl
    obtain rfl := hlast.1
    rcases Settings.copyOf_inj hname hname' (List.singleton_inj.mp hlast.2) with
      rfl | ⟨hnone, rfl⟩ | ⟨hnone, rfl⟩
    · have hsame := loadModel_of_locate_eq (hlocate.trans hlocate'.symm) hm
      obtain rfl := Except.ok.inj (hsame.symm.trans hm')
      rw [hrepair] at hrepair'
      rw [hcontents, hcontents', (Prod.mk.inj (Except.ok.inj hrepair')).1]
    · exact absurd ⟨_, name, hlocate, hlocate', hnone⟩ (hshares p hp q hq)
    · exact absurd ⟨_, name', hlocate', hlocate, hnone⟩ (hshares q hq p hp)

/-! ### Repairs one after another -/

/-- What is there after a file was repaired, or could not be. -/
def afterRepair (t : FileTree) (s : Settings) (p : Path) : FileTree :=
  match t.planRepair s p with
  | .ok plan => t.afterPlan plan
  | .error _ => t

lemma runEach_repairFile_cons (t : FileTree) (s : Settings) (p : Path) (rest : List Path) :
    (t.runEach (fun t p => t.repairFile s p) (p :: rest)).2 =
      ((t.afterRepair s p).runEach (fun t p => t.repairFile s p) rest).2 := by
  rw [runEach]
  cases hplan : t.planRepair s p with
  | error e => simp [repairFile, afterRepair, hplan, bind, Except.bind]
  | ok plan =>
    cases hcarry : t.carryOut plan <;>
      simp [repairFile, afterRepair, afterPlan, hplan, hcarry, bind, Except.bind, pure, Except.pure,
        Except.toOption]

lemma Copied.afterRepair {paths : List Path} (h : t.Copied s done t')
    (hgrounded : t.Grounded) (hdone : ∀ p ∈ done, p ∈ paths) (hapart : t.CopiesApart s paths)
    (hq : q ∈ paths) (hfile : t.isFile q = true) :
    t.Copied s (q :: done) (t'.afterRepair s q) := by
  have hplan : t'.planRepair s q = t.planRepair s q :=
    planRepair_congr (h.contents?_eq hdone hapart hq hfile)
  unfold FileTree.afterRepair
  rw [hplan]
  split
  · rename_i plan hok
    exact h.afterPlan hgrounded hdone hapart hq hok
  · rename_i e herror
    exact h.cons_of_eq_none (by simp [copy?, herror, Except.toOption])

lemma Copied.runEach {paths rest : List Path} (h : t.Copied s done t')
    (hgrounded : t.Grounded) (hapart : t.CopiesApart s paths)
    (hfiles : ∀ p ∈ paths, t.isFile p = true) (hdone : ∀ p ∈ done, p ∈ paths)
    (hrest : ∀ p ∈ rest, p ∈ paths) :
    t.Copied s (rest.reverse ++ done) (t'.runEach (fun t p => t.repairFile s p) rest).2 := by
  induction rest generalizing t' done with
  | nil => exact h
  | cons q rest ih =>
    obtain ⟨hq, hrest⟩ := List.forall_mem_cons.mp hrest
    rw [runEach_repairFile_cons, List.reverse_cons, List.append_assoc, List.singleton_append]
    exact ih (h.afterRepair hgrounded hdone hapart hq (hfiles q hq))
      (List.forall_mem_cons.mpr ⟨hq, hdone⟩) hrest

lemma copied_repairFiles {paths : List Path} (hgrounded : t.Grounded)
    (hapart : t.CopiesApart s paths) (hfiles : ∀ p ∈ paths, t.isFile p = true) :
    t.Copied s paths (t.repairFiles s paths).2 :=
  ((Copied.nil t s).runEach hgrounded hapart hfiles nofun fun _ => id).congr (by simp)

end TensorGraph.FileTree
