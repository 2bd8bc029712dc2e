import TensorGraph.Files.Saving
import TensorGraph.Proofs.Files.Copies

/-!
# All or nothing

A repair either leaves all files as they were, or writes the repaired model to one file and leaves
all others as they were, whatever the disk refuses on the way.
-/

namespace TensorGraph

/-! ### Ends of actions -/

namespace DiskM

variable {ε ε' α β : Type} {t : FileTree} {Q : α → FileTree → Prop} {R : ε → FileTree → Prop}

/-- An action on a tree ends in one of two ways: it succeeds, or it fails. -/
def Ends (x : DiskM ε α) (t : FileTree) (Q : α → FileTree → Prop) (R : ε → FileTree → Prop) :
    Prop :=
  match x.runOn t with
  | (.ok a, t') => Q a t'
  | (.error e, t') => R e t'

lemma Ends.imp {x : DiskM ε α} {Q' : α → FileTree → Prop} {R' : ε → FileTree → Prop}
    (h : x.Ends t Q R) (hQ : ∀ a t', Q a t' → Q' a t') (hR : ∀ e t', R e t' → R' e t') :
    x.Ends t Q' R' := by
  unfold Ends at h ⊢
  split <;> rename_i hrun <;> rw [hrun] at h
  · exact hQ _ _ h
  · exact hR _ _ h

lemma Ends.of_ok {x : DiskM ε α} {a : α} {t' : FileTree} (h : x.Ends t Q R)
    (hrun : x.runOn t = (.ok a, t')) : Q a t' := by
  unfold Ends at h
  rwa [hrun] at h

lemma Ends.of_error {x : DiskM ε α} {e : ε} {t' : FileTree} (h : x.Ends t Q R)
    (hrun : x.runOn t = (.error e, t')) : R e t' := by
  unfold Ends at h
  rwa [hrun] at h

lemma Ends.runOn_eq {x : DiskM ε α} {a : α} {t' : FileTree}
    (h : x.Ends t (fun b t'' => b = a ∧ t'' = t') fun _ _ => False) : x.runOn t = (.ok a, t') := by
  unfold Ends at h
  split at h
  · rename_i hrun
    rw [hrun, h.1, h.2]
  · exact h.elim

@[simp] lemma ends_pure {a : α} : (pure a : DiskM ε α).Ends t Q R ↔ Q a t := Iff.rfl

@[simp] lemma ends_throw {e : ε} : (throw e : DiskM ε α).Ends t Q R ↔ R e t := Iff.rfl

@[simp] lemma ends_get {Q : FileTree → FileTree → Prop} :
    (get : DiskM ε FileTree).Ends t Q R ↔ Q t t := Iff.rfl

@[simp] lemma ends_set {Q : PUnit → FileTree → Prop} {t' : FileTree} :
    (set t' : DiskM ε PUnit).Ends t Q R ↔ Q ⟨⟩ t' := Iff.rfl

@[simp] lemma ends_modify {Q : PUnit → FileTree → Prop} {f : FileTree → FileTree} :
    (modify f : DiskM ε PUnit).Ends t Q R ↔ Q ⟨⟩ (f t) := Iff.rfl

@[simp] lemma ends_ofExcept {r : Except ε α} :
    (MonadExcept.ofExcept r : DiskM ε α).Ends t Q R ↔
      (∀ a, r = .ok a → Q a t) ∧ ∀ e, r = .error e → R e t := by
  cases r <;> simp [MonadExcept.ofExcept]

@[simp] lemma ends_bind {x : DiskM ε β} {f : β → DiskM ε α} :
    (x >>= f).Ends t Q R ↔ x.Ends t (fun b t' => (f b).Ends t' Q R) R := by
  unfold Ends runOn
  rw [ExceptT.run_bind, StateT.run_bind]
  rcases x.run.run t with ⟨_ | b, t'⟩ <;> rfl

@[simp] lemma ends_map {x : DiskM ε β} {f : β → α} :
    (f <$> x).Ends t Q R ↔ x.Ends t (fun b t' => Q (f b) t') R := by
  rw [map_eq_pure_bind, ends_bind]
  rfl

@[simp] lemma ends_tryCatch {x : DiskM ε α} {handle : ε → DiskM ε α} :
    (tryCatch x handle).Ends t Q R ↔ x.Ends t Q fun e t' => (handle e).Ends t' Q R := by
  unfold Ends runOn
  rw [ExceptT.run_tryCatch, StateT.run_bind]
  rcases x.run.run t with ⟨_ | b, t'⟩ <;> rfl

@[simp] lemma ends_adapt {x : DiskM ε' α} {f : ε' → ε} :
    Ends (x.adapt f) t Q R ↔ x.Ends t Q fun e t' => R (f e) t' := by
  unfold Ends runOn
  rw [ExceptT.run_adapt, StateT.run_map]
  rcases x.run.run t with ⟨_ | b, t'⟩ <;> rfl

end DiskM

/-! ### Temporary files -/

namespace FileTree

variable {t t' : FileTree} {l temp : Location} {p dest : Path} {contents : Bytes}

lemma replaceAt_eq_append {files : List (Location × Bytes)} (h : ∀ file ∈ files, file.1 ≠ l) :
    replaceAt l contents files = files ++ [(l, contents)] := by
  induction files with
  | nil => rfl
  | cons file rest ih =>
    obtain ⟨hfile, hrest⟩ := List.forall_mem_cons.mp h
    rw [replaceAt, if_neg hfile, ih hrest, List.cons_append]

lemma put_put (t : FileTree) (l : Location) (old contents : Bytes) :
    (t.put l old).put l contents = t.put l contents := by
  have h : ∀ files, replaceAt l contents (replaceAt l old files) = replaceAt l contents files := by
    intro files
    induction files with
    | nil => simp [replaceAt]
    | cons file rest ih =>
      obtain ⟨m, other⟩ := file
      by_cases hm : m = l <;> simp [replaceAt, hm, ih]
  simp only [put, h]

lemma erase_put (h : t.fileAt? l = none) : (t.put l contents).erase l = t := by
  have hfiles := fileAt?_eq_none_iff.mp h
  rw [put, replaceAt_eq_append hfiles, erase, List.filter_append,
    List.filter_eq_self.mpr (by simpa using hfiles)]
  simp

lemma move_put (h : t.fileAt? temp = none) :
    (t.put temp contents).move temp l = t.put l contents := by
  unfold move
  split_ifs with heq
  · rw [heq]
  · simp [fileAt?_put, erase_put h]

/-- A name in a folder that is not in use. -/
structure Fresh (t : FileTree) (temp : Location) : Prop where
  unused : t.existsAt temp = false
  inFolder : ∃ folder name, temp = folder ++ [name] ∧ t.isFolderAt folder = true

lemma Fresh.fileAt?_eq_none (h : t.Fresh temp) : t.fileAt? temp = none := by
  simpa [existsAt] using (Bool.or_eq_false_iff.mp h.unused).1

lemma Fresh.extends_put (h : t.Fresh temp) (contents : Bytes) :
    t.Extends (t.put temp contents) := by
  obtain ⟨folder, name, rfl, hfolder⟩ := h.inFolder
  exact FileTree.extends_put contents hfolder (Bool.or_eq_false_iff.mp h.unused).2

lemma folderAt_eq_ok_iff : t.folderAt p = .ok l ↔ t.locate p = .ok l ∧ t.isFolderAt l = true := by
  unfold folderAt
  rw [bind_eq_ok_iff]
  constructor
  · rintro ⟨m, hm, hfolder⟩
    split_ifs at hfolder with hm'
    obtain rfl := Except.ok.inj hfolder
    exact ⟨hm, hm'⟩
  · exact fun ⟨hl, hfolder⟩ => ⟨l, hl, if_pos hfolder⟩

lemma fresh_of_temporaryIn {made : TemporaryFile} {folder : Path}
    (h : t.temporaryIn folder = .ok made) : t.Fresh made.place := by
  unfold temporaryIn at h
  split at h
  · cases h
  · rename_i l hfolder
    split at h
    · rename_i tag hfound
      obtain rfl := Except.ok.inj h
      exact ⟨by simpa using List.find?_some hfound, l, _, rfl, (folderAt_eq_ok_iff.mp hfolder).2⟩
    · cases h

/-- The folder of a destination is where its name is looked up. -/
lemma LeadsTo.locate_folder {init : List String} {folder : Location} {name : String}
    (h : t.LeadsTo dest init folder name) : t.locate dest.folder = .ok folder := by
  have hkept := follow_front h.segments h.follow
  unfold Path.folder
  rcases Path.parent_eq h.segments h.isName with
    ⟨hparent, hfront⟩ | ⟨hparent, hfront⟩ | ⟨hparent, hne, hlast⟩
  · -- The path is a name alone, and its folder is where it starts.
    have hrelative : dest.isAbsolute = false := by
      rw [Bool.eq_false_iff]
      intro habsolute
      simp [Path.front, habsolute] at hfront
    rw [hfront, start, if_neg (by simp [hrelative])] at hkept
    obtain rfl := Except.ok.inj hkept
    rw [hparent, if_pos (by decide), locate_eq_follow (List.mem_singleton_self ".") (by decide)]
    exact follow_singleton.mpr ⟨h.isFolder, .inl ⟨.inr rfl, rfl⟩⟩
  · -- The folder is the root, which is written with a slash.
    have habsolute : dest.isAbsolute = true := by
      by_contra hrelative
      rw [Path.front, if_neg hrelative] at hfront
      exact Path.getLast?_dropIdle true init (by simp [hfront])
    rw [hfront, start, if_pos habsolute] at hkept
    obtain ⟨hroot, -⟩ := follow_singleton.mp hkept
    rw [hparent, if_neg (by decide)]
    exact follow_cons_eq_ok_iff.mpr
      ⟨[], follow_singleton.mpr ⟨hroot, .inl ⟨.inl rfl, rfl⟩⟩, hkept⟩
  · obtain ⟨kept, last, hconcat⟩ := (List.eq_nil_or_concat (dest.front init)).resolve_left hne
    rw [List.concat_eq_append] at hconcat
    have hmem : last ∈ dest.front init := by simp [hconcat]
    have hempty : last ≠ "" := by
      rintro rfl
      exact hlast (by simp [hconcat])
    have hstart : t.start ⟨dest.front init⟩ = t.start dest := by
      rw [start, Path.isAbsolute_front h.segments hlast, start]
    have htext : (Path.text ⟨dest.front init⟩).isEmpty = false := Path.text_isEmpty hmem hempty
    have hlocate : t.locate ⟨dest.front init⟩ = t.follow (t.start ⟨dest.front init⟩) _ :=
      locate_eq_follow hmem hempty
    rw [hparent, htext, if_neg Bool.false_ne_true, hlocate, hstart]
    exact hkept

lemma exists_temporaryIn {folder : Path} (hlocate : t.locate folder = .ok l)
    (hfolder : t.isFolderAt l = true)
    (htags : ∃ tag ∈ t.tags, t.existsAt (l ++ [".tmp" ++ tag]) = false) :
    ∃ made, t.temporaryIn folder = .ok made := by
  have hfound : (t.tags.find? fun tag => !t.existsAt (l ++ [".tmp" ++ tag])).isSome := by
    simpa using htags
  obtain ⟨tag, htag⟩ := Option.isSome_iff_exists.mp hfound
  refine ⟨⟨l ++ [".tmp" ++ tag], t.temporaryPath folder tag⟩, ?_⟩
  simp [temporaryIn, folderAt_eq_ok_iff.mpr ⟨hlocate, hfolder⟩, htag]

/-! ### What is written -/

/-- A temporary file does not change where a file is written, even if it is that file itself. -/
lemma Fresh.target_put_iff (h : t.Fresh temp) (contents : Bytes) :
    (t.put temp contents).target dest = .ok l ↔ t.target dest = .ok l := by
  have hextends := h.extends_put contents
  have hthere : (t.put temp contents).existsAt temp = true := by simp [existsAt, fileAt?_put]
  simp only [target_eq_ok_iff_or, hextends.leadsTo_iff]
  constructor
  · rintro (⟨hlocate, hfile⟩ | ⟨init, folder, name, hleads, hexists, rfl⟩)
    · by_cases hl : l = temp
      · subst hl
        have hnofolder : (t.put l contents).isFolderAt l = false :=
          (hextends.isFolderAt l).trans (Bool.or_eq_false_iff.mp h.unused).2
        obtain ⟨init, folder, name, hleads, rfl⟩ := leadsTo_of_locate hlocate hnofolder
        exact .inr ⟨init, folder, name, hextends.leadsTo_iff.mp hleads, h.unused, rfl⟩
      · rw [fileAt?_put, if_neg hl] at hfile
        exact .inl ⟨hextends.locate_of_existsAt hlocate (by simp [existsAt, hfile]), hfile⟩
    · refine .inr ⟨init, folder, name, hleads, ?_, rfl⟩
      by_contra hbefore
      exact absurd (hextends.existsAt (Bool.not_eq_false _ ▸ hbefore)) (by simp [hexists])
  · rintro (⟨hlocate, hfile⟩ | ⟨init, folder, name, hleads, hexists, rfl⟩)
    · exact .inl ⟨hextends.locate hlocate, hextends.isSome l hfile⟩
    · by_cases hname : folder ++ [name] = temp
      · subst hname
        have hlocate := (hextends.leadsTo_iff.mpr hleads).locate_of_existsAt hthere
        exact .inl ⟨hlocate, by simp [fileAt?_put]⟩
      · refine .inr ⟨init, folder, name, hleads, ?_, rfl⟩
        rw [existsAt, hextends.isFolderAt, fileAt?_put, if_neg hname]
        exact hexists

/-- A tree that differs from an earlier one in one file only, to which a path leads. -/
structure Rewritten (t : FileTree) (dest : Path) (contents : Bytes) (t' : FileTree) : Prop where
  contents? : t'.contents? dest = .ok (some contents)
  others : ∀ l, t'.locate dest ≠ .ok l → t'.fileAt? l = t.fileAt? l
  folders : ∀ l, t'.isFolderAt l = t.isFolderAt l

lemma rewritten_of_write (h : t.write dest contents = .ok t') : t.Rewritten dest contents t' := by
  obtain ⟨l, htarget, rfl⟩ := map_eq_ok_iff.mp h
  have hlocate := locate_put_target htarget contents
  refine ⟨?_, fun m hm => ?_, (extends_put_target htarget contents).isFolderAt⟩
  · simp [FileTree.contents?, hlocate, fileAt?_put, Except.map]
  · rw [fileAt?_put, if_neg]
    rintro rfl
    exact hm hlocate

end FileTree

/-! ### One step of saving after another -/

namespace Disk

variable {d : Disk} {t : FileTree} {temp : TemporaryFile} {p dest : Path} {contents : Bytes}

@[simp] lemma ends_refuse {reason? : Option String} {Q : Unit → FileTree → Prop}
    {R : String → FileTree → Prop} :
    (refuse reason?).Ends t Q R ↔
      (reason? = none → Q () t) ∧ ∀ reason, reason? = some reason → R reason t := by
  cases reason? <;> simp [refuse]

lemma createIn_ends : (d.createIn p).Ends t
    (fun temp t' => t.Fresh temp.place ∧ t' = t.put temp.place []) fun _ t' => t' = t := by
  simp only [createIn, DiskM.ends_bind, ends_refuse, DiskM.ends_get, DiskM.ends_ofExcept,
    DiskM.ends_set, DiskM.ends_pure, and_true, implies_true]
  exact fun _ temp htemp => FileTree.fresh_of_temporaryIn htemp

lemma fill_ends (old : Bytes) :
    (d.fill temp contents).Ends (t.put temp.place old) (fun _ t' => t' = t.put temp.place contents)
      fun _ t' => ∃ kept, t' = t.put temp.place kept := by
  unfold fill
  split
  · simp [FileTree.put_put]
  · simp [FileTree.put_put]

lemma moveTo_ends (h : t.Fresh temp.place) :
    (d.moveTo temp dest).Ends (t.put temp.place contents)
      (fun _ t' => t.write dest contents = .ok t') fun _ t' => t' = t.put temp.place contents := by
  simp only [moveTo, DiskM.ends_bind, ends_refuse, DiskM.ends_get, DiskM.ends_ofExcept,
    DiskM.ends_set, mapError_eq_ok_iff, implies_true, and_true, h.target_put_iff]
  intro _ l hl
  rw [FileTree.move_put h.fileAt?_eq_none, FileTree.write, hl]
  rfl

lemma complete_ends (h : t.Fresh temp.place) (old : Bytes) :
    (d.complete temp dest contents).Ends (t.put temp.place old)
      (fun _ t' => t.write dest contents = .ok t')
      fun _ t' => ∃ kept, t' = t.put temp.place kept := by
  simp only [complete, DiskM.ends_bind, ends_refuse]
  refine (fill_ends old).imp ?_ fun _ _ hkept => hkept
  rintro _ _ rfl
  exact ⟨fun _ => (moveTo_ends h).imp (fun _ _ hwrite => hwrite) fun _ _ hsame => ⟨_, hsame⟩,
    fun _ _ => ⟨contents, rfl⟩⟩

lemma save_ends : (d.save dest contents).Ends t (fun _ t' => t.write dest contents = .ok t')
    fun _ t' => t' = t := by
  simp only [save, DiskM.ends_bind, DiskM.ends_tryCatch, DiskM.ends_modify, DiskM.ends_throw]
  refine createIn_ends.imp ?_ fun _ _ hsame => hsame
  rintro temp _ ⟨hfresh, rfl⟩
  refine (complete_ends hfresh []).imp (fun _ _ hwrite => hwrite) ?_
  rintro _ _ ⟨kept, rfl⟩
  exact FileTree.erase_put hfresh.fileAt?_eq_none

example :
    let t : FileTree := { files := [(["net.onnx"], [8]), ([".tmpa"], [])], tags := ["a", "b"] }
    let d : Disk := { moving? := some "Operation not permitted (os error 1)" }
    (d.save ⟨["net.onnx"]⟩ [8, 7]).runOn t =
      (.error "Operation not permitted (os error 1)", t) := rfl

lemma carryOut_ends {plan : RepairPlan} :
    (d.carryOut plan).Ends t (fun _ t' => t.carryOut plan = .ok t') fun _ t' => t' = t := by
  cases hwrite : plan.write? with
  | none => simp [carryOut, FileTree.carryOut, hwrite]
  | some write =>
    simp only [carryOut, FileTree.carryOut, FileTree.save, hwrite, DiskM.ends_adapt,
      mapError_eq_ok_iff]
    exact save_ends

/-- A repair that goes step by step ends like one that writes at once, or has done nothing. -/
lemma repairFile_ends {s : Settings} : (d.repairFile s p).Ends t
    (fun r t' => t.repairFile s p = .ok (r, t')) fun _ t' => t' = t := by
  simp only [repairFile, DiskM.ends_bind, DiskM.ends_adapt, ends_refuse, DiskM.ends_get,
    DiskM.ends_ofExcept, DiskM.ends_pure, implies_true, and_true]
  intro _ plan hplan
  refine carryOut_ends.imp (fun _ t' hcarry => ?_) fun _ _ hsame => hsame
  simp [FileTree.repairFile, hplan, hcarry, bind, Except.bind, pure, Except.pure]

/-- Whatever a disk refuses, a repair that fails leaves all files as they were, and so does one that
writes nothing. One that writes puts the repaired model where it says, and leaves all other files
as they were. -/
theorem repairFile_allOrNothing (d : Disk) (t : FileTree) (s : Settings) (p : Path) :
    match (d.repairFile s p).runOn t with
    | (.error _, t') => t' = t
    | (.ok r, t') =>
      t.repairFile s p = .ok (r, t') ∧
        match r.written? with
        | none => t' = t
        | some dest =>
          dest = s.outputPath p ∧ ∃ contents m repaired, t.contents? p = .ok (some contents) ∧
            Model.decode contents = .ok m ∧ m.repair s = .ok (repaired, r.report) ∧
            t.Rewritten dest repaired.encode t' := by
  have hends := repairFile_ends (d := d) (t := t) (s := s) (p := p)
  split
  · rename_i hrun
    exact hends.of_error hrun
  · rename_i r t' hrun
    have hrepaired := hends.of_ok hrun
    refine ⟨hrepaired, ?_⟩
    obtain ⟨plan, hplan, hrest⟩ := bind_eq_ok_iff.mp hrepaired
    obtain ⟨_, hcarry, hresult⟩ := bind_eq_ok_iff.mp hrest
    obtain ⟨rfl, rfl⟩ := Prod.mk.inj (Except.ok.inj hresult)
    obtain ⟨m, repaired, hm, hrepair, hwrite⟩ := FileTree.planRepair_eq_ok_iff.mp hplan
    obtain ⟨contents, hcontents, -, hdecode⟩ := FileTree.loadModel_eq_ok_iff.mp hm
    unfold FileTree.carryOut at hcarry
    split at hcarry
    · rename_i hnone
      obtain rfl := Except.ok.inj hcarry
      simp [hnone]
    · rename_i dest bytes hsome
      rw [hsome] at hwrite ⊢
      split_ifs at hwrite
      obtain ⟨hdest, hbytes⟩ := Prod.mk.inj (Option.some.inj hwrite)
      rw [hdest, hbytes] at hcarry
      refine ⟨hdest, contents, m, repaired, hcontents, hdecode, hrepair, ?_⟩
      rw [hdest]
      exact FileTree.rewritten_of_write (mapError_eq_ok_iff.mp (mapError_eq_ok_iff.mp hcarry))

/-! ### Repairs that are not refused -/

/-- A disk that refuses nothing, and has a name for a temporary file in each folder. -/
structure Willing (d : Disk) (t : FileTree) : Prop where
  reading : d.reading? = none
  creating : d.creating? = none
  filling : d.filling? = none
  flushing : d.flushing? = none
  moving : d.moving? = none
  free : ∀ folder, ∃ tag ∈ t.tags, t.existsAt (folder ++ [".tmp" ++ tag]) = false

lemma Willing.save_ends (hd : d.Willing t) (hgrounded : t.Grounded) {t' : FileTree}
    (hwrite : t.write dest contents = .ok t') :
    (d.save dest contents).Ends t (fun _ t'' => t'' = t') fun _ _ => False := by
  obtain ⟨l, htarget, rfl⟩ := map_eq_ok_iff.mp hwrite
  obtain ⟨init, folder, name, hleads, -, -⟩ := (FileTree.target_eq_ok_iff hgrounded).mp htarget
  obtain ⟨temp, htemp⟩ :=
    FileTree.exists_temporaryIn hleads.locate_folder hleads.isFolder (hd.free folder)
  have hfresh := FileTree.fresh_of_temporaryIn htemp
  have htarget' := (hfresh.target_put_iff contents).mpr htarget
  simp [save, createIn, complete, fill, moveTo, hd.creating, hd.filling, hd.flushing, hd.moving,
    htemp, FileTree.put_put, htarget', Except.mapError, FileTree.move_put hfresh.fileAt?_eq_none]

/-- Unless the disk refuses something, a repair that goes step by step ends like one that writes at
once. -/
theorem Willing.runOn_eq_ok_iff (hd : d.Willing t) (hgrounded : t.Grounded) {s : Settings}
    {r : FileRepair} {t' : FileTree} :
    (d.repairFile s p).runOn t = (.ok r, t') ↔ t.repairFile s p = .ok (r, t') := by
  refine ⟨fun hrun => repairFile_ends.of_ok hrun, fun h => DiskM.Ends.runOn_eq ?_⟩
  obtain ⟨plan, hplan, hrest⟩ := bind_eq_ok_iff.mp h
  obtain ⟨after, hcarry, hresult⟩ := bind_eq_ok_iff.mp hrest
  obtain ⟨rfl, rfl⟩ := Prod.mk.inj (Except.ok.inj hresult)
  have hdone : (d.carryOut plan).Ends t (fun _ t' => t' = after) fun _ _ => False := by
    cases hwrite : plan.write? with
    | none => simpa [carryOut, FileTree.carryOut, hwrite] using hcarry
    | some write =>
      simp only [FileTree.carryOut, FileTree.save, hwrite, mapError_eq_ok_iff] at hcarry
      simp only [carryOut, hwrite, DiskM.ends_adapt]
      exact hd.save_ends hgrounded hcarry
  simp [repairFile, hd.reading, hplan, hdone]

end Disk

end TensorGraph
