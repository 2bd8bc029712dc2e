import TensorGraph.Files.Tree
import TensorGraph.Proofs.Files.PathText
import TensorGraph.Proofs.Results

/-!
# Places in a tree

A path to a file is a way to a folder and a name in it. A tree that has grown by files, put into
folders that are there, has the same folders, and each path leads to the same place as before.
-/

namespace TensorGraph.FileTree

open TensorGraph.Path (IsName)

variable {t t' t'' : FileTree} {l m : Location} {p : Path} {segments : List String}

/-! ### Contents -/

lemma lookup_replaceAt (l : Location) (contents : Bytes) (files : List (Location × Bytes))
    (m : Location) :
    (replaceAt l contents files).lookup m = if m = l then some contents else files.lookup m := by
  induction files with
  | nil =>
    by_cases hm : m = l
    · simp [replaceAt, hm]
    · simp [replaceAt, List.lookup_cons, hm, beq_false_of_ne hm]
  | cons x rest ih =>
    obtain ⟨n, old⟩ := x
    rw [replaceAt]
    split
    · rename_i hn
      subst hn
      by_cases hm : m = n
      · simp [hm]
      · simp [List.lookup_cons, hm, beq_false_of_ne hm]
    · rename_i hn
      by_cases hm : m = n
      · simp [hm, hn]
      · simp [List.lookup_cons, beq_false_of_ne hm, ih]

lemma fileAt?_put (t : FileTree) (l : Location) (contents : Bytes) (m : Location) :
    (t.put l contents).fileAt? m = if m = l then some contents else t.fileAt? m :=
  lookup_replaceAt l contents t.files m

lemma isSome_fileAt?_put {contents : Bytes} (hm : (t.fileAt? m).isSome) :
    ((t.put l contents).fileAt? m).isSome := by
  rw [fileAt?_put]
  split
  · rfl
  · exact hm

lemma fileAt?_eq_none_iff : t.fileAt? l = none ↔ ∀ file ∈ t.files, file.1 ≠ l := by
  simp only [fileAt?, List.lookup_eq_none_iff, bne_iff_ne, ne_comm]

lemma mem_map_replaceAt {contents : Bytes} {files : List (Location × Bytes)} :
    m ∈ (replaceAt l contents files).map Prod.fst ↔ m = l ∨ m ∈ files.map Prod.fst := by
  induction files with
  | nil => simp [replaceAt]
  | cons x rest ih =>
    obtain ⟨n, old⟩ := x
    rw [replaceAt]
    split
    · rename_i hn
      simp [hn]
    · simp only [List.map_cons, List.mem_cons, ih]
      tauto

lemma mem_listed_put {contents : Bytes} :
    m ∈ (t.put l contents).listed ↔ m = l ∨ m ∈ t.listed := by
  simp only [listed, put, List.mem_cons, List.mem_append, mem_map_replaceAt]
  tauto

lemma isFolderAt_iff :
    t.isFolderAt l = true ↔ l <+: t.base ∨ t.fileAt? l = none ∧ ∃ m ∈ t.listed, l <+: m := by
  simp [isFolderAt]

/-- There is no file where the working directory is, or on the way there. -/
def Grounded (t : FileTree) : Prop := ∀ l, l <+: t.base → t.fileAt? l = none

lemma grounded_of_root (hbase : t.base = []) (hroot : t.fileAt? [] = none) : t.Grounded := by
  intro l hl
  rw [hbase] at hl
  rwa [List.prefix_nil.mp hl]

/-! ### Growing trees -/

/-- A tree with the same folders, and with files wherever there were some. -/
structure Extends (t t' : FileTree) : Prop where
  base : t'.base = t.base
  isFolderAt : ∀ l, t'.isFolderAt l = t.isFolderAt l
  isSome : ∀ l, (t.fileAt? l).isSome → (t'.fileAt? l).isSome
  grounded : t.Grounded → t'.Grounded

lemma Extends.refl (t : FileTree) : t.Extends t := ⟨rfl, fun _ => rfl, fun _ => id, id⟩

lemma Extends.trans (h : t.Extends t') (h' : t'.Extends t'') : t.Extends t'' where
  base := h'.base.trans h.base
  isFolderAt l := (h'.isFolderAt l).trans (h.isFolderAt l)
  isSome l hl := h'.isSome l (h.isSome l hl)
  grounded hgrounded := h'.grounded (h.grounded hgrounded)

lemma Extends.start (h : t.Extends t') (p : Path) : t'.start p = t.start p := by
  unfold FileTree.start
  rw [h.base]

lemma Extends.existsAt (h : t.Extends t') (hl : t.existsAt l = true) : t'.existsAt l = true := by
  simp only [FileTree.existsAt, Bool.or_eq_true, h.isFolderAt] at hl ⊢
  exact hl.imp_left (h.isSome l)

/-- Writing into a folder changes no folder. -/
lemma extends_put {folder : Location} {name : String} (contents : Bytes)
    (hfolder : t.isFolderAt folder = true) (hname : t.isFolderAt (folder ++ [name]) = false) :
    t.Extends (t.put (folder ++ [name]) contents) where
  base := rfl
  isFolderAt l := by
    have hbase : ¬folder ++ [name] <+: t.base := fun h =>
      absurd (isFolderAt_iff.mpr (.inl h)) (Bool.eq_false_iff.mp hname)
    by_cases hl : l = folder ++ [name]
    · rw [hl, hname]
      rw [Bool.eq_false_iff, ne_eq, isFolderAt_iff, fileAt?_put, if_pos rfl]
      rintro (h | ⟨h, -⟩)
      · exact hbase h
      · cases h
    · rw [Bool.eq_iff_iff, isFolderAt_iff, isFolderAt_iff, fileAt?_put, if_neg hl]
      refine or_congr_right (and_congr_right fun hnone => ?_)
      constructor
      · rintro ⟨m, hm, hprefix⟩
        rcases mem_listed_put.mp hm with rfl | hm
        · have hprefix : l <+: folder := (List.prefix_concat_iff.mp hprefix).resolve_left hl
          rcases isFolderAt_iff.mp hfolder with hbase | ⟨-, m, hm, hfolder⟩
          · exact ⟨t.base, List.mem_cons_self, hprefix.trans hbase⟩
          · exact ⟨m, hm, hprefix.trans hfolder⟩
        · exact ⟨m, hm, hprefix⟩
      · exact fun ⟨m, hm, hprefix⟩ => ⟨m, mem_listed_put.mpr (.inr hm), hprefix⟩
  isSome _ := isSome_fileAt?_put
  grounded hgrounded l hl := by
    have hne : l ≠ folder ++ [name] := by
      rintro rfl
      have hfolder' : t.isFolderAt (folder ++ [name]) = true := isFolderAt_iff.mpr (.inl hl)
      exact absurd hfolder' (Bool.eq_false_iff.mp hname)
    rw [fileAt?_put, if_neg hne, hgrounded l hl]

/-- Writing over a file changes no folder. -/
lemma extends_put_of_isSome (h : (t.fileAt? l).isSome) (contents : Bytes) :
    t.Extends (t.put l contents) where
  base := rfl
  isFolderAt m := by
    have hlisted : l ∈ t.listed := by
      by_contra hnot
      have hnone : t.fileAt? l = none := fileAt?_eq_none_iff.mpr fun file hfile heq =>
        hnot (List.mem_cons_of_mem _
          (List.mem_append_left _ (List.mem_map.mpr ⟨file, hfile, heq⟩)))
      simp [hnone] at h
    have hsame : ∀ m, m ∈ (t.put l contents).listed ↔ m ∈ t.listed := fun m => by
      rw [mem_listed_put, or_iff_right_of_imp]
      rintro rfl
      exact hlisted
    have hfree : (t.put l contents).fileAt? m = none ↔ t.fileAt? m = none := by
      rw [fileAt?_put]
      split_ifs with hm
      · simp [hm, Option.ne_none_iff_isSome.mpr h]
      · rfl
    rw [Bool.eq_iff_iff, isFolderAt_iff, isFolderAt_iff]
    simp only [hsame, hfree]
    rfl
  isSome _ := isSome_fileAt?_put
  grounded hgrounded m hm := by
    rw [fileAt?_put, if_neg, hgrounded m hm]
    rintro rfl
    simp [hgrounded m hm] at h

/-! ### Following paths -/

lemma follow_append (t : FileTree) (l : Location) (front back : List String) :
    t.follow l (front ++ back) = (t.follow l front).bind fun m => t.follow m back := by
  induction front generalizing l with
  | nil => rfl
  | cons s front ih =>
    rw [List.cons_append, follow, follow]
    split_ifs <;> first | exact ih _ | rfl

lemma follow_append_eq_ok_iff {front back : List String} :
    t.follow l (front ++ back) = .ok m ↔
      ∃ folder, t.follow l front = .ok folder ∧ t.follow folder back = .ok m := by
  rw [follow_append]
  exact bind_eq_ok_iff

lemma follow_cons_eq_ok_iff {s : String} :
    t.follow l (s :: segments) = .ok m ↔
      ∃ next, t.follow l [s] = .ok next ∧ t.follow next segments = .ok m := by
  change t.follow l ([s] ++ segments) = .ok m ↔ _
  exact follow_append_eq_ok_iff

/-- What a single segment can do: it stays, goes up or goes on to a name that is there. -/
lemma follow_singleton {s : String} :
    t.follow l [s] = .ok m ↔ t.isFolderAt l = true ∧
      ((s = "" ∨ s = ".") ∧ l = m ∨ s = ".." ∧ l.dropLast = m ∨
        IsName s ∧ t.existsAt (l ++ [s]) = true ∧ l ++ [s] = m) := by
  by_cases hl : t.isFolderAt l = true
  · by_cases hidle : s = "" ∨ s = "."
    · have hname : ¬IsName s := fun h => hidle.elim h.ne_empty h.ne_here
      have hup : s ≠ ".." := by rcases hidle with rfl | rfl <;> decide
      simp [follow, hl, hidle, hname, hup]
    · by_cases hup : s = ".."
      · subst hup
        have hname : ¬IsName ".." := fun h => h.ne_up rfl
        simp [follow, hl, hname]
      · have hname : IsName s := ⟨fun h => hidle (.inl h), fun h => hidle (.inr h), hup⟩
        by_cases hexists : t.existsAt (l ++ [s]) = true <;>
          simp [follow, hl, hidle, hname, hup, hexists]
  · simp [follow, hl]

lemma Extends.follow (h : t.Extends t') (hfollow : t.follow l segments = .ok m) :
    t'.follow l segments = .ok m := by
  induction segments generalizing l with
  | nil => exact hfollow
  | cons s rest ih =>
    obtain ⟨next, hnext, hrest⟩ := follow_cons_eq_ok_iff.mp hfollow
    refine follow_cons_eq_ok_iff.mpr ⟨next, ?_, ih hrest⟩
    rw [follow_singleton, h.isFolderAt]
    rw [follow_singleton] at hnext
    exact hnext.imp_right (Or.imp_right (Or.imp_right fun ⟨hs, hl, hm⟩ => ⟨hs, h.existsAt hl, hm⟩))

lemma isFolderAt_of_follow_cons {s : String} (h : t.follow l (s :: segments) = .ok m) :
    t.isFolderAt l = true := by
  obtain ⟨next, hnext, -⟩ := follow_cons_eq_ok_iff.mp h
  exact (follow_singleton.mp hnext).1

lemma existsAt_of_isFolderAt (hl : t.isFolderAt l = true) : t.existsAt l = true := by
  simp [existsAt, hl]

/-- A grown tree has no more ways to what was there. -/
lemma Extends.follow_of_existsAt (h : t.Extends t') (hfollow : t'.follow l segments = .ok m)
    (hm : t.existsAt m = true) : t.follow l segments = .ok m := by
  induction segments generalizing l with
  | nil => exact hfollow
  | cons s rest ih =>
    obtain ⟨next, hnext, hrest⟩ := follow_cons_eq_ok_iff.mp hfollow
    refine follow_cons_eq_ok_iff.mpr ⟨next, ?_, ih hrest⟩
    -- Whatever is gone through is a folder, in both trees.
    have hexists : t.existsAt next = true := by
      cases rest with
      | nil => rwa [Except.ok.inj hrest]
      | cons s' rest =>
        exact existsAt_of_isFolderAt (h.isFolderAt next ▸ isFolderAt_of_follow_cons hrest)
    rw [follow_singleton, h.isFolderAt] at hnext
    rw [follow_singleton]
    exact hnext.imp_right (Or.imp_right (Or.imp_right fun ⟨hs, _, heq⟩ =>
      ⟨hs, heq.symm ▸ hexists, heq⟩))

lemma follow_name_eq_missing {name : String} (hname : IsName name) (hl : t.isFolderAt l = true)
    (hexists : t.existsAt (l ++ [name]) = false) : t.follow l [name] = .error .missing := by
  simp [follow, hl, hname.ne_empty, hname.ne_here, hname.ne_up, hexists]

/-- All that is on the way to a place is a folder. -/
lemma isFolderAt_of_prefix (hl : ∀ n, n <+: l → n ≠ l → t.isFolderAt n = true)
    (hfollow : t.follow l segments = .ok m) {n : Location} (hn : n <+: m) (hne : n ≠ m) :
    t.isFolderAt n = true := by
  induction segments generalizing l with
  | nil => exact hl n (Except.ok.inj hfollow ▸ hn) (Except.ok.inj hfollow ▸ hne)
  | cons s rest ih =>
    obtain ⟨next, hnext, hrest⟩ := follow_cons_eq_ok_iff.mp hfollow
    refine ih (fun n hn hne => ?_) hrest
    obtain ⟨hfolder, ⟨-, rfl⟩ | ⟨-, rfl⟩ | ⟨-, -, rfl⟩⟩ := follow_singleton.mp hnext
    · exact hl n hn hne
    · by_cases heq : n = l
      · exact heq ▸ hfolder
      · exact hl n (hn.trans (List.dropLast_prefix l)) heq
    · rcases List.prefix_concat_iff.mp hn with h | h
      · exact absurd h hne
      · by_cases hnl : n = l
        · exact hnl ▸ hfolder
        · exact hl n h hnl

/-! ### Places of paths -/

lemma locate_eq_follow {segment : String} (hsegment : segment ∈ p.segments) (hne : segment ≠ "") :
    t.locate p = t.follow (t.start p) p.segments := by
  rw [locate, Path.text_isEmpty hsegment hne, if_neg Bool.false_ne_true]

lemma isFolderAt_of_prefix_start {n : Location} (h : n <+: t.start p) :
    t.isFolderAt n = true := by
  refine isFolderAt_iff.mpr (.inl (h.trans ?_))
  unfold start
  split_ifs
  · exact List.nil_prefix
  · exact List.prefix_refl _

/-- A path leads to a name in a folder. Whether there is something of that name is left open. -/
structure LeadsTo (t : FileTree) (p : Path) (init : List String) (folder : Location)
    (name : String) : Prop where
  segments : p.segments = init ++ [name]
  isName : IsName name
  follow : t.follow (t.start p) init = .ok folder
  isFolder : t.isFolderAt folder = true

variable {init : List String} {folder : Location} {name : String}

lemma LeadsTo.text_isEmpty (h : t.LeadsTo p init folder name) : p.text.isEmpty = false :=
  Path.text_isEmpty (h.segments ▸ List.mem_append_right init List.mem_cons_self) h.isName.ne_empty

lemma LeadsTo.locate (h : t.LeadsTo p init folder name) :
    t.locate p = t.follow folder [name] := by
  rw [FileTree.locate, h.text_isEmpty, if_neg Bool.false_ne_true, h.segments, follow_append,
    h.follow]
  rfl

lemma LeadsTo.locate_of_existsAt (h : t.LeadsTo p init folder name)
    (hexists : t.existsAt (folder ++ [name]) = true) : t.locate p = .ok (folder ++ [name]) := by
  rw [h.locate, follow_singleton]
  exact ⟨h.isFolder, .inr (.inr ⟨h.isName, hexists, rfl⟩)⟩

lemma isFolderAt_eq_false_of_isSome (hgrounded : t.Grounded) (hl : (t.fileAt? l).isSome) :
    t.isFolderAt l = false := by
  rw [Bool.eq_false_iff, ne_eq, isFolderAt_iff]
  rintro (hbase | ⟨hnone, -⟩)
  · simp [hgrounded l hbase] at hl
  · simp [hnone] at hl

/-- What is no folder is a name in a folder. -/
lemma leadsTo_of_locate (hp : t.locate p = .ok l) (hl : t.isFolderAt l = false) :
    ∃ init folder name, t.LeadsTo p init folder name ∧ l = folder ++ [name] := by
  unfold locate at hp
  split_ifs at hp with hempty
  have hstart : ∀ n, n <+: t.start p → n ≠ t.start p → t.isFolderAt n = true :=
    fun n hn _ => isFolderAt_of_prefix_start hn
  rcases List.eq_nil_or_concat p.segments with hnil | ⟨init, name, hsegments⟩
  · rw [hnil] at hp
    obtain rfl := Except.ok.inj hp
    rw [isFolderAt_of_prefix_start (List.prefix_refl _)] at hl
    cases hl
  · rw [List.concat_eq_append] at hsegments
    rw [hsegments] at hp
    obtain ⟨folder, hinit, hlast⟩ := follow_append_eq_ok_iff.mp hp
    obtain ⟨hfolder, ⟨-, rfl⟩ | ⟨-, rfl⟩ | ⟨hname, -, rfl⟩⟩ := follow_singleton.mp hlast
    · simp [hfolder] at hl
    · have hup : t.isFolderAt folder.dropLast = true := by
        by_cases heq : folder.dropLast = folder
        · rwa [heq]
        · exact isFolderAt_of_prefix hstart hinit (List.dropLast_prefix folder) heq
      simp [hup] at hl
    · exact ⟨init, folder, name, ⟨hsegments, hname, hinit, hfolder⟩, rfl⟩

/-- A file can be written over a file, or under a name in a folder in which there is nothing of that
name. -/
lemma target_eq_ok_iff_or {d : Location} :
    t.target p = .ok d ↔ t.locate p = .ok d ∧ (t.fileAt? d).isSome ∨
      ∃ init folder name, t.LeadsTo p init folder name ∧
        t.existsAt (folder ++ [name]) = false ∧ d = folder ++ [name] := by
  constructor
  · intro h
    unfold target at h
    split at h
    · rename_i l hlocate
      split_ifs at h with hfile
      obtain rfl := Except.ok.inj h
      exact .inl ⟨hlocate, hfile⟩
    · rename_i hlocate
      split at h
      · cases h
      · rename_i name hlast
        split at h
        · cases h
        · rename_i hempty'
          obtain ⟨folder, hinit, hrest⟩ := bind_eq_ok_iff.mp h
          split_ifs at hrest with hfolder hempty hdots
          obtain rfl := Except.ok.inj hrest
          have hleads : t.LeadsTo p p.segments.dropLast folder name := by
            refine ⟨(List.dropLast_append_getLast? name hlast).symm,
              ⟨hempty, by simp_all, by simp_all⟩, hinit, by simpa using hfolder⟩
          refine .inr ⟨_, folder, name, hleads, ?_, rfl⟩
          -- Something of that name would have been found.
          by_contra hexists
          rw [hleads.locate_of_existsAt (Bool.not_eq_false _ ▸ hexists)] at hlocate
          cases hlocate
    · cases h
  · unfold target
    rintro (⟨hlocate, hfile⟩ | ⟨init, folder, name, hleads, hexists, rfl⟩)
    · simp [hlocate, hfile]
    · rw [hleads.locate, follow_name_eq_missing hleads.isName hleads.isFolder hexists]
      simp [hleads.segments, hleads.text_isEmpty, hleads.follow, hleads.isFolder,
        hleads.isName.ne_empty, hleads.isName.ne_here, hleads.isName.ne_up, bind, Except.bind]

/-- A file can be written wherever a path leads to a name in a folder, unless there is a folder of
that name. -/
lemma target_eq_ok_iff (hgrounded : t.Grounded) {d : Location} :
    t.target p = .ok d ↔ ∃ init folder name, t.LeadsTo p init folder name ∧
      t.isFolderAt (folder ++ [name]) = false ∧ d = folder ++ [name] := by
  rw [target_eq_ok_iff_or]
  constructor
  · rintro (⟨hlocate, hfile⟩ | ⟨init, folder, name, hleads, hexists, rfl⟩)
    · have hnofolder := isFolderAt_eq_false_of_isSome hgrounded hfile
      obtain ⟨init, folder, name, hleads, rfl⟩ := leadsTo_of_locate hlocate hnofolder
      exact ⟨init, folder, name, hleads, hnofolder, rfl⟩
    · exact ⟨init, folder, name, hleads, (Bool.or_eq_false_iff.mp hexists).2, rfl⟩
  · rintro ⟨init, folder, name, hleads, hnofolder, rfl⟩
    by_cases hexists : t.existsAt (folder ++ [name]) = true
    · have hfile : (t.fileAt? (folder ++ [name])).isSome := by
        simpa [existsAt, hnofolder] using hexists
      exact .inl ⟨hleads.locate_of_existsAt hexists, hfile⟩
    · exact .inr ⟨init, folder, name, hleads, Bool.not_eq_true _ ▸ hexists, rfl⟩

lemma isFile_iff : t.isFile p = true ↔ ∃ l, t.locate p = .ok l ∧ (t.fileAt? l).isSome := by
  unfold isFile contents?
  cases hp : t.locate p with
  | error e => simp [Except.map]
  | ok l => cases hl : t.fileAt? l <;> simp [Except.map, hl]

lemma Extends.leadsTo_iff (h : t.Extends t') :
    t'.LeadsTo p init folder name ↔ t.LeadsTo p init folder name := by
  constructor
  · intro h'
    have hfolder : t.isFolderAt folder = true := h.isFolderAt folder ▸ h'.isFolder
    have hfollow := h.follow_of_existsAt h'.follow (existsAt_of_isFolderAt hfolder)
    exact ⟨h'.segments, h'.isName, h.start p ▸ hfollow, hfolder⟩
  · intro h'
    have hfollow := h.follow h'.follow
    exact ⟨h'.segments, h'.isName, (h.start p).symm ▸ hfollow,
      (h.isFolderAt folder).trans h'.isFolder⟩

lemma Extends.target_eq_ok_iff (h : t.Extends t') (hgrounded : t.Grounded) {d : Location} :
    t'.target p = .ok d ↔ t.target p = .ok d := by
  rw [FileTree.target_eq_ok_iff hgrounded, FileTree.target_eq_ok_iff (h.grounded hgrounded)]
  simp only [h.leadsTo_iff, h.isFolderAt]

lemma Extends.locate (h : t.Extends t') (hp : t.locate p = .ok l) : t'.locate p = .ok l := by
  unfold FileTree.locate at hp ⊢
  rw [h.start]
  split_ifs at hp ⊢
  exact h.follow hp

lemma Extends.locate_of_existsAt (h : t.Extends t') (hp : t'.locate p = .ok l)
    (hl : t.existsAt l = true) : t.locate p = .ok l := by
  unfold FileTree.locate at hp ⊢
  rw [h.start] at hp
  split_ifs at hp ⊢
  exact h.follow_of_existsAt hp hl

lemma extends_put_target (h : t.target p = .ok l) (contents : Bytes) :
    t.Extends (t.put l contents) := by
  obtain ⟨-, hfile⟩ | ⟨init, folder, name, hleads, hexists, rfl⟩ := target_eq_ok_iff_or.mp h
  · exact extends_put_of_isSome hfile contents
  · exact extends_put contents hleads.isFolder (Bool.or_eq_false_iff.mp hexists).2

lemma locate_put_target (h : t.target p = .ok l) (contents : Bytes) :
    (t.put l contents).locate p = .ok l := by
  have hextends := extends_put_target h contents
  obtain ⟨hlocate, -⟩ | ⟨init, folder, name, hleads, hexists, rfl⟩ := target_eq_ok_iff_or.mp h
  · exact hextends.locate hlocate
  · exact (hextends.leadsTo_iff.mpr hleads).locate_of_existsAt (by simp [existsAt, fileAt?_put])

lemma Extends.contents?_of_target (h : t.Extends t') (hgrounded : t.Grounded)
    (htarget : t.target p = .ok l) {contents : Bytes} (hl : t'.fileAt? l = some contents) :
    t'.contents? p = .ok (some contents) := by
  obtain ⟨init, folder, name, hleads, -, rfl⟩ := (FileTree.target_eq_ok_iff hgrounded).mp htarget
  have hlocate := (h.leadsTo_iff.mpr hleads).locate_of_existsAt (by simp [FileTree.existsAt, hl])
  simp [contents?, hlocate, Except.map, hl]

end TensorGraph.FileTree
