import TensorGraph.Files.Select
import TensorGraph.Proofs.Files.Copies
import TensorGraph.Proofs.Files.PathSteps
import TensorGraph.Proofs.Names.Types

/-!
# Copies of earlier runs

A run repairs the files selected, but for those that are known as copies. A suffix that is part of a
name puts each copy beside its source, where every later run knows it, however it is selected. A
suffix with a slash in it is no part of a name: the copy is somewhere else, and not known as one.
-/

namespace TensorGraph

/-! ### Selections -/

namespace FileTree

variable {t : FileTree} {p q : Path} {paths selected : List Path} {selectors : List String}

lemma mem_insertPath (h : q ∈ insertPath p paths) : q = p ∨ q ∈ paths := by
  induction paths with
  | nil => exact .inl (List.mem_singleton.mp h)
  | cons r rest ih =>
    rw [insertPath] at h
    split_ifs at h
    · exact List.mem_cons.mp h
    · exact .inr h
    · rcases List.mem_cons.mp h with rfl | h
      · exact .inr List.mem_cons_self
      · exact (ih h).imp_right (List.mem_cons_of_mem r)

lemma mem_foldl_insertPath {more : List Path}
    (h : q ∈ more.foldl (fun paths p => insertPath p paths) paths) : q ∈ more ∨ q ∈ paths := by
  induction more generalizing paths with
  | nil => exact .inr h
  | cons p more ih =>
    rcases ih h with hq | hq
    · exact .inl (List.mem_cons_of_mem p hq)
    · rcases mem_insertPath hq with rfl | hq
      · exact .inl List.mem_cons_self
      · exact .inr hq

lemma ensures_selected (t : FileTree) (selector : String) :
    Ensures (fun paths => ∀ p ∈ paths, t.isFile p = true) (t.selected selector) := by
  unfold selected
  dsimp only
  split_ifs with hfolder hfile hmarks
  · refine (Ensures.trivial _).map fun paths _ p hp => ?_
    have hmodel : t.isModelFile p = true := (List.mem_filter.mp (List.mem_mergeSort.mp hp)).2
    exact (Bool.and_eq_true_iff.mp hmodel).1
  · exact Ensures.ok_iff.mpr (List.forall_mem_singleton.mpr hfile)
  · exact (Ensures.trivial _).map fun paths _ p hp => (List.mem_filter.mp hp).2
  · exact Ensures.error _

lemma ensures_select (t : FileTree) (selectors : List String) :
    Ensures (fun paths => ∀ p ∈ paths, t.isFile p = true) (t.select selectors) := by
  refine Ensures.foldlM (fun paths hpaths selector _ => ?_) (by simp)
  refine (ensures_selected t selector).bind fun more hmore => Ensures.ok_iff.mpr fun p hp => ?_
  exact (mem_foldl_insertPath hp).elim (hmore p) (hpaths p)

lemma fileName?_eq_of_locate_eq (hgrounded : t.Grounded) (hp : t.isFile p = true)
    (h : t.locate p = t.locate q) : q.fileName? = p.fileName? := by
  obtain ⟨l, hl, hsome⟩ := isFile_iff.mp hp
  have hnofolder := isFolderAt_eq_false_of_isSome hgrounded hsome
  obtain ⟨init, folder, name, hleads, rfl⟩ := leadsTo_of_locate hl hnofolder
  obtain ⟨init', folder', name', hleads', heq⟩ := leadsTo_of_locate (h ▸ hl) hnofolder
  obtain rfl : name = name' := List.singleton_inj.mp (List.append_inj' heq rfl).2
  rw [Path.fileName?_of_segments hleads.segments hleads.isName,
    Path.fileName?_of_segments hleads'.segments hleads'.isName]

end FileTree

/-! ### Copies -/

namespace Settings

open TensorGraph.Path (splitName IsName)

variable {s : Settings} {p q : Path} {name : String}

lemma copyOf_ne (hsuffix : s.suffix ≠ "") : s.copyOf name ≠ name := by
  intro h
  have hlength := congrArg String.length h
  have hsuffix := mt String.length_eq_zero_iff.mp hsuffix
  have hspec := congrArg String.length (Path.splitName_spec name)
  have hdot : ".".length = 1 := rfl
  simp only [copyOf, String.length_append] at hlength
  cases hextension : (splitName name).2 with
  | none =>
    simp only [hextension, Option.elim_none, String.append_empty] at hspec
    omega
  | some extension =>
    simp only [hextension, Option.elim_some, Option.getD_some, String.length_append] at *
    omega

lemma outputPath_eq (hinPlace : s.inPlace = false) (hname : p.fileName? = some name) :
    s.outputPath p = p.withFileName (s.copyOf name) := by
  rw [outputPath, hinPlace, if_neg Bool.false_ne_true, copyName_eq hname]

lemma steps_outputPath (hinPlace : s.inPlace = false) (hsuffix : s.suffix ≠ "")
    (hplain : '/' ∉ s.suffix.toList) (hp : p.Writable) (hname : p.fileName? = some name) :
    (s.outputPath p).steps = p.steps.dropLast ++ [.name (s.copyOf name)] := by
  obtain ⟨hmem, hisName⟩ := Path.mem_of_fileName? hname
  rw [outputPath_eq hinPlace hname]
  exact Path.steps_withFileName hname (isName_copyOf hisName.ne_empty hsuffix)
    (slashless_copyOf (hp.slashless name hmem) hplain)

lemma slashless_of_isOutput (hq : q.Writable) (h : s.isOutput q = true) :
    '/' ∉ s.suffix.toList := by
  unfold isOutput Path.stem? at h
  cases hname : q.fileName? with
  | none => simp [hname] at h
  | some name =>
    have hsuffix : s.suffix.toList <:+ (splitName name).1.toList := by
      simpa [hname] using (Bool.and_eq_true_iff.mp h).2
    have hslashless := hq.slashless name (Path.mem_of_fileName? hname).1
    rw [Path.splitName_spec name, String.toList_append, List.mem_append, not_or] at hslashless
    exact fun hslash => hslashless.1 (hsuffix.subset hslash)

/-- The copy that a checked configuration puts somewhere is known as a copy exactly if the suffix is
part of a name. Then it is in the folder of its source, it is not the source itself, and no later
run repairs it: of the files that are selected, those that lead to the copy are left out. -/
theorem isOutput_outputPath (hcheck : s.check = .ok ()) (hinPlace : s.inPlace = false)
    (hp : p.Writable) (hname : p.fileName? = some name) :
    (s.isOutput (s.outputPath p) = true ↔ '/' ∉ s.suffix.toList) ∧
      ('/' ∉ s.suffix.toList →
        (s.outputPath p).parent.agrees p.parent = true ∧ (s.outputPath p).agrees p = false ∧
        ∀ t : FileTree, t.Grounded →
          ∀ selectors selected, t.select selectors = .ok selected →
            ∀ q ∈ selected.filter (fun q => !s.isOutput q),
              t.locate q ≠ t.locate (s.outputPath p)) := by
  have hsuffix := FileTree.suffix_ne_empty hcheck hinPlace
  obtain ⟨-, hisName⟩ := Path.mem_of_fileName? hname
  have hwritable : (s.outputPath p).Writable := by
    rw [outputPath_eq hinPlace hname]
    exact hp.withFileName _
  have hcopy (hplain : '/' ∉ s.suffix.toList) :
      (s.outputPath p).fileName? = some (s.copyOf name) :=
    Path.fileName?_eq_some_iff.mpr ⟨_, steps_outputPath hinPlace hsuffix hplain hp hname⟩
  have hknown {q : Path} (hq : q.fileName? = some (s.copyOf name)) : s.isOutput q = true :=
    isOutput_of_copyOf hisName.ne_empty hq hinPlace hsuffix
  refine ⟨⟨slashless_of_isOutput hwritable, fun hplain => hknown (hcopy hplain)⟩,
    fun hplain => ⟨?_, ?_, fun t hgrounded selectors selected hselect q hq heq => ?_⟩⟩
  · have hsteps := steps_outputPath hinPlace hsuffix hplain hp hname
    rw [Path.agrees, beq_iff_eq, Path.steps_parent (hcopy hplain), Path.steps_parent hname, hsteps,
      List.dropLast_concat]
  · obtain ⟨before, hsteps⟩ := Path.fileName?_eq_some_iff.mp hname
    rw [Path.agrees, beq_eq_false_iff_ne, steps_outputPath hinPlace hsuffix hplain hp hname, hsteps,
      List.dropLast_concat]
    intro hsame
    have hlast := List.singleton_inj.mp (List.append_inj' hsame rfl).2
    exact copyOf_ne hsuffix (PathStep.name.inj hlast)
  · obtain ⟨hmem, hunknown⟩ := List.mem_filter.mp hq
    have hfile := FileTree.ensures_select t selectors selected hselect q hmem
    have hend := FileTree.fileName?_eq_of_locate_eq hgrounded hfile heq
    rw [hknown (hend.symm.trans (hcopy hplain))] at hunknown
    cases hunknown

/-- A source and its copy, both with an empty extension; the suffix consists of dots. -/
theorem isOutput_outputPath_of_dots :
    let s : Settings := { suffix := ".." }
    let p := Path.ofText "m//a./."
    let t : FileTree := { files := [(["m", "a."], [8, 7, 58, 0]), (["m", "a..."], [8, 8, 58, 0])] }
    s.check = .ok () ∧ s.inPlace = false ∧ p.Writable ∧ p.fileName? = some "a." ∧
      (s.outputPath p).text = "m/a..." ∧ s.isOutput (s.outputPath p) = true ∧
      (s.outputPath p).parent.agrees p.parent = true ∧ (s.outputPath p).agrees p = false ∧
      t.select ["m/*"] = .ok [.ofText "m/a.", .ofText "m/a..."] ∧
      ∀ q ∈ [Path.ofText "m/a.", Path.ofText "m/a..."].filter (fun q => !s.isOutput q),
        t.locate q ≠ t.locate (s.outputPath p) := by
  intro s p t
  have hp : p.Writable := Path.writable_ofText _
  have hname : p.fileName? = some "a." := by decide
  have hselect : t.select ["m/*"] = .ok [.ofText "m/a.", .ofText "m/a..."] := by decide +kernel
  obtain ⟨hknown, hbeside⟩ := isOutput_outputPath (s := s) rfl rfl hp hname
  have hplain : '/' ∉ s.suffix.toList := by decide
  obtain ⟨hparent, hother, hlater⟩ := hbeside hplain
  exact ⟨rfl, rfl, hp, hname, by decide, hknown.mpr hplain, hparent, hother, hselect,
    hlater t (FileTree.grounded_of_root rfl rfl) ["m/*"] _ hselect⟩

/-- The copy of a file whose stem is a dot, in the folder of its source but under a name that does
not end with the suffix: the next run repairs it as well. -/
theorem isOutput_outputPath_differs :
    let s : Settings := { suffix := "/b" }
    let p := Path.ofText "d/..onnx"
    let t : FileTree := { files := [(["d", "..onnx"], [8, 8, 58, 0]), (["d", "b.onnx"], [])] }
    s.check = .ok () ∧ s.inPlace = false ∧ p.fileName? = some "..onnx" ∧
      (s.outputPath p).text = "d/./b.onnx" ∧ s.isOutput (s.outputPath p) = false ∧
      (t.select ["d/*"]).map (fun selected =>
          (selected.filter fun q => !s.isOutput q).map fun q => t.locate q) =
        .ok [t.locate p, t.locate (s.outputPath p)] ∧
      (s.outputPath (.ofText "a.onnx")).text = "a/b.onnx" := by
  decide +kernel

end Settings

end TensorGraph
