import Mathlib.Data.List.Basic
import TensorGraph.Proofs.Files.CopyNames

/-!
# The steps of paths

Paths are compared by their steps. The parent of a path has all steps but the last one, a path that
goes on to a name has one step more, and so another name takes the place of the last step, however
the path is written.
-/

namespace TensorGraph.Path

/-- The steps of some segments, `first` if they are the first ones of a path. -/
def stepsFrom (first : Bool) : List String → List PathStep
  | [] => []
  | s :: rest => (stepOf? first s).toList ++ stepsFrom false rest

variable {p q : Path} {first : Bool} {segments : List String} {name other : String}

lemma laterSteps_eq (segments : List String) : laterSteps segments = stepsFrom false segments := by
  induction segments with
  | nil => rfl
  | cons s rest ih =>
    rw [stepsFrom, ← ih, laterSteps, List.filterMap_cons]
    cases stepOf? false s <;> rfl

lemma steps_of_isAbsolute (h : p.isAbsolute = true) :
    p.steps = .root :: stepsFrom false p.segments.tail := by
  obtain ⟨s, rest, hsegments⟩ := isAbsolute_iff.mp h
  rw [steps, hsegments, h]
  dsimp only
  rw [if_pos rfl, laterSteps_eq]
  rfl

lemma steps_of_isRelative (h : p.isAbsolute = false) : p.steps = stepsFrom true p.segments := by
  unfold steps
  cases p.segments with
  | nil => rfl
  | cons s rest =>
    rw [h]
    dsimp only
    rw [if_neg Bool.false_ne_true, laterSteps_eq, stepsFrom]

lemma stepsFrom_append (first : Bool) (init back : List String) :
    stepsFrom first (init ++ back) =
      stepsFrom first init ++ stepsFrom (first && init.isEmpty) back := by
  induction init generalizing first with
  | nil => simp [stepsFrom]
  | cons s rest ih => simp [stepsFrom, ih]

lemma stepsFrom_append_name (first : Bool) (init : List String) (hname : IsName name) :
    stepsFrom first (init ++ [name]) = stepsFrom first init ++ [.name name] := by
  rw [stepsFrom_append, stepsFrom, stepOf?_name hname]
  rfl

/-! ### Parents -/

lemma stepsFrom_eq_nil_iff (first : Bool) (segments : List String) :
    stepsFrom first segments = [] ↔ dropIdle first segments = [] := by
  induction segments generalizing first with
  | nil => simp [stepsFrom, dropIdle]
  | cons s rest ih =>
    rw [stepsFrom, dropIdle, List.append_eq_nil_iff, ih]
    cases hrest : dropIdle false rest with
    | nil => cases stepOf? first s <;> simp
    | cons k kept => simp

lemma stepsFrom_dropIdle :
    stepsFrom first (dropIdle first segments) = stepsFrom first segments := by
  induction segments generalizing first with
  | nil => rfl
  | cons s rest ih =>
    have hrest : stepsFrom false (dropIdle false rest) = stepsFrom false rest := ih
    rw [stepsFrom, ← hrest, dropIdle]
    cases dropIdle false rest with
    | nil => cases hstep : stepOf? first s <;> simp [stepsFrom, hstep]
    | cons k kept => rfl

/-- Behind what was dropped there is exactly one step less. -/
lemma stepsFrom_dropLast_dropIdle :
    stepsFrom first (dropIdle first segments).dropLast = (stepsFrom first segments).dropLast := by
  induction segments generalizing first with
  | nil => rfl
  | cons s rest ih =>
    have hnil := stepsFrom_eq_nil_iff false rest
    have hrest : stepsFrom false (dropIdle false rest).dropLast = (stepsFrom false rest).dropLast :=
      ih
    rw [stepsFrom, dropIdle]
    cases hkept : dropIdle false rest with
    | nil =>
      rw [hnil.mpr hkept]
      cases stepOf? first s <;> rfl
    | cons k kept =>
      have hsteps : stepsFrom false rest ≠ [] := by
        rw [ne_eq, hnil, hkept]
        exact List.cons_ne_nil k kept
      rw [hkept] at hrest
      rw [List.dropLast_append_of_ne_nil hsteps, ← hrest]
      rfl

lemma stepsFrom_dropLastStep :
    stepsFrom first (dropLastStep first segments) = (stepsFrom first segments).dropLast := by
  rw [dropLastStep, stepsFrom_dropIdle, stepsFrom_dropLast_dropIdle]

lemma dropLastStep_isPrefix (first : Bool) (segments : List String) :
    dropLastStep first segments <+: segments := by
  have hbefore := prefix_dropIdle first (dropIdle first segments).dropLast
  exact hbefore.trans ((List.dropLast_prefix _).trans <| prefix_dropIdle first segments)

lemma fileName?_eq_some_iff :
    p.fileName? = some name ↔ ∃ before, p.steps = before ++ [.name name] := by
  rw [← List.getLast?_eq_some_iff]
  unfold fileName?
  split
  · rename_i hlast
    simp [hlast]
  · rename_i hnot
    exact iff_of_false nofun (hnot name)

/-- The parent of a path with a name has all steps but that name. -/
lemma steps_parent (h : p.fileName? = some name) : p.parent.steps = p.steps.dropLast := by
  obtain ⟨before, hsteps⟩ := fileName?_eq_some_iff.mp h
  unfold parent
  split
  · rename_i s rest hsegments
    have habsolute := isAbsolute_iff.mpr ⟨s, rest, hsegments⟩
    rw [steps_of_isAbsolute habsolute, hsegments, List.tail_cons] at hsteps ⊢
    have hlater : stepsFrom false (s :: rest) ≠ [] := by
      intro hnil
      rw [hnil] at hsteps
      cases before <;> simp at hsteps
    rw [List.dropLast_cons_of_ne_nil hlater, ← stepsFrom_dropLastStep]
    split
    · rename_i hkept
      rw [hkept]
      rfl
    · rename_i hkept
      obtain ⟨k, kept, hcons⟩ := List.exists_cons_of_ne_nil hkept
      exact steps_of_isAbsolute (isAbsolute_iff.mpr ⟨k, kept, by rw [hcons]⟩)
  · rename_i hnot
    have hrelative : p.isAbsolute = false := by
      rw [Bool.eq_false_iff, ne_eq, isAbsolute_iff]
      rintro ⟨s, rest, hsegments⟩
      exact hnot s rest hsegments
    rw [steps_of_isRelative hrelative, ← stepsFrom_dropLastStep]
    split
    · rename_i hkept
      rw [hkept]
      rfl
    · refine steps_of_isRelative (Bool.eq_false_iff.mpr fun habsolute => ?_)
      -- What is kept stands at the beginning of the path.
      obtain ⟨s, rest, hbegin⟩ := isAbsolute_iff.mp habsolute
      obtain ⟨more, hmore⟩ := dropLastStep_isPrefix true p.segments
      dsimp only at hbegin
      rw [hbegin] at hmore
      exact hnot s (rest ++ more) hmore.symm

/-! ### Names at the end -/

lemma stepOf?_eq_name {s : String} (h : stepOf? first s = some (.name name)) :
    s = name ∧ IsName name := by
  unfold stepOf? at h
  split_ifs at h with hempty hhere hfirst hup
  · cases h
  · cases h
  · obtain rfl : s = name := by simpa using h
    exact ⟨rfl, by simpa using hempty, hhere, hup⟩

lemma mem_of_name_mem_stepsFrom (h : .name name ∈ stepsFrom first segments) :
    name ∈ segments ∧ IsName name := by
  induction segments generalizing first with
  | nil => simp [stepsFrom] at h
  | cons s rest ih =>
    rw [stepsFrom, List.mem_append, Option.mem_toList] at h
    rcases h with h | h
    · obtain ⟨rfl, hname⟩ := stepOf?_eq_name h
      exact ⟨List.mem_cons_self, hname⟩
    · exact (ih h).imp_left (List.mem_cons_of_mem s)

lemma mem_of_fileName? (h : p.fileName? = some name) : name ∈ p.segments ∧ IsName name := by
  obtain ⟨before, hsteps⟩ := fileName?_eq_some_iff.mp h
  have hmem : .name name ∈ p.steps := by
    rw [hsteps]
    exact List.mem_append_right before List.mem_cons_self
  by_cases habsolute : p.isAbsolute = true
  · rw [steps_of_isAbsolute habsolute, List.mem_cons] at hmem
    exact (mem_of_name_mem_stepsFrom (hmem.resolve_left nofun)).imp_left List.mem_of_mem_tail
  · rw [steps_of_isRelative (Bool.eq_false_iff.mpr habsolute)] at hmem
    exact mem_of_name_mem_stepsFrom hmem

/-- An empty segment at the end gives way to a name. -/
lemma steps_concat_name {kept idle : List String} (hname : IsName name)
    (hq : q.segments = kept ++ idle) (hidle : idle = [""] ∨ idle = [] ∧ kept ≠ [""]) :
    (⟨kept ++ [name]⟩ : Path).steps = q.steps ++ [.name name] := by
  have hsteps (first : Bool) : stepsFrom first idle = [] := by
    rcases hidle with rfl | ⟨rfl, -⟩ <;> rfl
  have habsolute : q.isAbsolute = (⟨kept ++ [name]⟩ : Path).isAbsolute := by
    rw [Bool.eq_iff_iff]
    cases kept with
    | nil =>
      rcases hidle with rfl | ⟨rfl, -⟩ <;> simp [isAbsolute_iff, hq]
    | cons s more =>
      cases more with
      | nil =>
        rcases hidle with rfl | ⟨rfl, hne⟩
        · simp [isAbsolute_iff, hq]
        · simp only [isAbsolute_iff, hq]
          simp_all
      | cons s' more => simp [isAbsolute_iff, hq]
  by_cases hroot : q.isAbsolute = true
  · obtain ⟨s, rest, hsegments⟩ := isAbsolute_iff.mp (habsolute ▸ hroot)
    have hkept : kept ≠ [] := by
      rintro rfl
      simp at hsegments
    rw [steps_of_isAbsolute hroot, steps_of_isAbsolute (habsolute ▸ hroot), hq,
      List.tail_append_of_ne_nil hkept, List.tail_append_of_ne_nil hkept,
      stepsFrom_append_name false _ hname, stepsFrom_append, hsteps, List.append_nil]
    rfl
  · have hrelative := Bool.eq_false_iff.mpr hroot
    rw [steps_of_isRelative hrelative, steps_of_isRelative (habsolute ▸ hrelative), hq,
      stepsFrom_append_name true _ hname, stepsFrom_append, hsteps, List.append_nil]

lemma steps_join_name (hname : IsName name) :
    (q.join ⟨[name]⟩).steps = q.steps ++ [.name name] := by
  unfold join
  rw [if_neg (by simp [isAbsolute])]
  split_ifs with hlast
  · exact steps_concat_name hname (List.dropLast_append_getLast? "" hlast).symm (.inl rfl)
  · refine steps_concat_name hname (List.append_nil _).symm (.inr ⟨rfl, fun hsegments => hlast ?_⟩)
    rw [hsegments]
    rfl

lemma steps_withFileName (h : p.fileName? = some name) (hother : IsName other)
    (hplain : '/' ∉ other.toList) :
    (p.withFileName other).steps = p.steps.dropLast ++ [.name other] := by
  rw [withFileName, h, Option.isSome_some, if_pos rfl, ofText_of_slashless hplain,
    steps_join_name hother, steps_parent h]

/-! ### Writing paths down -/

lemma Writable.parent (h : p.Writable) : p.parent.Writable := by
  have hempty : '/' ∉ "".toList := by decide
  unfold Path.parent
  split
  · rename_i s rest hsegments
    have hslashless := h.slashless
    rw [hsegments] at hslashless
    split
    · exact ⟨by simp, by simp⟩
    · refine ⟨by simp, fun s' hs' => ?_⟩
      rcases List.mem_cons.mp hs' with rfl | hs'
      · exact hempty
      · exact hslashless s' (List.mem_cons_of_mem _ ((dropLastStep_isPrefix _ _).subset hs'))
  · split
    · exact ⟨by simp, by simp⟩
    · rename_i hne
      exact ⟨hne, fun s' hs' => h.slashless s' ((dropLastStep_isPrefix _ _).subset hs')⟩

lemma Writable.join (hp : p.Writable) (hq : q.Writable) : (p.join q).Writable := by
  unfold Path.join
  split_ifs
  · exact hq
  · refine ⟨by simp [hq.ne_nil], fun s hs => ?_⟩
    rcases List.mem_append.mp hs with hs | hs
    · exact hp.slashless s ((List.dropLast_prefix _).subset hs)
    · exact hq.slashless s hs
  · refine ⟨by simp [hq.ne_nil], fun s hs => ?_⟩
    exact (List.mem_append.mp hs).elim (hp.slashless s) (hq.slashless s)

lemma Writable.withFileName (h : p.Writable) (name : String) : (p.withFileName name).Writable := by
  unfold Path.withFileName
  split_ifs
  · exact h.parent.join (writable_ofText name)
  · exact h.join (writable_ofText name)

end TensorGraph.Path
