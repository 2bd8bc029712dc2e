import Mathlib.Tactic.SplitIfs
import TensorGraph.Files.Output
import TensorGraph.Proofs.Files.PathText

/-!
# The names of copies

A copy stands in the folder of its source, under a name that tells that it is a copy and which name
the source has, up to an extension that the source may lack.
-/

namespace TensorGraph

namespace Text

lemma aroundLast?_eq_none_iff {mark : Char} {cs : List Char} :
    aroundLast? mark cs = none ↔ mark ∉ cs := by
  induction cs with
  | nil => simp [aroundLast?]
  | cons c cs ih =>
    rw [aroundLast?]
    split
    · rename_i hsome
      simp [mt ih.mpr (by simp [hsome])]
    · rename_i hnone
      split_ifs with hc
      · simp [hc]
      · simp [ih.mp hnone, Ne.symm hc]

lemma aroundLast?_eq_some_iff {mark : Char} {cs front back : List Char} :
    aroundLast? mark cs = some (front, back) ↔ cs = front ++ mark :: back ∧ mark ∉ back := by
  induction cs generalizing front with
  | nil => simp [aroundLast?]
  | cons c cs ih =>
    rw [aroundLast?]
    constructor
    · intro h
      split at h
      · rename_i f b hsome
        obtain ⟨rfl, rfl⟩ := Prod.mk.inj (Option.some.inj h)
        obtain ⟨rfl, hback⟩ := ih.mp hsome
        exact ⟨rfl, hback⟩
      · rename_i hnone
        split_ifs at h with hc
        obtain ⟨rfl, rfl⟩ := Prod.mk.inj (Option.some.inj h)
        exact ⟨by rw [hc, List.nil_append], aroundLast?_eq_none_iff.mp hnone⟩
    · rintro ⟨hcs, hback⟩
      cases front with
      | nil =>
        obtain ⟨rfl, rfl⟩ := List.cons.inj hcs
        rw [aroundLast?_eq_none_iff.mpr hback]
        simp
      | cons x front =>
        obtain ⟨rfl, hrest⟩ := List.cons.inj hcs
        rw [ih.mpr ⟨hrest, hback⟩]

end Text

namespace Path

lemma splitName_eq_some_iff {name stem extension : String} :
    splitName name = (stem, some extension) ↔
      stem ≠ "" ∧ '.' ∉ extension.toList ∧ name = stem ++ "." ++ extension := by
  have hname : name = stem ++ "." ++ extension ↔
      name.toList = stem.toList ++ '.' :: extension.toList := by
    rw [← String.toList_inj, String.toList_append, String.toList_append, List.append_assoc]
    rfl
  rw [hname]
  unfold splitName
  constructor
  · intro h
    split at h
    · rename_i c front back hsplit
      obtain ⟨rfl, hextension⟩ := Prod.mk.inj h
      obtain rfl := Option.some.inj hextension
      obtain ⟨hcs, hback⟩ := Text.aroundLast?_eq_some_iff.mp hsplit
      refine ⟨by simp [← String.toList_inj], by simpa using hback, by simpa using hcs⟩
    · cases h
  · rintro ⟨hstem, hextension, hname⟩
    rw [Text.aroundLast?_eq_some_iff.mpr ⟨hname, hextension⟩]
    cases hcs : stem.toList with
    | nil => exact absurd (String.toList_eq_nil_iff.mp hcs) hstem
    | cons c front => simp [← hcs]

lemma eq_of_splitName_eq_none {name stem : String} (h : splitName name = (stem, none)) :
    stem = name := by
  unfold splitName at h
  split at h
  · cases h
  · exact (congrArg Prod.fst h).symm

variable {p : Path} {init : List String} {name : String}

lemma stepOf?_name (hname : IsName name) (first : Bool) :
    stepOf? first name = some (.name name) := by
  simp [stepOf?, hname.ne_empty, hname.ne_here, hname.ne_up]

lemma fileName?_of_segments (h : p.segments = init ++ [name]) (hname : IsName name) :
    p.fileName? = some name := by
  have hlast : p.steps.getLast? = some (.name name) := by
    rw [steps, h]
    cases init with
    | nil => simp [isAbsolute, h, laterSteps, stepOf?_name hname]
    | cons first rest => simp [laterSteps, stepOf?_name hname]
  simp [fileName?, hlast]

/-! ### Idle segments -/

lemma dropIdle_append_name (first : Bool) (init : List String) (hname : IsName name) :
    dropIdle first (init ++ [name]) = init ++ [name] := by
  induction init generalizing first with
  | nil => simp [dropIdle, stepOf?_name hname]
  | cons s rest ih =>
    rw [List.cons_append, dropIdle, ih]
    cases rest <;> rfl

lemma prefix_dropIdle (first : Bool) (segments : List String) :
    dropIdle first segments <+: segments := by
  induction segments generalizing first with
  | nil => exact List.prefix_refl []
  | cons s rest ih =>
    rw [dropIdle]
    split
    · split
      · exact (List.prefix_cons_inj s).mpr (List.nil_prefix)
      · exact List.nil_prefix
    · exact (List.prefix_cons_inj s).mpr (ih false)

lemma getLast?_dropIdle (first : Bool) (segments : List String) :
    (dropIdle first segments).getLast? ≠ some "" := by
  induction segments generalizing first with
  | nil => simp [dropIdle]
  | cons s rest ih =>
    cases hrest : dropIdle false rest with
    | nil =>
      rw [dropIdle, hrest]
      dsimp only
      split_ifs with hstep
      · rintro ⟨⟩
        simp [stepOf?] at hstep
      · simp
    | cons kept keeps =>
      rw [dropIdle, hrest]
      dsimp only
      rw [List.getLast?_cons_cons, ← hrest]
      exact ih false

lemma isAbsolute_iff : p.isAbsolute = true ↔ ∃ s rest, p.segments = "" :: s :: rest := by
  unfold isAbsolute
  split
  · rename_i s rest hsegments
    simp [hsegments]
  · rename_i hnot
    simp only [Bool.false_eq_true, false_iff, not_exists]
    exact hnot

lemma isAbsolute_eq_false_of_prefix {q : Path} {front : List String} {other : String}
    (hrelative : p.isAbsolute = false) (h : p.segments = init ++ [name]) (hfront : front <+: init)
    (hq : q.segments = front ++ [other]) : q.isAbsolute = false := by
  rw [Bool.eq_false_iff, ne_eq, isAbsolute_iff] at hrelative ⊢
  rintro ⟨s, rest, habsolute⟩
  cases front with
  | nil => simp [habsolute] at hq
  | cons first front =>
    obtain ⟨more, rfl⟩ := hfront
    obtain rfl : first = "" := by simp_all
    refine hrelative ?_
    rw [h]
    cases hmore : front ++ more with
    | nil => exact ⟨name, [], by simp [hmore]⟩
    | cons second others => exact ⟨second, others ++ [name], by simp [hmore]⟩

/-- What is left of the segments before the last name of a path without the idle ones at their end.
The one that makes a path absolute stays. -/
def front (p : Path) (init : List String) : List String :=
  if p.isAbsolute then "" :: dropIdle false init.tail else dropIdle true init

lemma exists_cons_of_isAbsolute (habsolute : p.isAbsolute = true)
    (h : p.segments = init ++ [name]) : ∃ init', init = "" :: init' := by
  obtain ⟨s, rest, hsegments⟩ := isAbsolute_iff.mp habsolute
  cases init with
  | nil => simp [hsegments] at h
  | cons first init' =>
    obtain ⟨rfl, -⟩ := List.cons.inj (hsegments.symm.trans h)
    exact ⟨init', rfl⟩

lemma isAbsolute_of_segments {q : Path} {other : String} (h : p.segments = init ++ [name])
    (hq : q.segments = p.front init ++ [other]) : q.isAbsolute = p.isAbsolute := by
  unfold front at hq
  split_ifs at hq with habsolute
  · rw [habsolute, isAbsolute_iff, hq]
    cases dropIdle false init.tail with
    | nil => exact ⟨other, [], rfl⟩
    | cons kept keeps => exact ⟨kept, keeps ++ [other], rfl⟩
  · rw [Bool.eq_false_iff.mpr habsolute]
    exact isAbsolute_eq_false_of_prefix (Bool.eq_false_iff.mpr habsolute) h
      (prefix_dropIdle true init) hq

lemma isAbsolute_front (h : p.segments = init ++ [name])
    (hlast : (p.front init).getLast? ≠ some "") : isAbsolute ⟨p.front init⟩ = p.isAbsolute := by
  unfold front at hlast ⊢
  split_ifs at hlast ⊢ with habsolute
  · rw [habsolute, isAbsolute_iff]
    cases hkept : dropIdle false init.tail with
    | nil => simp [hkept] at hlast
    | cons kept keeps => exact ⟨kept, keeps, rfl⟩
  · rw [Bool.eq_false_iff.mpr habsolute]
    rcases List.eq_nil_or_concat (dropIdle true init) with hnil | ⟨kept, other, hkept⟩
    · rw [hnil]
      rfl
    · rw [List.concat_eq_append] at hkept
      have hfront : kept <+: init :=
        (List.prefix_append kept [other]).trans (hkept ▸ prefix_dropIdle true init)
      exact isAbsolute_eq_false_of_prefix (Bool.eq_false_iff.mpr habsolute) h hfront hkept

/-- The parent of a path is what is left before its last name. It is written with an empty segment
at its end if this is nothing or the root. -/
lemma parent_eq (h : p.segments = init ++ [name]) (hname : IsName name) :
    p.parent = ⟨[""]⟩ ∧ p.front init = [] ∨ p.parent = ⟨["", ""]⟩ ∧ p.front init = [""] ∨
      p.parent = ⟨p.front init⟩ ∧ p.front init ≠ [] ∧ (p.front init).getLast? ≠ some "" := by
  have hdrop (first : Bool) (segments : List String) :
      dropLastStep first (segments ++ [name]) = dropIdle first segments := by
    rw [dropLastStep, dropIdle_append_name first segments hname, List.dropLast_concat]
  unfold front
  split_ifs with habsolute
  · obtain ⟨init', rfl⟩ := exists_cons_of_isAbsolute habsolute h
    right
    unfold parent
    split
    · rename_i s rest hsegments
      have hrest : s :: rest = init' ++ [name] := (List.cons.inj (hsegments.symm.trans h)).2
      rw [hrest, hdrop, List.tail_cons]
      cases hkept : dropIdle false init' with
      | nil => exact .inl ⟨rfl, rfl⟩
      | cons kept keeps =>
        refine .inr ⟨rfl, List.cons_ne_nil _ _, ?_⟩
        rw [List.getLast?_cons_cons, ← hkept]
        exact getLast?_dropIdle false init'
    · rename_i hnot
      obtain ⟨s, rest, hsegments⟩ := isAbsolute_iff.mp habsolute
      exact absurd hsegments (hnot s rest)
  · unfold parent
    split
    · rename_i s rest hsegments
      exact absurd (isAbsolute_iff.mpr ⟨s, rest, hsegments⟩) habsolute
    · rw [h, hdrop]
      split
      · rename_i hnil
        exact .inl ⟨rfl, hnil⟩
      · rename_i hne
        exact .inr (.inr ⟨rfl, hne, getLast?_dropIdle true init⟩)

lemma withFileName_segments (h : p.segments = init ++ [name]) (hname : IsName name)
    {other : String} (hother : '/' ∉ other.toList) :
    (p.withFileName other).segments = p.front init ++ [other] := by
  rw [withFileName, fileName?_of_segments h hname, Option.isSome_some, if_pos rfl,
    ofText_of_slashless hother, join, if_neg (by simp [isAbsolute])]
  rcases parent_eq h hname with ⟨hparent, hfront⟩ | ⟨hparent, hfront⟩ | ⟨hparent, -, hlast⟩
  · simp [hparent, hfront]
  · simp [hparent, hfront]
  · rw [hparent, if_neg hlast]

/-! ### Stems and extensions -/

lemma splitName_spec (name : String) :
    name = (splitName name).1 ++ (splitName name).2.elim "" ("." ++ ·) := by
  cases h : splitName name with
  | mk stem extension? =>
    cases extension? with
    | none => simpa using (eq_of_splitName_eq_none h).symm
    | some extension =>
      simpa [String.append_assoc] using (splitName_eq_some_iff.mp h).2.2

lemma stem_ne_empty (hname : name ≠ "") : (splitName name).1 ≠ "" := by
  cases h : splitName name with
  | mk stem extension? =>
    cases extension? with
    | none => exact eq_of_splitName_eq_none h ▸ hname
    | some extension => exact (splitName_eq_some_iff.mp h).1

lemma not_mem_extension (name : String) : '.' ∉ ((splitName name).2.getD "onnx").toList := by
  cases h : splitName name with
  | mk stem extension? =>
    cases extension? with
    | none => exact (by decide : '.' ∉ "onnx".toList)
    | some extension => exact (splitName_eq_some_iff.mp h).2.1

end Path

/-! ### Copies -/

namespace Settings

open TensorGraph.Path

variable (s : Settings) {name name' : String}

/-- The name of the copy of a file of this name. -/
def copyOf (name : String) : String :=
  (splitName name).1 ++ s.suffix ++ "." ++ (splitName name).2.getD "onnx"

variable {s}

lemma copyName_eq {p : Path} (h : p.fileName? = some name) : s.copyName p = s.copyOf name := by
  simp [copyName, copyOf, stem?, extension?, h]

lemma splitName_copyOf (hname : name ≠ "") : splitName (s.copyOf name) =
    ((splitName name).1 ++ s.suffix, some ((splitName name).2.getD "onnx")) := by
  refine splitName_eq_some_iff.mpr ⟨fun h => ?_, not_mem_extension name, rfl⟩
  exact stem_ne_empty hname (String.append_eq_empty_iff.mp h).1

lemma isName_copyOf (hname : name ≠ "") (hsuffix : s.suffix ≠ "") : IsName (s.copyOf name) := by
  have hlength : 2 < (s.copyOf name).length := by
    have hstem := mt String.length_eq_zero_iff.mp (stem_ne_empty hname)
    have hsuffix := mt String.length_eq_zero_iff.mp hsuffix
    have hdot : ".".length = 1 := rfl
    simp only [copyOf, String.length_append]
    omega
  constructor <;> intro h <;> exact absurd (h ▸ hlength) (by decide)

lemma slashless_copyOf (hname : '/' ∉ name.toList) (hsuffix : '/' ∉ s.suffix.toList) :
    '/' ∉ (s.copyOf name).toList := by
  have hdot : '/' ∉ ".".toList := by decide
  have hextension : '/' ∉ ((splitName name).2.getD "onnx").toList := by
    cases h : (splitName name).2 with
    | none => exact (by decide : '/' ∉ "onnx".toList)
    | some extension =>
      rw [splitName_spec name, h] at hname
      simp_all [String.toList_append]
  rw [splitName_spec name, String.toList_append, List.mem_append, not_or] at hname
  simp [copyOf, String.toList_append, hname.1, hsuffix, hextension]

/-- Names with the same copy are the same, but that one of them may lack the extension. -/
lemma copyOf_inj (hname : name ≠ "") (hname' : name' ≠ "") (h : s.copyOf name = s.copyOf name') :
    name = name' ∨ ((splitName name).2 = none ∧ name' = name ++ ".onnx") ∨
      ((splitName name').2 = none ∧ name = name' ++ ".onnx") := by
  have hsplit := splitName_copyOf (s := s) hname
  rw [h, splitName_copyOf hname', Prod.mk.injEq, String.append_left_inj,
    Option.some.injEq] at hsplit
  obtain ⟨hstem, hextension⟩ := hsplit
  have hspec := splitName_spec name
  have hspec' := splitName_spec name'
  have honnx : ".onnx" = "." ++ "onnx" := by decide
  cases hnone : (splitName name).2 <;> cases hnone' : (splitName name').2 <;>
    simp only [hnone, hnone', Option.elim_none, Option.elim_some, Option.getD_none,
      Option.getD_some, String.append_empty] at hspec hspec' hextension
  · exact .inl (by rw [hspec, hspec', hstem])
  · exact .inr (.inl ⟨rfl, by rw [hspec', hspec, hstem, hextension, honnx]⟩)
  · exact .inr (.inr ⟨rfl, by rw [hspec, hspec', hstem, ← hextension, honnx]⟩)
  · exact .inl (by rw [hspec, hspec', hstem, hextension])

lemma isOutput_of_copyOf {p : Path} (hname : name ≠ "") (hp : p.fileName? = some (s.copyOf name))
    (hinPlace : s.inPlace = false) (hsuffix : s.suffix ≠ "") : s.isOutput p = true := by
  have hstem : p.stem? = some ((splitName name).1 ++ s.suffix) := by
    simp [stem?, hp, splitName_copyOf hname]
  simp [isOutput, hinPlace, hstem, hsuffix, String.toList_append]

end Settings

end TensorGraph
