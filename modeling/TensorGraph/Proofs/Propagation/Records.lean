import Mathlib.Tactic.SplitIfs
import TensorGraph.Proofs.Propagation.Merging
import TensorGraph.Propagation

/-!
# Recorded types

Recording a type changes the first description of one value and no other description. Recording it
again changes nothing, and types of different values may be recorded in any order.
-/

namespace TensorGraph

/-- A description with another type, unless a type is declared that no tensor has. -/
def ValueInfo.retyped (v : ValueInfo) (type : TensorType) : ValueInfo :=
  if v.foreign?.isSome then v else { v with type }

namespace ValueInfo

lemma retyped_name (v : ValueInfo) (type : TensorType) : (v.retyped type).name = v.name := by
  unfold retyped
  split_ifs <;> rfl

lemma retyped_again (v : ValueInfo) (type : TensorType) :
    (v.retyped type).retyped type = v.retyped type := by
  by_cases h : v.foreign?.isSome = true
  · simp [retyped, h]
  · simp [retyped, h]

end ValueInfo

/-- The first description with that name. -/
def described? (vs : List ValueInfo) (name : String) : Option ValueInfo :=
  vs.find? fun v => v.name == name

section Lists

variable {vs vs' : List ValueInfo} {name other : String} {type : TensorType}

lemma described?_cons (v : ValueInfo) (vs : List ValueInfo) (name : String) :
    described? (v :: vs) name = if v.name = name then some v else described? vs name := by
  unfold described?
  rw [List.find?_cons]
  by_cases h : v.name = name
  · simp [h]
  · have hne : (v.name == name) = false := beq_false_of_ne h
    rw [hne, if_neg h]

lemma described?_append (vs ws : List ValueInfo) (name : String) :
    described? (vs ++ ws) name = (described? vs name).or (described? ws name) :=
  List.find?_append

lemma setType?_eq_none_iff : setType? name type vs = none ↔ described? vs name = none := by
  induction vs with
  | nil => simp [setType?, described?]
  | cons v vs ih =>
    rw [setType?, described?_cons]
    by_cases h : v.name = name
    · simp [h]
    · simp [h, ih]

lemma described?_setType? (h : setType? name type vs = some vs') :
    described? vs' name = (described? vs name).map fun v => v.retyped type := by
  induction vs generalizing vs' with
  | nil => cases h
  | cons v vs ih =>
    rw [setType?] at h
    rw [described?_cons]
    by_cases hname : v.name = name
    · rw [if_pos hname] at h ⊢
      obtain rfl := Option.some.inj h
      exact (described?_cons _ _ _).trans (if_pos ((v.retyped_name type).trans hname))
    · rw [if_neg hname] at h ⊢
      obtain ⟨rest, hrest, rfl⟩ := Option.map_eq_some_iff.mp h
      rw [described?_cons, if_neg hname, ih hrest]

lemma described?_setType?_of_ne (h : setType? name type vs = some vs') (hne : other ≠ name) :
    described? vs' other = described? vs other := by
  induction vs generalizing vs' with
  | nil => cases h
  | cons v vs ih =>
    rw [setType?] at h
    by_cases hname : v.name = name
    · have hother : v.name ≠ other := fun heq => hne (heq.symm.trans hname)
      rw [if_pos hname] at h
      obtain rfl := Option.some.inj h
      have hretyped : (v.retyped type).name ≠ other := (v.retyped_name type).symm ▸ hother
      rw [described?_cons v, if_neg hother]
      exact (described?_cons _ _ _).trans (if_neg hretyped)
    · rw [if_neg hname] at h
      obtain ⟨rest, hrest, rfl⟩ := Option.map_eq_some_iff.mp h
      rw [described?_cons, described?_cons, ih hrest]

lemma setType?_eq_self {v : ValueInfo} (hv : described? vs name = some v)
    (htyped : v.retyped type = v) : setType? name type vs = some vs := by
  induction vs with
  | nil => cases hv
  | cons w vs ih =>
    rw [described?_cons] at hv
    rw [setType?]
    by_cases hname : w.name = name
    · rw [if_pos hname] at hv ⊢
      obtain rfl := Option.some.inj hv
      exact congrArg (fun w => some (w :: vs)) htyped
    · rw [if_neg hname] at hv ⊢
      rw [ih hv]
      rfl

lemma mem_setType? {v : ValueInfo} (h : setType? name type vs = some vs') (hv : v ∈ vs') :
    v ∈ vs ∨ ∃ w ∈ vs, v = w.retyped type := by
  induction vs generalizing vs' with
  | nil => cases h
  | cons w vs ih =>
    rw [setType?] at h
    by_cases hname : w.name = name
    · rw [if_pos hname] at h
      obtain rfl := Option.some.inj h
      rcases List.mem_cons.mp hv with rfl | hv
      · exact .inr ⟨w, List.mem_cons_self, rfl⟩
      · exact .inl (List.mem_cons_of_mem w hv)
    · rw [if_neg hname] at h
      obtain ⟨rest, hrest, rfl⟩ := Option.map_eq_some_iff.mp h
      rcases List.mem_cons.mp hv with rfl | hv
      · exact .inl List.mem_cons_self
      · rcases ih hrest hv with hmem | ⟨u, hu, heq⟩
        · exact .inl (List.mem_cons_of_mem w hmem)
        · exact .inr ⟨u, List.mem_cons_of_mem w hu, heq⟩

end Lists

namespace Graph

/-- The description of a value among the outputs and inner values. -/
def inner? (g : Graph) (name : String) : Option ValueInfo :=
  described? (g.outputs ++ g.valueInfo) name

def isInput (g : Graph) (name : String) : Bool := g.inputs.any fun v => v.name == name

variable {g : Graph} {v : ValueInfo} {name : String}

lemma exists_record_eq (g : Graph) (v : ValueInfo) :
    ∃ outputs valueInfo, g.record v = { g with outputs, valueInfo } := by
  unfold record
  split_ifs
  · exact ⟨_, _, rfl⟩
  · split
    · exact ⟨_, _, rfl⟩
    · split <;> exact ⟨_, _, rfl⟩

lemma record_inputs (g : Graph) (v : ValueInfo) : (g.record v).inputs = g.inputs := by
  obtain ⟨_, _, h⟩ := g.exists_record_eq v
  rw [h]

lemma record_eq_self_of_isInput (h : g.isInput v.name = true) : g.record v = g := if_pos h

/-- The three places where a type is recorded. -/
lemma record_cases (h : g.isInput v.name = false) :
    (∃ outputs, setType? v.name v.type g.outputs = some outputs ∧
        g.record v = { g with outputs }) ∨
      described? g.outputs v.name = none ∧
        ((∃ valueInfo, setType? v.name v.type g.valueInfo = some valueInfo ∧
            g.record v = { g with valueInfo }) ∨
          described? g.valueInfo v.name = none ∧
            g.record v = { g with valueInfo := g.valueInfo ++ [v] }) := by
  unfold record
  rw [if_neg (by simpa [isInput] using h)]
  cases houtputs : setType? v.name v.type g.outputs with
  | some outputs => exact .inl ⟨outputs, rfl, rfl⟩
  | none =>
    refine .inr ⟨setType?_eq_none_iff.mp houtputs, ?_⟩
    cases hvalues : setType? v.name v.type g.valueInfo with
    | some valueInfo => exact .inl ⟨valueInfo, rfl, rfl⟩
    | none => exact .inr ⟨setType?_eq_none_iff.mp hvalues, rfl⟩

lemma inner?_record_of_ne (hne : name ≠ v.name) : (g.record v).inner? name = g.inner? name := by
  cases hinput : g.isInput v.name with
  | true => rw [record_eq_self_of_isInput hinput]
  | false =>
    unfold inner?
    rw [described?_append, described?_append]
    rcases record_cases hinput with ⟨outputs, hset, h⟩ | ⟨_, ⟨valueInfo, hset, h⟩ | ⟨_, h⟩⟩
    · rw [h, described?_setType?_of_ne hset hne]
    · rw [h, described?_setType?_of_ne hset hne]
    · have hnew : described? [v] name = none := by
        rw [described?_cons, if_neg hne.symm]
        rfl
      rw [h, described?_append, hnew, Option.or_none]

/-- The description that a recorded type ends up in. -/
lemma inner?_record (hinput : g.isInput v.name = false) :
    (g.record v).inner? v.name = some ((g.inner? v.name).elim v fun w => w.retyped v.type) := by
  unfold inner?
  rw [described?_append, described?_append]
  rcases record_cases hinput with ⟨outputs, hset, h⟩ | ⟨hnone, ⟨valueInfo, hset, h⟩ | ⟨hnone', h⟩⟩
  · rw [h, described?_setType? hset]
    cases hw : described? g.outputs v.name with
    | some w => rfl
    | none =>
      rw [setType?_eq_none_iff.mpr hw] at hset
      cases hset
  · rw [h, described?_setType? hset, hnone]
    cases hw : described? g.valueInfo v.name with
    | some w => rfl
    | none =>
      rw [setType?_eq_none_iff.mpr hw] at hset
      cases hset
  · rw [h, described?_append, hnone, hnone']
    simp [described?_cons]

lemma record_eq_self {w : ValueInfo} (hw : g.inner? v.name = some w)
    (htyped : w.retyped v.type = w) : g.record v = g := by
  cases hinput : g.isInput v.name with
  | true => exact record_eq_self_of_isInput hinput
  | false =>
    unfold inner? at hw
    rw [described?_append] at hw
    rcases record_cases hinput with ⟨outputs, hset, h⟩ | ⟨hnone, ⟨valueInfo, hset, h⟩ | ⟨hnone', h⟩⟩
    · cases hfound : described? g.outputs v.name with
      | none =>
        rw [setType?_eq_none_iff.mpr hfound] at hset
        cases hset
      | some w' =>
        rw [hfound, Option.some_or] at hw
        obtain rfl := Option.some.inj hw
        rw [setType?_eq_self hfound htyped] at hset
        obtain rfl := Option.some.inj hset
        exact h
    · rw [hnone, Option.none_or] at hw
      rw [setType?_eq_self hw htyped] at hset
      obtain rfl := Option.some.inj hset
      exact h
    · rw [hnone, hnone'] at hw
      cases hw

lemma record_record (hplain : v = { name := v.name, type := v.type }) :
    (g.record v).record v = g.record v := by
  cases hinput : g.isInput v.name with
  | true => rw [record_eq_self_of_isInput hinput, record_eq_self_of_isInput hinput]
  | false =>
    refine record_eq_self (inner?_record hinput) ?_
    cases g.inner? v.name with
    | none =>
      rw [hplain]
      rfl
    | some w => exact w.retyped_again v.type

section Folds

variable {records : List ValueInfo}

lemma exists_foldl_record_eq (g : Graph) (records : List ValueInfo) :
    ∃ outputs valueInfo, records.foldl record g = { g with outputs, valueInfo } := by
  induction records generalizing g with
  | nil => exact ⟨_, _, rfl⟩
  | cons v records ih =>
    obtain ⟨_, _, hv⟩ := g.exists_record_eq v
    obtain ⟨outputs, valueInfo, hrest⟩ := ih (g.record v)
    exact ⟨outputs, valueInfo, by rw [List.foldl_cons, hrest, hv]⟩

lemma foldl_record_inputs (g : Graph) (records : List ValueInfo) :
    (records.foldl record g).inputs = g.inputs := by
  obtain ⟨_, _, h⟩ := g.exists_foldl_record_eq records
  rw [h]

lemma inner?_foldl_record_of_ne (h : ∀ v ∈ records, v.name ≠ name) :
    (records.foldl record g).inner? name = g.inner? name := by
  induction records generalizing g with
  | nil => rfl
  | cons v records ih =>
    rw [List.forall_mem_cons] at h
    rw [List.foldl_cons, ih h.2, inner?_record_of_ne h.1.symm]

/-- Records that agree where they are about the same value. -/
def Consistent (records : List ValueInfo) : Prop :=
  ∀ v ∈ records, v = { name := v.name, type := v.type } ∧ ∀ w ∈ records, v.name = w.name → v = w

lemma Consistent.tail (h : Consistent (v :: records)) : Consistent records := fun w hw =>
  ⟨(h w (List.mem_cons_of_mem v hw)).1,
    fun u hu => (h w (List.mem_cons_of_mem v hw)).2 u (List.mem_cons_of_mem v hu)⟩

lemma Consistent.of_perm {records' : List ValueInfo} (h : Consistent records)
    (hperm : records'.Perm records) : Consistent records' := fun v hv =>
  ⟨(h v (hperm.subset hv)).1, fun w hw => (h v (hperm.subset hv)).2 w (hperm.subset hw)⟩

lemma inner?_record_congr {g' : Graph} (hinputs : g'.inputs = g.inputs)
    (hinner : g'.inner? v.name = g.inner? v.name) :
    (g'.record v).inner? v.name = (g.record v).inner? v.name := by
  have hinput : g'.isInput v.name = g.isInput v.name := by
    unfold isInput
    rw [hinputs]
  cases h : g.isInput v.name with
  | true => rw [record_eq_self_of_isInput h, record_eq_self_of_isInput (hinput.trans h), hinner]
  | false => rw [inner?_record h, inner?_record (hinput.trans h), hinner]

/-- Of all records only the one about a value matters to its description. -/
lemma inner?_foldl_record (h : Consistent records) (hv : v ∈ records) :
    (records.foldl record g).inner? v.name = (g.record v).inner? v.name := by
  induction records generalizing g with
  | nil => cases hv
  | cons w records ih =>
    have hw := h w List.mem_cons_self
    rw [List.foldl_cons]
    by_cases hrest : v ∈ records
    · rw [ih h.tail hrest]
      by_cases hname : v.name = w.name
      · obtain rfl := hw.2 v (List.mem_cons_of_mem w hrest) hname.symm
        rw [record_record hw.1]
      · exact inner?_record_congr (record_inputs g w) (inner?_record_of_ne hname)
    · obtain rfl : v = w := (List.mem_cons.mp hv).resolve_right hrest
      refine inner?_foldl_record_of_ne fun u hu heq => hrest ?_
      obtain rfl := hw.2 u (List.mem_cons_of_mem v hu) heq.symm
      exact hu

lemma foldl_record_eq_self (h : ∀ v ∈ records, g.record v = g) : records.foldl record g = g := by
  induction records with
  | nil => rfl
  | cons v records ih =>
    rw [List.forall_mem_cons] at h
    rw [List.foldl_cons, h.1, ih h.2]

/-- A description is as it was, has got the type that is recorded, or is new. -/
lemma mem_record {w : ValueInfo} (hw : w ∈ (g.record v).outputs ++ (g.record v).valueInfo) :
    w ∈ g.outputs ++ g.valueInfo ∨
      (∃ u ∈ g.outputs ++ g.valueInfo, w = u.retyped v.type) ∨ w = v := by
  cases hinput : g.isInput v.name with
  | true =>
    rw [record_eq_self_of_isInput hinput] at hw
    exact .inl hw
  | false =>
    rcases record_cases hinput with ⟨outputs, hset, h⟩ | ⟨_, ⟨valueInfo, hset, h⟩ | ⟨_, h⟩⟩
    · rw [h] at hw
      rcases List.mem_append.mp hw with hw | hw
      · rcases mem_setType? hset hw with hmem | ⟨u, hu, heq⟩
        · exact .inl (List.mem_append_left _ hmem)
        · exact .inr (.inl ⟨u, List.mem_append_left _ hu, heq⟩)
      · exact .inl (List.mem_append_right _ hw)
    · rw [h] at hw
      rcases List.mem_append.mp hw with hw | hw
      · exact .inl (List.mem_append_left _ hw)
      · rcases mem_setType? hset hw with hmem | ⟨u, hu, heq⟩
        · exact .inl (List.mem_append_right _ hmem)
        · exact .inr (.inl ⟨u, List.mem_append_right _ hu, heq⟩)
    · rw [h, ← List.append_assoc] at hw
      rcases List.mem_append.mp hw with hw | hw
      · exact .inl hw
      · exact .inr (.inr (List.mem_singleton.mp hw))

lemma forall_mem_foldl_record {Q : ValueInfo → Prop}
    (hg : ∀ w ∈ g.outputs ++ g.valueInfo, Q w) (hrecords : ∀ v ∈ records, Q v)
    (hretyped : ∀ v ∈ records, ∀ w, Q w → Q (w.retyped v.type)) :
    ∀ w ∈ (records.foldl record g).outputs ++ (records.foldl record g).valueInfo, Q w := by
  induction records generalizing g with
  | nil => exact hg
  | cons v records ih =>
    rw [List.forall_mem_cons] at hrecords hretyped
    refine ih (fun w hw => ?_) hrecords.2 hretyped.2
    rcases mem_record hw with hw | ⟨u, hu, rfl⟩ | rfl
    · exact hg w hw
    · exact hretyped.1 u (hg u hu)
    · exact hrecords.1

/-- Recording everything once more changes nothing. -/
lemma foldl_record_again (h : Consistent records) :
    records.foldl record (records.foldl record g) = records.foldl record g := by
  refine foldl_record_eq_self fun v hv => ?_
  cases hinput : g.isInput v.name with
  | true =>
    refine record_eq_self_of_isInput ?_
    unfold isInput
    rw [foldl_record_inputs]
    exact hinput
  | false =>
    have hinner := inner?_foldl_record (g := g) h hv
    rw [inner?_record hinput] at hinner
    refine record_eq_self hinner ?_
    cases g.inner? v.name with
    | none =>
      rw [(h v hv).1]
      rfl
    | some w => exact w.retyped_again v.type

end Folds

/-! ### Declared types -/

/-- The types that descriptions declare; of several for one name the last counts. -/
def declarations (vs : List ValueInfo) : List (String × TensorType) :=
  ((vs.filter fun v => !v.type.isUnknown).map fun v => (v.name, v.type)).reverse

lemma lookup_declarations_append (vs ws : List ValueInfo) (name : String) :
    (declarations (vs ++ ws)).lookup name =
      ((declarations ws).lookup name).or ((declarations vs).lookup name) := by
  unfold declarations
  rw [List.filter_append, List.map_append, List.reverse_append, List.lookup_append]

lemma lookup_declarations_singleton (v : ValueInfo) (name : String) :
    (declarations [v]).lookup name =
      if v.name = name ∧ v.type.isUnknown = false then some v.type else none := by
  unfold declarations
  cases htype : v.type.isUnknown with
  | true => simp [htype]
  | false =>
    by_cases hname : v.name = name
    · simp [htype, hname]
    · have hne : (name == v.name) = false := beq_false_of_ne (Ne.symm hname)
      simp [htype, hname, List.lookup_cons, hne]

/-- The two types that are declared of a value once one is recorded: the one from before, or the
recorded one. -/
def DeclaresAtMost (name : String) (type : TensorType) (vs vs' : List ValueInfo) : Prop :=
  ∀ other, (declarations vs').lookup other = (declarations vs).lookup other ∨
    name = other ∧ (declarations vs').lookup other = some type

lemma DeclaresAtMost.append_left {type : TensorType} {vs vs' : List ValueInfo}
    (h : DeclaresAtMost name type vs vs') (ws : List ValueInfo) :
    DeclaresAtMost name type (vs ++ ws) (vs' ++ ws) := by
  intro other
  rw [lookup_declarations_append, lookup_declarations_append]
  cases (declarations ws).lookup other with
  | some t => exact .inl rfl
  | none => exact h other

lemma DeclaresAtMost.append_right {type : TensorType} {vs vs' : List ValueInfo}
    (h : DeclaresAtMost name type vs vs') (ws : List ValueInfo) :
    DeclaresAtMost name type (ws ++ vs) (ws ++ vs') := by
  intro other
  rw [lookup_declarations_append, lookup_declarations_append]
  rcases h other with heq | ⟨hname, heq⟩
  · exact .inl (by rw [heq])
  · exact .inr ⟨hname, by rw [heq, Option.some_or]⟩

lemma declaresAtMost_retyped {type : TensorType} (htype : type.isUnknown = false)
    (v : ValueInfo) : DeclaresAtMost v.name type [v] [v.retyped type] := by
  intro other
  unfold ValueInfo.retyped
  split_ifs
  · exact .inl rfl
  · rw [lookup_declarations_singleton, lookup_declarations_singleton]
    by_cases hname : v.name = other
    · exact .inr ⟨hname, if_pos ⟨hname, htype⟩⟩
    · exact .inl (by rw [if_neg fun h => hname h.1, if_neg fun h => hname h.1])

lemma declaresAtMost_setType? {type : TensorType} {vs vs' : List ValueInfo}
    (htype : type.isUnknown = false) (h : setType? name type vs = some vs') :
    DeclaresAtMost name type vs vs' := by
  induction vs generalizing vs' with
  | nil => cases h
  | cons v vs ih =>
    rw [setType?] at h
    by_cases hname : v.name = name
    · rw [if_pos hname] at h
      obtain rfl := Option.some.inj h
      exact hname ▸ (declaresAtMost_retyped htype v).append_left vs
    · rw [if_neg hname] at h
      obtain ⟨rest, hrest, rfl⟩ := Option.map_eq_some_iff.mp h
      exact (ih hrest).append_right [v]

lemma declaresAtMost_record (htype : v.type.isUnknown = false) :
    DeclaresAtMost v.name v.type (g.outputs ++ g.valueInfo)
      ((g.record v).outputs ++ (g.record v).valueInfo) := by
  cases hinput : g.isInput v.name with
  | true =>
    rw [record_eq_self_of_isInput hinput]
    exact fun other => .inl rfl
  | false =>
    rcases record_cases hinput with ⟨outputs, hset, h⟩ | ⟨_, ⟨valueInfo, hset, h⟩ | ⟨_, h⟩⟩
    · rw [h]
      exact (declaresAtMost_setType? htype hset).append_left g.valueInfo
    · rw [h]
      exact (declaresAtMost_setType? htype hset).append_right g.outputs
    · rw [h]
      intro other
      rw [← List.append_assoc, lookup_declarations_append, lookup_declarations_singleton]
      by_cases hname : v.name = other
      · exact .inr ⟨hname, by rw [if_pos ⟨hname, htype⟩, Option.some_or]⟩
      · exact .inl (by rw [if_neg fun h => hname h.1, Option.none_or])

/-- After types were recorded, a value is declared as before or as recorded. -/
lemma lookup_declaredTypes_foldl_record {records : List ValueInfo} (g : Graph)
    (htypes : ∀ v ∈ records, v.type.isUnknown = false) (name : String) :
    (records.foldl record g).declaredTypes.lookup name = g.declaredTypes.lookup name ∨
      ∃ v ∈ records, v.name = name ∧
        (records.foldl record g).declaredTypes.lookup name = some v.type := by
  induction records generalizing g with
  | nil => exact .inl rfl
  | cons v records ih =>
    rw [List.forall_mem_cons] at htypes
    rw [List.foldl_cons]
    rcases ih (g.record v) htypes.2 with hrest | ⟨w, hw, hname, hrest⟩
    · rcases declaresAtMost_record (g := g) htypes.1 name with hfirst | ⟨hname, hfirst⟩
      · exact .inl (hrest.trans hfirst)
      · exact .inr ⟨v, List.mem_cons_self, hname, hrest.trans hfirst⟩
    · exact .inr ⟨w, List.mem_cons_of_mem v hw, hname, hrest⟩

/-! ### Types of values -/

/-- The type of the constant that a value stands for, given what produces it. -/
def constantType? (g : Graph) : Option Producer → Option TensorType
  | some (.initializer i) => g.initializers[i]?.map Tensor.type
  | some (.sparse i) => g.sparse[i]?.map SparseConstant.type
  | _ => none

lemma valueType?_eq (g : Graph) (name : String) :
    g.valueType? name = (((described? g.inputs name).or (g.inner? name)).map ValueInfo.type).or
      (g.constantType? (g.producer? name)) := by
  unfold valueType? inner? described?
  rw [List.append_assoc, List.find?_append]
  split
  · rename_i v hv
    rw [hv]
    rfl
  · rename_i hnone
    rw [hnone]
    rfl

lemma constantType?_foldl_record (g : Graph) (records : List ValueInfo) (name : String) :
    (records.foldl record g).constantType? ((records.foldl record g).producer? name) =
      g.constantType? (g.producer? name) := by
  obtain ⟨_, _, h⟩ := g.exists_foldl_record_eq records
  rw [h]
  rfl

end Graph

end TensorGraph
