import Mathlib.Data.List.Nodup
import TensorGraph.Proofs.Propagation.Merging
import TensorGraph.Propagation

/-!
# What a node adds to what is known

Passing a node puts something in front of what is known and leaves the rest alone. What is added
depends on what is known about the operands and on what is declared about the results, and it is
about the results only.
-/

namespace TensorGraph

/-! ### Entries put in front -/

section Entries

variable {ι β : Type} {names : ι → List String} {entries : ι → List (String × β)} {as : List ι}
  {base : List (String × β)} {name : String}

lemma lookup_eq_none_of_forall_ne {es : List (String × β)} (h : ∀ e ∈ es, e.1 ≠ name) :
    es.lookup name = none := by
  rw [List.lookup_eq_none_iff]
  intro e he
  simpa using (h e he).symm

lemma lookup_filter_key (es : List (String × β)) (keep : String → Bool) (name : String) :
    (es.filter fun e => keep e.1).lookup name =
      if keep name = true then es.lookup name else none := by
  induction es with
  | nil => simp
  | cons e es ih =>
    obtain ⟨key, b⟩ := e
    by_cases hkey : name = key
    · subst hkey
      by_cases hkeep : keep name = true
      · simp [hkeep]
      · simpa [hkeep] using ih
    · have hne : (name == key) = false := beq_false_of_ne hkey
      rw [List.lookup_cons, hne, ← ih]
      by_cases hkeep : keep key = true
      · simp [hkeep, List.lookup_cons, hne]
      · simp [hkeep]

lemma lookup_foldl_append_of_not_mem (hentries : ∀ a ∈ as, ∀ e ∈ entries a, e.1 ∈ names a)
    (hnot : ∀ a ∈ as, name ∉ names a) :
    (as.foldl (fun es a => entries a ++ es) base).lookup name = base.lookup name := by
  induction as generalizing base with
  | nil => rfl
  | cons a as ih =>
    rw [List.forall_mem_cons] at hentries hnot
    have hnone : (entries a).lookup name = none :=
      lookup_eq_none_of_forall_ne fun e he heq => hnot.1 (heq ▸ hentries.1 e he)
    rw [List.foldl_cons, ih hentries.2 hnot.2, List.lookup_append, hnone, Option.none_or]

/-- Where all names differ, only one of the parts has an entry for a name. -/
lemma lookup_foldl_append (hnodup : (as.flatMap names).Nodup)
    (hentries : ∀ a ∈ as, ∀ e ∈ entries a, e.1 ∈ names a) {a : ι} (ha : a ∈ as)
    (hname : name ∈ names a) :
    (as.foldl (fun es a => entries a ++ es) base).lookup name =
      ((entries a).lookup name).or (base.lookup name) := by
  induction as generalizing base with
  | nil => cases ha
  | cons b as ih =>
    rw [List.flatMap_cons, List.nodup_append] at hnodup
    obtain ⟨_, hnodup, hdisjoint⟩ := hnodup
    rw [List.forall_mem_cons] at hentries
    rw [List.foldl_cons]
    rcases List.mem_cons.mp ha with rfl | ha
    · have hrest : ∀ b ∈ as, name ∉ names b := fun b hb hmem =>
        hdisjoint name hname name (List.mem_flatMap.mpr ⟨b, hb, hmem⟩) rfl
      rw [lookup_foldl_append_of_not_mem hentries.2 hrest, List.lookup_append]
    · have hnone : (entries b).lookup name = none := by
        refine lookup_eq_none_of_forall_ne fun e he heq => ?_
        exact hdisjoint name (heq ▸ hentries.1 e he) name (List.mem_flatMap.mpr ⟨a, ha, hname⟩) rfl
      rw [ih hnodup hentries.2 ha, List.lookup_append, hnone, Option.none_or]

lemma reverse_foldl_append {β : Type} {f : ι → List β} {base : List β} :
    (as.foldl (fun es a => f a ++ es) base).reverse =
      base.reverse ++ as.flatMap fun a => (f a).reverse := by
  induction as generalizing base with
  | nil => simp
  | cons a as ih =>
    rw [List.foldl_cons, ih, List.reverse_append, List.flatMap_cons, List.append_assoc]

end Entries

namespace Knowledge

instance : Append Knowledge where
  append new old := {
    known := new.known ++ old.known
    constants := new.constants ++ old.constants
    records := new.records ++ old.records
    skips := new.skips ++ old.skips }

def nothing : Knowledge := { known := [] }

@[simp] lemma known_append (d k : Knowledge) : (d ++ k).known = d.known ++ k.known := rfl
@[simp] lemma constants_append (d k : Knowledge) :
    (d ++ k).constants = d.constants ++ k.constants := rfl

/-- Puts one thing after the other in front of what is known. -/
def accumulate (k : Knowledge) (ds : List Knowledge) : Knowledge := ds.foldl (fun k d => d ++ k) k

lemma accumulate_cons (k d : Knowledge) (ds : List Knowledge) :
    k.accumulate (d :: ds) = (d ++ k).accumulate ds := rfl

lemma known_accumulate {ι : Type} (k : Knowledge) (f : ι → Knowledge) (as : List ι) :
    (k.accumulate (as.map f)).known = as.foldl (fun es a => (f a).known ++ es) k.known := by
  unfold accumulate
  rw [List.foldl_map]
  exact (List.foldl_hom known fun _ _ => rfl).symm

lemma constants_accumulate {ι : Type} (k : Knowledge) (f : ι → Knowledge) (as : List ι) :
    (k.accumulate (as.map f)).constants =
      as.foldl (fun es a => (f a).constants ++ es) k.constants := by
  unfold accumulate
  rw [List.foldl_map]
  exact (List.foldl_hom constants fun _ _ => rfl).symm

lemma records_accumulate {ι : Type} (k : Knowledge) (f : ι → Knowledge) (as : List ι) :
    (k.accumulate (as.map f)).records.reverse =
      k.records.reverse ++ as.flatMap fun a => (f a).records.reverse := by
  rw [← reverse_foldl_append]
  unfold accumulate
  rw [List.foldl_map]
  exact congrArg _ (List.foldl_hom records fun _ _ => rfl).symm

lemma skips_accumulate {ι : Type} (k : Knowledge) (f : ι → Knowledge) (as : List ι) :
    (k.accumulate (as.map f)).skips.reverse =
      k.skips.reverse ++ as.flatMap fun a => (f a).skips.reverse := by
  rw [← reverse_foldl_append]
  unfold accumulate
  rw [List.foldl_map]
  exact congrArg _ (List.foldl_hom skips fun _ _ => rfl).symm

/-! ### What a node adds -/

/-- Nothing but the names is told about, and a recorded type is known. -/
structure Concerns (d : Knowledge) (names : List String) : Prop where
  known : ∀ e ∈ d.known, e.1 ∈ names
  constants : ∀ e ∈ d.constants, e.1 ∈ names
  records : ∀ v ∈ d.records, v = { name := v.name, type := v.type } ∧ v.type.isUnknown = false ∧
    (v.name, v.type) ∈ d.known

lemma Concerns.append {d k : Knowledge} {names : List String} (hd : d.Concerns names)
    (hk : k.Concerns names) : (d ++ k).Concerns names where
  known := List.forall_mem_append.mpr ⟨hd.known, hk.known⟩
  constants := List.forall_mem_append.mpr ⟨hd.constants, hk.constants⟩
  records := by
    refine List.forall_mem_append.mpr ⟨fun v hv => ?_, fun v hv => ?_⟩
    · obtain ⟨hplain, htyped, hmem⟩ := hd.records v hv
      exact ⟨hplain, htyped, List.mem_append_left _ hmem⟩
    · obtain ⟨hplain, htyped, hmem⟩ := hk.records v hv
      exact ⟨hplain, htyped, List.mem_append_right _ hmem⟩

lemma Concerns.mono {d : Knowledge} {names names' : List String} (h : d.Concerns names)
    (hsub : ∀ name ∈ names, name ∈ names') : d.Concerns names' where
  known e he := hsub _ (h.known e he)
  constants e he := hsub _ (h.constants e he)
  records := h.records

lemma nothing_concerns (names : List String) : nothing.Concerns names :=
  ⟨by simp [nothing], by simp [nothing], by simp [nothing]⟩

lemma Concerns.accumulate {names : List String} {k : Knowledge} {ds : List Knowledge}
    (hk : k.Concerns names) (hds : ∀ d ∈ ds, d.Concerns names) :
    (k.accumulate ds).Concerns names := by
  induction ds generalizing k with
  | nil => exact hk
  | cons d ds ih =>
    rw [List.forall_mem_cons] at hds
    exact ih (hds.1.append hk) hds.2

lemma addConstants_append (outputs : List String) (values : List (Option Tensor))
    (d k : Knowledge) :
    (d ++ k).addConstants outputs values = d.addConstants outputs values ++ k := by
  unfold addConstants
  refine List.foldl_hom (fun d : Knowledge => d ++ k) ?_
  rintro d ⟨name, value?⟩
  cases value? with
  | none => rfl
  | some value =>
    dsimp only
    split_ifs
    · rfl
    · rfl

lemma addType_append (declared : List (String × TensorType)) (n : Node) (d k : Knowledge)
    (result : String × TensorType) :
    addType declared n (d ++ k) result = addType declared n d result ++ k := by
  obtain ⟨name, type⟩ := result
  unfold addType
  dsimp only
  split_ifs
  · rfl
  · split
    · rfl
    · split
      · rfl
      · rfl

lemma foldl_addType (declared : List (String × TensorType)) (n : Node) (k : Knowledge)
    (results : List (String × TensorType)) :
    results.foldl (addType declared n) k =
      k.accumulate (results.map (addType declared n nothing)) := by
  unfold accumulate
  rw [List.foldl_map]
  congr 1
  funext k result
  exact addType_append declared n nothing k result

end Knowledge

open Knowledge

/-- What the answer of a rule about a node adds. -/
def learn (declared : List (String × TensorType)) (n : Node) : NodeAnswer → Except Abort Knowledge
  | .error (.abort a) => .error a
  | .error e => .ok (nothing.skip n e.message)
  | .ok (types, values) =>
    .ok ((nothing.addConstants n.outputs values).accumulate
      ((List.zip n.outputs types).map (addType declared n nothing)))

/-- What passing a node adds. -/
def gain (rules : Registry) (opset : Int) (g : Graph) (declared : List (String × TensorType))
    (k : Knowledge) (n : Node) : Except Abort Knowledge :=
  learn declared n
    (askRule rules { node := n, operands := n.inputs.map (k.operand? g declared), opset })

lemma passNode_eq_map_gain (rules : Registry) (opset : Int) (g : Graph)
    (declared : List (String × TensorType)) (k : Knowledge) (n : Node) :
    passNode rules opset g declared k n =
      (gain rules opset g declared k n).map fun d => d ++ k := by
  unfold passNode gain
  dsimp only
  generalize askRule rules { node := n, operands := n.inputs.map (k.operand? g declared), opset } =
    answer
  rcases answer with e | ⟨types, values⟩
  · cases e <;> rfl
  · have hconstants : k.addConstants n.outputs values =
        nothing.addConstants n.outputs values ++ k := addConstants_append _ _ nothing k
    have htypes : (List.zip n.outputs types).foldl (addType declared n)
          (nothing.addConstants n.outputs values ++ k) =
        (List.zip n.outputs types).foldl (addType declared n)
          (nothing.addConstants n.outputs values) ++ k :=
      List.foldl_hom (fun d : Knowledge => d ++ k) fun d result =>
        addType_append declared n d k result
    unfold learn
    dsimp only
    rw [Except.map, ← foldl_addType, hconstants, htypes]

/-- The name of a result, unless it is not used. -/
def resultNames (result : String × TensorType) : List String :=
  if result.1.isEmpty then [] else [result.1]

lemma flatMap_resultNames_sublist (outputs : List String) (types : List TensorType) :
    ((List.zip outputs types).flatMap resultNames).Sublist
      (outputs.filter fun name => !name.isEmpty) := by
  induction outputs generalizing types with
  | nil => exact .slnil
  | cons name outputs ih =>
    cases types with
    | nil => exact List.nil_sublist _
    | cons type types =>
      rw [List.zip_cons_cons, List.flatMap_cons, resultNames]
      by_cases hempty : name.isEmpty
      · simpa [hempty] using ih types
      · simpa [hempty] using ih types

namespace Knowledge

/-- What can come of one result: it is not told about, it becomes known and recorded as the rule
says, perhaps merged with its declaration, or its declaration stands. -/
lemma addType_cases (declared : List (String × TensorType)) (n : Node) (name : String)
    (type : TensorType) :
    ((name = "" ∨ type.isUnknown = true) ∧ addType declared n nothing (name, type) = nothing) ∨
      (name ≠ "" ∧ type.isUnknown = false) ∧
        ((∃ accepted, ((declared.lookup name = none ∧ accepted = type) ∨
              ∃ d, declared.lookup name = some d ∧ d.merge type = .ok accepted) ∧
            addType declared n nothing (name, type) =
              { known := [(name, accepted)], records := [{ name, type := accepted }] }) ∨
          ∃ d conflict, declared.lookup name = some d ∧ d.merge type = .error conflict ∧
            addType declared n nothing (name, type) =
              { known := [(name, d)],
                skips := [⟨n.label, n.op, conflictText name d type conflict⟩] }) := by
  unfold addType
  dsimp only
  by_cases hidle : name.isEmpty || type.isUnknown
  · left
    rw [if_pos hidle]
    simpa using hidle
  · right
    rw [if_neg hidle]
    refine ⟨by simpa using hidle, ?_⟩
    cases hlookup : declared.lookup name with
    | none => exact .inl ⟨type, .inl ⟨rfl, rfl⟩, rfl⟩
    | some d =>
      cases hmerge : d.merge type with
      | ok merged => exact .inl ⟨merged, .inr ⟨d, rfl, hmerge⟩, by simp [hmerge, nothing]⟩
      | error conflict => exact .inr ⟨d, conflict, rfl, hmerge, by simp [hmerge, nothing, skip]⟩

lemma addType_concerns (declared : List (String × TensorType)) (n : Node)
    (result : String × TensorType) :
    (addType declared n nothing result).Concerns (resultNames result) := by
  obtain ⟨name, type⟩ := result
  have hmem (hne : name ≠ "") : name ∈ resultNames (name, type) := by simp [resultNames, hne]
  rcases addType_cases declared n name type with ⟨_, h⟩ | ⟨⟨hne, htype⟩, haccepted | hconflict⟩
  · rw [h]
    exact nothing_concerns _
  · obtain ⟨accepted, hfrom, h⟩ := haccepted
    rw [h]
    refine ⟨by simpa using hmem hne, by simp, ?_⟩
    have htold : accepted.isUnknown = false := by
      rcases hfrom with ⟨_, rfl⟩ | ⟨d, _, hmerge⟩
      · exact htype
      · exact TensorType.isUnknown_eq_false_of_merge hmerge htype
    simpa using htold
  · obtain ⟨d, conflict, _, _, h⟩ := hconflict
    rw [h]
    exact ⟨by simpa using hmem hne, by simp, by simp⟩

lemma exists_addConstants_eq {names outputs : List String} (values : List (Option Tensor))
    (k : Knowledge) (hnames : ∀ name ∈ outputs, name ≠ "" → name ∈ names)
    (hk : ∀ e ∈ k.constants, e.1 ∈ names) :
    ∃ constants, k.addConstants outputs values = { k with constants } ∧
      ∀ e ∈ constants, e.1 ∈ names := by
  induction outputs generalizing values k with
  | nil => exact ⟨k.constants, rfl, hk⟩
  | cons name outputs ih =>
    rw [List.forall_mem_cons] at hnames
    cases values with
    | nil => exact ⟨k.constants, rfl, hk⟩
    | cons value? values =>
      cases value? with
      | none => exact ih values k hnames.2 hk
      | some value =>
        by_cases hempty : name = ""
        · have hstep : k.addConstants (name :: outputs) (some value :: values) =
              k.addConstants outputs values := by simp [addConstants, hempty]
          rw [hstep]
          exact ih values k hnames.2 hk
        · have hstep : k.addConstants (name :: outputs) (some value :: values) =
              { k with constants := (name, { value with name }) :: k.constants }.addConstants
                outputs values := by simp [addConstants, hempty]
          rw [hstep]
          exact ih values _ hnames.2 (List.forall_mem_cons.mpr ⟨hnames.1 hempty, hk⟩)

lemma exists_nothing_addConstants_eq (n : Node) (values : List (Option Tensor)) :
    ∃ constants, nothing.addConstants n.outputs values = { known := [], constants } ∧
      ∀ e ∈ constants, e.1 ∈ n.presentOutputs :=
  exists_addConstants_eq values nothing
    (fun _ hname hne => List.mem_filter.mpr ⟨hname, by simpa using hne⟩) (by simp [nothing])

end Knowledge

lemma learn_cases {declared : List (String × TensorType)} {n : Node} {answer : NodeAnswer}
    {d : Knowledge} (h : learn declared n answer = .ok d) :
    (∃ reason, d = nothing.skip n reason) ∨
      ∃ types values, answer = .ok (types, values) ∧
        d = (nothing.addConstants n.outputs values).accumulate
          ((List.zip n.outputs types).map (addType declared n nothing)) := by
  rcases answer with e | ⟨types, values⟩
  · left
    cases e with
    | abort a => cases h
    | _ => exact ⟨_, (Except.ok.inj h).symm⟩
  · exact .inr ⟨types, values, rfl, (Except.ok.inj h).symm⟩

lemma learn_concerns {declared : List (String × TensorType)} {n : Node} {answer : NodeAnswer}
    {d : Knowledge} (h : learn declared n answer = .ok d) : d.Concerns n.presentOutputs := by
  rcases learn_cases h with ⟨reason, rfl⟩ | ⟨types, values, _, rfl⟩
  · exact ⟨by simp [nothing, skip], by simp [nothing, skip], by simp [nothing, skip]⟩
  · obtain ⟨constants, hconstants, hnames⟩ := exists_nothing_addConstants_eq n values
    rw [hconstants]
    refine Concerns.accumulate ⟨by simp, hnames, by simp⟩ fun d hd => ?_
    obtain ⟨result, hmem, rfl⟩ := List.mem_map.mp hd
    refine (addType_concerns declared n result).mono fun name hname => ?_
    exact (flatMap_resultNames_sublist n.outputs types).subset
      (List.mem_flatMap.mpr ⟨result, hmem, hname⟩)

namespace Knowledge

lemma addType_empty (declared : List (String × TensorType)) (n : Node) (type : TensorType) :
    addType declared n nothing ("", type) = nothing := rfl

/-- A declaration that says what became known leads to the same. -/
lemma addType_congr {declared declared' : List (String × TensorType)} {n : Node} {name : String}
    {type : TensorType}
    (h : declared'.lookup name = declared.lookup name ∨
      ∃ t, (addType declared n nothing (name, type)).known.lookup name = some t ∧
        declared'.lookup name = some t) :
    addType declared' n nothing (name, type) = addType declared n nothing (name, type) := by
  rcases h with h | ⟨t, hknown, hdeclared⟩
  · unfold addType
    dsimp only
    rw [h]
  rcases addType_cases declared n name type with ⟨_, h⟩ | ⟨⟨hne, htype⟩, haccepted | hconflict⟩
  · rw [h] at hknown
    cases hknown
  · obtain ⟨accepted, hfrom, h⟩ := haccepted
    rw [h] at hknown ⊢
    obtain rfl : accepted = t := by simpa using hknown
    have hagain : accepted.merge type = .ok accepted := by
      rcases hfrom with ⟨_, rfl⟩ | ⟨d, _, hmerge⟩
      · exact accepted.merge_self
      · exact TensorType.merge_again hmerge
    unfold addType
    simp [hne, htype, hdeclared, hagain, nothing]
  · obtain ⟨d, conflict, _, hmerge, h⟩ := hconflict
    rw [h] at hknown ⊢
    obtain rfl : d = t := by simpa using hknown
    unfold addType
    simp [hne, htype, hdeclared, hmerge, nothing, skip]

end Knowledge

lemma lookup_known_learn {declared : List (String × TensorType)} {n : Node}
    {types : List TensorType} {values : List (Option Tensor)} {d : Knowledge}
    (h : learn declared n (.ok (types, values)) = .ok d) (hnodup : n.presentOutputs.Nodup)
    {result : String × TensorType} (hmem : result ∈ List.zip n.outputs types)
    (hne : result.1 ≠ "") :
    d.known.lookup result.1 = (addType declared n nothing result).known.lookup result.1 := by
  obtain rfl := Except.ok.inj h
  obtain ⟨constants, hconstants, _⟩ := exists_nothing_addConstants_eq n values
  have hnames : ∀ r ∈ List.zip n.outputs types,
      ∀ e ∈ (addType declared n nothing r).known, e.1 ∈ resultNames r :=
    fun r _ => (addType_concerns declared n r).known
  rw [known_accumulate, lookup_foldl_append ((flatMap_resultNames_sublist _ _).nodup hnodup) hnames
    hmem (by simp [resultNames, hne]), hconstants, List.lookup_nil, Option.or_none]

/-- A type that is recorded is the one that is known. -/
lemma lookup_known_of_mem_records {declared : List (String × TensorType)} {n : Node}
    {answer : NodeAnswer} {d : Knowledge} (h : learn declared n answer = .ok d)
    (hnodup : n.presentOutputs.Nodup) {v : ValueInfo} (hv : v ∈ d.records) :
    d.known.lookup v.name = some v.type := by
  rcases learn_cases h with ⟨reason, rfl⟩ | ⟨types, values, rfl, rfl⟩
  · cases hv
  have hlearn := h
  obtain ⟨constants, hconstants, _⟩ := exists_nothing_addConstants_eq n values
  rw [hconstants, ← List.mem_reverse, records_accumulate] at hv
  obtain ⟨⟨name, type⟩, hmem, hrecord⟩ : ∃ result ∈ List.zip n.outputs types,
      v ∈ (addType declared n nothing result).records := by simpa using hv
  rcases addType_cases declared n name type with ⟨_, h⟩ | ⟨⟨hne, _⟩, haccepted | hconflict⟩
  · rw [h] at hrecord
    cases hrecord
  · obtain ⟨accepted, _, h⟩ := haccepted
    rw [h] at hrecord
    obtain rfl := List.mem_singleton.mp hrecord
    rw [lookup_known_learn hlearn hnodup hmem hne, h]
    simp
  · obtain ⟨d, conflict, _, _, h⟩ := hconflict
    rw [h] at hrecord
    cases hrecord

/-- Where declarations differ at most by what became known, a node adds the same. -/
lemma learn_congr {declared declared' : List (String × TensorType)} {n : Node}
    {answer : NodeAnswer} {d : Knowledge} (h : learn declared n answer = .ok d)
    (hnodup : n.presentOutputs.Nodup)
    (hdeclared : ∀ name ∈ n.presentOutputs, declared'.lookup name = declared.lookup name ∨
      ∃ t, d.known.lookup name = some t ∧ declared'.lookup name = some t) :
    learn declared' n answer = .ok d := by
  rcases answer with e | ⟨types, values⟩
  · cases e <;> exact h
  rw [← h]
  unfold learn
  dsimp only
  refine congrArg (fun ds => Except.ok (Knowledge.accumulate _ ds)) (List.map_congr_left ?_)
  rintro ⟨name, type⟩ hmem
  by_cases hempty : name = ""
  · rw [hempty, addType_empty, addType_empty]
  · have hpresent : name ∈ n.presentOutputs :=
      List.mem_filter.mpr ⟨(List.of_mem_zip hmem).1, by simpa using hempty⟩
    have hsame := hdeclared name hpresent
    rw [lookup_known_learn h hnodup hmem hempty] at hsame
    exact addType_congr hsame

/-! ### The nodes of a run -/

namespace Graph

lemma orderedNodes_map_snd (g : Graph) :
    g.orderedNodes.map Prod.snd = g.order.filterMap fun i => g.nodes[i]? := by
  unfold orderedNodes
  rw [List.map_filterMap]
  congr 1
  funext i
  cases g.nodes[i]? <;> rfl

lemma mem_nodes_of_mem_orderedNodes {g : Graph} {n : Node}
    (hn : n ∈ g.orderedNodes.map Prod.snd) : n ∈ g.nodes := by
  rw [orderedNodes_map_snd] at hn
  obtain ⟨i, _, hi⟩ := List.mem_filterMap.mp hn
  exact List.mem_of_getElem? hi

end Graph

end TensorGraph
