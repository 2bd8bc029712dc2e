import Mathlib.Data.List.NodupEquivFin
import TensorGraph.Proofs.Propagation.Gains
import TensorGraph.Proofs.Validation

/-!
# Nodes in sequence

A list of nodes is in sequence if each value is the result of at most one of them and none takes a
value that only a later one gives. Passing the nodes then ends with knowledge by which each node
would add again what it has added, and knowledge of that kind is where passing them ends.
-/

namespace TensorGraph

open Knowledge

namespace Knowledge

/-- Two states of knowledge tell the same about one value. -/
structure AgreeAt (k k' : Knowledge) (name : String) : Prop where
  known : k.known.lookup name = k'.known.lookup name
  constants : k.constants.lookup name = k'.constants.lookup name

namespace AgreeAt

variable {k k' k'' : Knowledge} {name : String}

lemma refl (k : Knowledge) (name : String) : k.AgreeAt k name := ⟨rfl, rfl⟩

lemma symm (h : k.AgreeAt k' name) : k'.AgreeAt k name := ⟨h.known.symm, h.constants.symm⟩

lemma trans (h : k.AgreeAt k' name) (h' : k'.AgreeAt k'' name) : k.AgreeAt k'' name :=
  ⟨h.known.trans h'.known, h.constants.trans h'.constants⟩

end AgreeAt

lemma Concerns.agreeAt_append {d k : Knowledge} {names : List String} {name : String}
    (hd : d.Concerns names) (hnot : name ∉ names) : k.AgreeAt (d ++ k) name where
  known := by
    have hnone : d.known.lookup name = none :=
      lookup_eq_none_of_forall_ne fun e he heq => hnot (heq ▸ hd.known e he)
    rw [known_append, List.lookup_append, hnone, Option.none_or]
  constants := by
    have hnone : d.constants.lookup name = none :=
      lookup_eq_none_of_forall_ne fun e he heq => hnot (heq ▸ hd.constants e he)
    rw [constants_append, List.lookup_append, hnone, Option.none_or]

end Knowledge

/-- What a node adds depends on its operands only. -/
lemma gain_congr {rules : Registry} {opset : Int} {g : Graph}
    {declared : List (String × TensorType)} {k k' : Knowledge} {n : Node}
    (h : ∀ name ∈ n.presentInputs, k.AgreeAt k' name) :
    gain rules opset g declared k n = gain rules opset g declared k' n := by
  have hoperands : n.inputs.map (k.operand? g declared) =
      n.inputs.map (k'.operand? g declared) := by
    refine List.map_congr_left fun name hname => ?_
    unfold operand? typeOf
    by_cases hempty : name.isEmpty = true
    · rw [if_pos hempty, if_pos hempty]
    · have hagree := h name (List.mem_filter.mpr ⟨hname, by simpa using hempty⟩)
      rw [hagree.known, hagree.constants]
  unfold gain
  rw [hoperands]

/-- A node takes a result of another one. -/
def Node.Takes (n m : Node) : Prop := ∃ name ∈ n.presentInputs, name ∈ m.presentOutputs

/-- No value is given twice, and none is taken before it is given. -/
structure Sequenced (ns : List Node) : Prop where
  results : (ns.flatMap Node.presentOutputs).Nodup
  own : ∀ n ∈ ns, ¬n.Takes n
  behind : ns.Pairwise fun n m => ¬n.Takes m

namespace Sequenced

variable {n : Node} {ns : List Node}

lemma tail (h : Sequenced (n :: ns)) : Sequenced ns where
  results := (List.nodup_append.mp (List.flatMap_cons ▸ h.results)).2.1
  own m hm := h.own m (List.mem_cons_of_mem n hm)
  behind := (List.pairwise_cons.mp h.behind).2

lemma not_mem_presentOutputs (h : Sequenced (n :: ns)) :
    ∀ name ∈ n.presentInputs, ∀ m ∈ n :: ns, name ∉ m.presentOutputs := by
  intro name hname m hm hmem
  rcases List.mem_cons.mp hm with rfl | hm
  · exact h.own m List.mem_cons_self ⟨name, hname, hmem⟩
  · exact (List.pairwise_cons.mp h.behind).1 m hm ⟨name, hname, hmem⟩

end Sequenced

section Accumulation

variable {ns : List Node} {f : Node → Knowledge} {k : Knowledge} {name : String}

lemma agreeAt_accumulate_of_not_mem (hf : ∀ n ∈ ns, (f n).Concerns n.presentOutputs)
    (hnot : ∀ n ∈ ns, name ∉ n.presentOutputs) : k.AgreeAt (k.accumulate (ns.map f)) name where
  known := by
    rw [known_accumulate, lookup_foldl_append_of_not_mem (fun n hn => (hf n hn).known) hnot]
  constants := by
    rw [constants_accumulate, lookup_foldl_append_of_not_mem (fun n hn => (hf n hn).constants) hnot]

lemma agreeAt_accumulate_of_mem (hf : ∀ n ∈ ns, (f n).Concerns n.presentOutputs)
    (hnodup : (ns.flatMap Node.presentOutputs).Nodup) {n : Node} (hn : n ∈ ns)
    (hname : name ∈ n.presentOutputs) :
    (f n ++ k).AgreeAt (k.accumulate (ns.map f)) name where
  known := by
    rw [known_accumulate, lookup_foldl_append hnodup (fun n hn => (hf n hn).known) hn hname,
      known_append, List.lookup_append]
  constants := by
    rw [constants_accumulate, lookup_foldl_append hnodup (fun n hn => (hf n hn).constants) hn hname,
      constants_append, List.lookup_append]

/-- The order in which things are added is not seen by looking values up. -/
lemma agreeAt_accumulate_of_perm {ns' : List Node} (hperm : ns'.Perm ns)
    (hf : ∀ n ∈ ns, (f n).Concerns n.presentOutputs)
    (hnodup : (ns.flatMap Node.presentOutputs).Nodup) (name : String) :
    (k.accumulate (ns.map f)).AgreeAt (k.accumulate (ns'.map f)) name := by
  have hf' : ∀ n ∈ ns', (f n).Concerns n.presentOutputs :=
    fun n hn => hf n (hperm.mem_iff.mp hn)
  have hnodup' : (ns'.flatMap Node.presentOutputs).Nodup :=
    (hperm.flatMap_right _).nodup_iff.mpr hnodup
  by_cases hgiven : ∃ n ∈ ns, name ∈ n.presentOutputs
  · obtain ⟨n, hn, hname⟩ := hgiven
    exact (agreeAt_accumulate_of_mem hf hnodup hn hname).symm.trans
      (agreeAt_accumulate_of_mem hf' hnodup' (hperm.mem_iff.mpr hn) hname)
  · push Not at hgiven
    have hgiven' : ∀ n ∈ ns', name ∉ n.presentOutputs :=
      fun n hn => hgiven n (hperm.mem_iff.mp hn)
    exact (agreeAt_accumulate_of_not_mem hf hgiven).symm.trans
      (agreeAt_accumulate_of_not_mem hf' hgiven')

end Accumulation

section Runs

variable {rules : Registry} {opset : Int} {g : Graph} {declared : List (String × TensorType)}
  {ns : List Node} {k k' : Knowledge}

/-- What a node adds by some knowledge; nothing if its rule gives up. -/
def gained (rules : Registry) (opset : Int) (g : Graph) (declared : List (String × TensorType))
    (k : Knowledge) (n : Node) : Knowledge :=
  match gain rules opset g declared k n with
  | .ok d => d
  | .error _ => nothing

lemma gained_eq {n : Node} {d : Knowledge} (h : gain rules opset g declared k n = .ok d) :
    gained rules opset g declared k n = d := by
  unfold gained
  rw [h]

/-- A run ends where each node would add again what it has added. -/
lemma gain_eq_of_foldlM_passNode (hns : Sequenced ns)
    (h : ns.foldlM (passNode rules opset g declared) k = .ok k') :
    (∀ n ∈ ns, gain rules opset g declared k' n = .ok (gained rules opset g declared k' n)) ∧
      k' = k.accumulate (ns.map (gained rules opset g declared k')) := by
  induction ns generalizing k with
  | nil =>
    obtain rfl := Except.ok.inj h
    exact ⟨by simp, rfl⟩
  | cons n ns ih =>
    rw [List.foldlM_cons, bind_eq_ok_iff] at h
    obtain ⟨k₁, hpass, hrest⟩ := h
    rw [passNode_eq_map_gain, map_eq_ok_iff] at hpass
    obtain ⟨d, hd, rfl⟩ := hpass
    obtain ⟨hgain, hk'⟩ := ih hns.tail hrest
    -- the operands of the node have their say before the run and are not heard of later
    have hagree : ∀ name ∈ n.presentInputs, k.AgreeAt k' name := by
      intro name hname
      have hnot := hns.not_mem_presentOutputs name hname
      rw [List.forall_mem_cons] at hnot
      have hhead : k.AgreeAt (d ++ k) name := (learn_concerns hd).agreeAt_append hnot.1
      rw [hk']
      exact hhead.trans
        (agreeAt_accumulate_of_not_mem (fun m hm => learn_concerns (hgain m hm)) hnot.2)
    have hd' : gain rules opset g declared k' n = .ok d := by
      rw [← gain_congr hagree, hd]
    refine ⟨List.forall_mem_cons.mpr ⟨?_, hgain⟩, ?_⟩
    · rw [gained_eq hd', hd']
    · rw [List.map_cons, accumulate_cons, gained_eq hd']
      exact hk'

/-- If each node adds its part by what all parts together tell, a run adds these parts. -/
lemma foldlM_passNode_eq_of_gain {f : Node → Knowledge} (hns : Sequenced ns)
    (hgain : ∀ n ∈ ns, gain rules opset g declared k' n = .ok (f n))
    (hk' : ∀ name, k'.AgreeAt (k.accumulate (ns.map f)) name) :
    ns.foldlM (passNode rules opset g declared) k = .ok (k.accumulate (ns.map f)) := by
  induction ns generalizing k with
  | nil => rfl
  | cons n ns ih =>
    have hgain' := List.forall_mem_cons.mp hgain
    have hagree : ∀ name ∈ n.presentInputs, k.AgreeAt k' name := by
      intro name hname
      exact (agreeAt_accumulate_of_not_mem (fun m hm => learn_concerns (hgain m hm))
        (hns.not_mem_presentOutputs name hname)).trans (hk' name).symm
    have hpass : passNode rules opset g declared k n = .ok (f n ++ k) := by
      rw [passNode_eq_map_gain, gain_congr hagree, hgain'.1]
      rfl
    rw [List.foldlM_cons, hpass]
    exact ih hns.tail hgain'.2 hk'

end Runs

end TensorGraph
