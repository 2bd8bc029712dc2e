import Mathlib.Data.List.Induction
import Mathlib.Data.List.Perm.Subperm
import TensorGraph.Proofs.Files.PathText
import TensorGraph.Proofs.Pool.Batches
import TensorGraph.Proofs.SortedEntries

/-!
# The keys of a manifest

A report holds one entry for each key, and the key of a path is made of the names that are left of
it behind the root. So a report has every model if and only if no two paths leave the same names.
-/

namespace TensorGraph

/-! ### Reports as maps -/

lemma lookup_eq_none_iff_not_mem {α : Type} {entries : List (String × α)} {key : String} :
    entries.lookup key = none ↔ key ∉ entries.map Prod.fst := by
  rw [List.lookup_eq_none_iff, List.mem_map, not_exists]
  refine forall_congr' fun e => ?_
  rw [not_and, bne_iff_ne, ne_comm]

namespace ManifestReport

variable {entries : List (String × ManifestEntry)}

lemma ofList_append_singleton (entries : List (String × ManifestEntry))
    (x : String × ManifestEntry) : ofList (entries ++ [x]) = (ofList entries).insert x.1 x.2 := by
  simp [ofList]

lemma get?_ofList (entries : List (String × ManifestEntry)) (key : String) :
    (ofList entries).get? key = entries.reverse.lookup key := by
  induction entries using List.reverseRecOn with
  | nil => rfl
  | append_singleton entries x ih =>
    rw [ofList_append_singleton, get?, insert, lookup_insertSorted, List.reverse_append,
      List.reverse_singleton, List.singleton_append, lookup_cons_ite, ← ih, get?]

lemma nodup_keys_ofList (entries : List (String × ManifestEntry)) :
    (ofList entries).keys.Nodup := by
  have hsorted : (ofList entries).entries.Pairwise fun x y => x.1 < y.1 := by
    induction entries using List.reverseRecOn with
    | nil => exact .nil
    | append_singleton entries x ih =>
      rw [ofList_append_singleton]
      exact sorted_insertSorted ih
  exact List.pairwise_map.mpr (hsorted.imp String.ne_of_lt)

lemma mem_keys_ofList {key : String} :
    key ∈ (ofList entries).keys ↔ key ∈ entries.map Prod.fst := by
  rw [← not_iff_not, keys, ← lookup_eq_none_iff_not_mem]
  change (ofList entries).get? key = none ↔ _
  rw [get?_ofList, lookup_eq_none_iff_not_mem, List.map_reverse, List.mem_reverse]

lemma size_ofList_eq_iff :
    (ofList entries).size = entries.length ↔ (entries.map Prod.fst).Nodup := by
  have hsubperm : (ofList entries).keys.Subperm (entries.map Prod.fst) :=
    List.subperm_of_subset (nodup_keys_ofList entries) fun _ => mem_keys_ofList.mp
  have hlength : (ofList entries).keys.length = (ofList entries).size := List.length_map _
  constructor
  · intro hsize
    have hperm := hsubperm.perm_of_length_le (by simp [hlength, hsize])
    exact hperm.nodup_iff.mp (nodup_keys_ofList entries)
  · intro hnodup
    have hsubperm' : (entries.map Prod.fst).Subperm (ofList entries).keys :=
      List.subperm_of_subset hnodup fun _ => mem_keys_ofList.mpr
    have hperm := hsubperm.antisymm hsubperm'
    rw [← hlength, hperm.length_eq, List.length_map]

lemma get?_ofList_of_mem (hnodup : (entries.map Prod.fst).Nodup) {x : String × ManifestEntry}
    (hx : x ∈ entries) : (ofList entries).get? x.1 = some x.2 := by
  obtain ⟨before, behind, rfl⟩ := List.append_of_mem hx
  rw [get?_ofList, List.lookup_eq_some_iff]
  refine ⟨behind.reverse, before.reverse, by simp, fun y hy => ?_⟩
  rw [List.map_append, List.map_cons] at hnodup
  have hbehind : x.1 ∉ behind.map Prod.fst :=
    (List.nodup_cons.mp (List.nodup_append.mp hnodup).2.1).1
  have hne : x.1 ≠ y.1 := fun heq =>
    hbehind (heq ▸ List.mem_map_of_mem (List.mem_reverse.mp hy))
  simpa using hne

end ManifestReport

/-! ### Keys of paths -/

namespace Path

/-- The steps that the key of a path goes by: those behind the root, or all of them if the path
does not lead into the root. -/
def route (root p : Path) : List PathStep := (stepsBehind? root.steps p.steps).getD p.steps

/-- The names of which the key of a path consists. -/
def keyNames (root p : Path) : List String := (root.route p).filterMap keyPart?

lemma stepsBehind?_eq_some_iff {as bs cs : List PathStep} :
    stepsBehind? as bs = some cs ↔ bs = as ++ cs := by
  induction as generalizing bs with
  | nil => simp [stepsBehind?]
  | cons a as ih =>
    cases bs with
    | nil => simp [stepsBehind?]
    | cons b bs =>
      rw [stepsBehind?]
      by_cases hab : a = b
      · simp [hab, ih]
      · simp [hab, Ne.symm hab]

lemma steps_eq_append_route_or (root p : Path) :
    p.steps = root.steps ++ root.route p ∨ p.steps = root.route p := by
  unfold route
  cases h : stepsBehind? root.steps p.steps with
  | none => exact .inr rfl
  | some steps => exact .inl (stepsBehind?_eq_some_iff.mp h)

variable {root p q : Path} {name : String}

lemma mem_segments_of_stepOf? {first : Bool} {segment : String}
    (h : stepOf? first segment = some (.name name)) : segment = name ∧ name ≠ "" := by
  unfold stepOf? at h
  split at h
  · cases h
  · split at h
    · split at h <;> cases h
    · split at h
      · cases h
      · cases h
        simp_all

lemma mem_segments_of_mem_steps (h : .name name ∈ p.steps) : name ∈ p.segments ∧ name ≠ "" := by
  unfold steps at h
  split at h
  · cases h
  · rename_i first rest hsegments
    rw [hsegments]
    rcases List.mem_append.mp h with h | h
    · split at h
      · simp at h
      · obtain ⟨rfl, hne⟩ := mem_segments_of_stepOf? (Option.mem_toList.mp h)
        exact ⟨List.mem_cons_self, hne⟩
    · obtain ⟨segment, hsegment, hstep⟩ := List.mem_filterMap.mp h
      obtain ⟨rfl, hne⟩ := mem_segments_of_stepOf? hstep
      exact ⟨List.mem_cons_of_mem first hsegment, hne⟩

lemma route_suffix (root p : Path) : root.route p <:+ p.steps := by
  rcases steps_eq_append_route_or root p with hp | hp
  · exact ⟨root.steps, hp.symm⟩
  · exact ⟨[], hp.symm⟩

lemma slashless_of_mem_keyNames (hp : p.Writable) (h : name ∈ root.keyNames p) :
    '/' ∉ name.toList := by
  obtain ⟨step, hstep, hpart⟩ := List.mem_filterMap.mp h
  cases step with
  | root => cases hpart; simp
  | name n =>
    cases hpart
    exact hp.slashless name (mem_segments_of_mem_steps ((route_suffix root p).mem hstep)).1
  | _ => cases hpart

lemma keyNames_ne_singleton_empty (hp : p.fileName?.isSome) : root.keyNames p ≠ [""] := by
  intro h
  unfold fileName? at hp
  split at hp
  · rename_i name hlast
    obtain ⟨init, hsteps⟩ := List.getLast?_eq_some_iff.mp hlast
    have hname : name ≠ "" := (mem_segments_of_mem_steps (List.mem_of_getLast? hlast)).2
    rcases List.suffix_concat_iff.mp (hsteps ▸ route_suffix root p) with hroute | ⟨t, hroute, -⟩
    · simp [keyNames, hroute] at h
    · have hend := congrArg List.getLast? h
      simp [keyNames, hroute, keyPart?] at hend
      exact hname hend
  · cases hp

/-- A key tells the names of which it consists. -/
lemma relativeKey_eq_iff (hp : p.Writable) (hq : q.Writable) (hpname : p.fileName?.isSome)
    (hqname : q.fileName?.isSome) :
    root.relativeKey p = root.relativeKey q ↔ root.keyNames p = root.keyNames q := by
  refine ⟨fun h => ?_, congrArg "/".intercalate⟩
  change "/".intercalate (root.keyNames p) = "/".intercalate (root.keyNames q) at h
  have hps : ∀ s ∈ root.keyNames p, '/' ∉ s.toList := fun s => slashless_of_mem_keyNames hp
  have hqs : ∀ s ∈ root.keyNames q, '/' ∉ s.toList := fun s => slashless_of_mem_keyNames hq
  -- Without names the key is empty, as it would be with one name that is.
  by_cases hpnil : root.keyNames p = []
  · by_cases hqnil : root.keyNames q = []
    · rw [hpnil, hqnil]
    · rw [hpnil] at h
      exact absurd (Text.intercalate_inj hqnil (by simp) hqs (by simp) (h.symm.trans (by rfl)))
        (keyNames_ne_singleton_empty hqname)
  · by_cases hqnil : root.keyNames q = []
    · rw [hqnil] at h
      exact absurd (Text.intercalate_inj hpnil (by simp) hps (by simp) (h.trans (by rfl)))
        (keyNames_ne_singleton_empty hpname)
    · exact Text.intercalate_inj hpnil hqnil hps hqs h

/-- A step that can be told from its part of a key. -/
def Shows : PathStep → Prop
  | .root => True
  | .name name => name ≠ ""
  | _ => False

lemma exists_keyPart?_of_shows {a : PathStep} (ha : Shows a) : ∃ part, keyPart? a = some part := by
  cases a with
  | root => exact ⟨_, rfl⟩
  | name n => exact ⟨_, rfl⟩
  | _ => cases ha

lemma eq_of_keyPart?_eq {a b : PathStep} (ha : Shows a) (hb : Shows b)
    (h : keyPart? a = keyPart? b) : a = b := by
  cases a <;> cases b <;> simp_all [Shows, keyPart?, eq_comm]

lemma filterMap_keyPart?_inj {as bs : List PathStep} (has : ∀ a ∈ as, Shows a)
    (hbs : ∀ b ∈ bs, Shows b) (h : as.filterMap keyPart? = bs.filterMap keyPart?) : as = bs := by
  induction as generalizing bs with
  | nil =>
    cases bs with
    | nil => rfl
    | cons b bs =>
      obtain ⟨part, hpart⟩ := exists_keyPart?_of_shows (hbs b List.mem_cons_self)
      simp [hpart] at h
  | cons a as ih =>
    obtain ⟨part, hpart⟩ := exists_keyPart?_of_shows (has a List.mem_cons_self)
    cases bs with
    | nil => simp [hpart] at h
    | cons b bs =>
      obtain ⟨part', hpart'⟩ := exists_keyPart?_of_shows (hbs b List.mem_cons_self)
      rw [List.forall_mem_cons] at has hbs
      rw [List.filterMap_cons_some hpart, List.filterMap_cons_some hpart'] at h
      obtain ⟨hhead, htail⟩ := List.cons.inj h
      rw [eq_of_keyPart?_eq has.1 hbs.1 (by rw [hpart, hpart', hhead]), ih has.2 hbs.2 htail]

lemma shows_of_mem_route {step : PathStep} (h : step ∈ root.route p)
    (hdots : step ≠ .here ∧ step ≠ .up) : Shows step := by
  cases step with
  | root => trivial
  | name n => exact (mem_segments_of_mem_steps ((route_suffix root p).mem h)).2
  | here => exact absurd rfl hdots.1
  | up => exact absurd rfl hdots.2

lemma steps_eq_or_of_keyNames_eq (h : root.keyNames p = root.keyNames q)
    (hp : ∀ step ∈ root.route p, step ≠ .here ∧ step ≠ .up)
    (hq : ∀ step ∈ root.route q, step ≠ .here ∧ step ≠ .up) :
    p.steps = q.steps ∨ p.steps = root.steps ++ q.steps ∨ q.steps = root.steps ++ p.steps := by
  have hroute : root.route p = root.route q := filterMap_keyPart?_inj
    (fun step hstep => shows_of_mem_route hstep (hp step hstep))
    (fun step hstep => shows_of_mem_route hstep (hq step hstep)) h
  rcases steps_eq_append_route_or root p with hps | hps <;>
    rcases steps_eq_append_route_or root q with hqs | hqs
  · exact .inl (by rw [hps, hqs, hroute])
  · exact .inr (.inl (by rw [hps, hqs, hroute]))
  · exact .inr (.inr (by rw [hps, hqs, hroute]))
  · exact .inl (by rw [hps, hqs, hroute])

end Path

/-! ### Reports on batches -/

namespace Batch

variable {b : Batch ManifestEntry}

lemma manifestReport_complete_iff_nodup (root : Path) :
    (b.manifestReport root).size = b.successes.length ∧
        (∀ x ∈ b.successes, (b.manifestReport root).get? (root.relativeKey x.1) = some x.2) ↔
      (b.successes.map fun x => root.relativeKey x.1).Nodup := by
  unfold manifestReport
  have hkeys : (b.successes.map fun x => (root.relativeKey x.1, x.2)).map Prod.fst =
      b.successes.map fun x => root.relativeKey x.1 := by
    rw [List.map_map]
    rfl
  rw [← hkeys, ← ManifestReport.size_ofList_eq_iff, List.length_map]
  refine ⟨And.left, fun hsize => ⟨hsize, fun x hx => ?_⟩⟩
  rw [← List.length_map fun x => (root.relativeKey x.1, x.2),
    ManifestReport.size_ofList_eq_iff] at hsize
  exact ManifestReport.get?_ofList_of_mem hsize (List.mem_map_of_mem hx)

/-- A report on models under different paths has an entry for each of them, that of the model, if
and only if no two paths have the same names in their keys. Such paths have dots in what the key
goes by, or one of them leads into the root and the other is the rest of its way. -/
theorem manifestReport_complete_iff (root : Path)
    (hdistinct : b.successes.Pairwise fun x y => x.1.agrees y.1 = false)
    (hfile : ∀ x ∈ b.successes, x.1.Writable ∧ x.1.fileName?.isSome) :
    ((b.manifestReport root).size = b.successes.length ∧
        (∀ x ∈ b.successes, (b.manifestReport root).get? (root.relativeKey x.1) = some x.2) ↔
      b.successes.Pairwise fun x y => root.keyNames x.1 ≠ root.keyNames y.1) ∧
    ∀ x ∈ b.successes, ∀ y ∈ b.successes, x ≠ y → root.keyNames x.1 = root.keyNames y.1 →
      (∃ step ∈ root.route x.1 ++ root.route y.1, step = .here ∨ step = .up) ∨
        x.1.steps = root.steps ++ y.1.steps ∨ y.1.steps = root.steps ++ x.1.steps := by
  constructor
  · rw [manifestReport_complete_iff_nodup, List.Nodup, List.pairwise_map]
    refine List.Pairwise.iff_of_mem fun {x y} hx hy => not_congr ?_
    obtain ⟨hxwritable, hxname⟩ := hfile x hx
    obtain ⟨hywritable, hyname⟩ := hfile y hy
    exact Path.relativeKey_eq_iff hxwritable hywritable hxname hyname
  · intro x hx y hy hne hnames
    by_contra hnot
    rw [not_or, not_exists] at hnot
    obtain ⟨hdots, hrest⟩ := hnot
    have hplain : ∀ step ∈ root.route x.1 ++ root.route y.1, step ≠ .here ∧ step ≠ .up :=
      fun step hstep => not_or.mp fun h => hdots step ⟨hstep, h⟩
    rw [List.forall_mem_append] at hplain
    have hsteps := Path.steps_eq_or_of_keyNames_eq hnames hplain.1 hplain.2
    have hagrees : x.1.agrees y.1 = false := Distinct.agrees_eq_false hdistinct hx hy hne
    exact beq_eq_false_iff_ne.mp hagrees (hsteps.resolve_right hrest)

theorem manifestReport_complete_iff_on_folders :
    let entry (version : Int64) : ManifestEntry := ⟨"x", .unknown, none, none, none, version, none⟩
    let b : Batch ManifestEntry := { successes := [(.ofText "models/a.onnx", entry 7),
      (.ofText "models/d/../b.onnx", entry 8), (.ofText "other/a.onnx", entry 9)] }
    let root := Path.ofText "models"
    (b.successes.Pairwise fun x y => x.1.agrees y.1 = false) ∧
      (∀ x ∈ b.successes, x.1.Writable ∧ x.1.fileName?.isSome) ∧
      (b.manifestReport root).size = 3 ∧
      ∀ x ∈ b.successes, (b.manifestReport root).get? (root.relativeKey x.1) = some x.2 := by
  intro entry b root
  have hdistinct : b.successes.Pairwise fun x y => x.1.agrees y.1 = false := by decide
  have hfile : ∀ x ∈ b.successes, x.1.Writable ∧ x.1.fileName?.isSome := by
    simp only [b, List.forall_mem_cons, Path.writable_ofText, true_and]
    exact ⟨by decide, by decide, by decide, by simp⟩
  exact ⟨hdistinct, hfile, (manifestReport_complete_iff root hdistinct hfile).1.mpr (by decide)⟩

/-- Where a key leaves out dots, two files can fall under one key. -/
theorem manifestReport_loses_model :
    let t : FileTree := { files := [(["a.onnx"], [8, 7, 58, 0]), (["d", "a.onnx"], [8, 8, 58, 0])] }
    let paths := [Path.ofText "d/../a.onnx", Path.ofText "d/a.onnx"]
    let b := t.manifests paths
    let root := Path.ofText "."
    (paths.Pairwise fun p q => p.agrees q = false) ∧
      b.successes.map (fun x => (x.1.text, x.2.irVersion)) = [("d/../a.onnx", 7), ("d/a.onnx", 8)] ∧
      (b.manifestReport root).size = 1 ∧
      ((b.manifestReport root).get? (root.relativeKey (.ofText "d/../a.onnx"))).map
        ManifestEntry.irVersion = some 8 := by
  intro t paths b root
  let entry (version : Int64) : ManifestEntry := ⟨"", .unknown, none, none, none, version, none⟩
  have hresults : (paths.map fun p => (p, t.manifest p)).filterMap (fun (p, r) =>
      r.toOption.map fun e => (p, e)) =
        [(.ofText "d/../a.onnx", entry 7), (.ofText "d/a.onnx", entry 8)] := by decide +kernel
  have hsuccesses : b.successes =
      [(.ofText "d/../a.onnx", entry 7), (.ofText "d/a.onnx", entry 8)] := by
    change sortByPath _ = _
    rw [hresults, sortByPath_of_pairwise (by decide)]
  unfold manifestReport
  rw [hsuccesses]
  exact ⟨by decide, by decide, by decide, by decide⟩

end Batch

end TensorGraph
