import Mathlib.Data.List.Pairwise
import TensorGraph.Batch
import TensorGraph.Proofs.Files.PathOrder

/-!
# What a batch makes of results

A batch holds every result it is given, sorted by path. The order in which the results come leaves
no trace if no two of them are for the same path.
-/

namespace TensorGraph.Batch

variable {α β : Type}

/-- All that a batch holds, successes first. -/
def results (b : Batch α) : List (Path × Except RepairError α) :=
  b.successes.map (fun (p, a) => (p, .ok a)) ++ b.failures.map fun (p, e) => (p, .error e)

/-- Results for paths that are all different. -/
def Distinct (results : List (Path × β)) : Prop :=
  results.Pairwise fun x y => x.1.agrees y.1 = false

lemma Distinct.agrees_eq_false {results : List (Path × β)} (h : Distinct results)
    {x y : Path × β} (hx : x ∈ results) (hy : y ∈ results) (hne : x ≠ y) :
    x.1.agrees y.1 = false := by
  have hsymm : Std.Symm fun x y : Path × β => x.1.agrees y.1 = false :=
    ⟨fun _ _ => (Path.agrees_comm _ _).trans⟩
  exact List.Pairwise.forall h hx hy hne

lemma sortByPath_perm (results : List (Path × β)) : (sortByPath results).Perm results :=
  List.mergeSort_perm _ _

lemma pairwise_sortByPath (results : List (Path × β)) :
    (sortByPath results).Pairwise fun x y => y.1.before x.1 = false := by
  refine (List.pairwise_mergeSort (fun x y z hxy hyz => ?_) (fun x y => ?_) _).imp (by simp)
  · simp only [Bool.not_eq_true', ← Bool.not_eq_true] at *
    exact fun hzx => (Path.before_or_before y.1 hzx).elim hyz hxy
  · cases hyx : y.1.before x.1 with
    | true => simp [Path.before_asymm hyx]
    | false => rfl

lemma sortByPath_of_pairwise {results : List (Path × β)}
    (h : results.Pairwise fun x y => (!y.1.before x.1) = true) : sortByPath results = results :=
  List.mergeSort_of_pairwise h

lemma sortByPath_congr {results results' : List (Path × β)} (h : results.Perm results')
    (hdistinct : Distinct results) : sortByPath results = sortByPath results' := by
  have hperm : (sortByPath results).Perm (sortByPath results') :=
    (sortByPath_perm results).trans (h.trans (sortByPath_perm results').symm)
  refine hperm.eq_of_pairwise (fun x y hx hy hxy hyx => ?_) (pairwise_sortByPath results)
    (pairwise_sortByPath results')
  by_contra hne
  have hx' : x ∈ results := (sortByPath_perm results).mem_iff.mp hx
  have hy' : y ∈ results := h.mem_iff.mpr ((sortByPath_perm results').mem_iff.mp hy)
  have hxy' := hdistinct.agrees_eq_false hx' hy' hne
  simp [Path.agrees_of_not_before hyx hxy] at hxy'

lemma results_ofResults_perm (results : List (Path × Except RepairError α)) :
    (ofResults results).results.Perm results := by
  refine (((sortByPath_perm _).map _).append ((sortByPath_perm _).map _)).trans ?_
  induction results with
  | nil => simp
  | cons x rest ih =>
    obtain ⟨p, e | a⟩ := x
    · simpa [Except.toOption] using List.perm_middle.trans (ih.cons _)
    · simpa [Except.toOption] using ih

lemma Distinct.filterMap {γ : Type} {results : List (Path × β)} (h : Distinct results)
    {f : Path × β → Option (Path × γ)} (hf : ∀ x y, f x = some y → y.1 = x.1) :
    Distinct (results.filterMap f) := by
  refine List.Pairwise.filterMap f (fun x x' hxx' y hy y' hy' => ?_) h
  rw [hf x y hy, hf x' y' hy']
  exact hxx'

lemma ofResults_congr {results results' : List (Path × Except RepairError α)}
    (h : results.Perm results') (hdistinct : Distinct results) :
    ofResults results = ofResults results' := by
  unfold ofResults
  congr 1
  · refine sortByPath_congr (h.filterMap _) (hdistinct.filterMap fun x y hxy => ?_)
    obtain ⟨a, -, rfl⟩ := Option.map_eq_some_iff.mp hxy
    rfl
  · refine sortByPath_congr (h.filterMap _) (hdistinct.filterMap fun x y hxy => ?_)
    split at hxy
    · exact congrArg Prod.fst (Option.some.inj hxy).symm
    · cases hxy

end TensorGraph.Batch
