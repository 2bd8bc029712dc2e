import TensorGraph.Proofs.Propagation.Merging
import TensorGraph.Proofs.RelatedLists

/-!
# Refinement of types

One type refines another if it says all that the other one says and perhaps more: what is unknown
may become anything, a name may become a number, and a number stays. What two descriptions are
merged into refines the first of them.
-/

namespace TensorGraph

/-- What one description says of an extent, the other one says as well; a name may have become a
number. -/
def Dim.RefinedBy : Dim → Dim → Prop
  | known n, e => e = known n
  | param p, e => e = param p ∨ ∃ n, e = known n
  | unknown, _ => True

/-- The ranks are the same, and each extent is refined. -/
def Shape.RefinedBy (s s' : Shape) : Prop := List.Forall₂ Dim.RefinedBy s.dims s'.dims

/-- A known element type stays, and a known shape is refined. -/
structure TensorType.RefinedBy (t t' : TensorType) : Prop where
  elem : ∀ e, t.elem? = some e → t'.elem? = some e
  shape : ∀ s, t.shape? = some s → ∃ s', t'.shape? = some s' ∧ s.RefinedBy s'

namespace Dim

@[simp] lemma refinedBy_unknown (d : Dim) : unknown.RefinedBy d := True.intro

lemma RefinedBy.refl (d : Dim) : d.RefinedBy d := by
  cases d with
  | known n => rfl
  | param p => exact .inl rfl
  | unknown => trivial

lemma RefinedBy.trans {d e f : Dim} (hde : d.RefinedBy e) (hef : e.RefinedBy f) :
    d.RefinedBy f := by
  cases d with
  | known n =>
    obtain rfl : e = known n := hde
    exact hef
  | param p =>
    rcases hde with rfl | ⟨n, rfl⟩
    · exact hef
    · exact .inr ⟨n, hef⟩
  | unknown => trivial

lemma refinedBy_of_merge {a b c : Dim} (h : a.merge b = some c) : a.RefinedBy c := by
  cases a <;> cases b <;> simp only [merge] at h
  case known.known =>
    split_ifs at h
    exact (Option.some.inj h).symm
  case known.param | known.unknown => exact (Option.some.inj h).symm
  case param.known m => exact .inr ⟨m, (Option.some.inj h).symm⟩
  case param.param | param.unknown => exact .inl (Option.some.inj h).symm
  all_goals trivial

end Dim

namespace Shape

lemma RefinedBy.refl (s : Shape) : s.RefinedBy s :=
  List.forall₂_same.mpr fun d _ => Dim.RefinedBy.refl d

lemma RefinedBy.trans {s t u : Shape} (hst : s.RefinedBy t) (htu : t.RefinedBy u) :
    s.RefinedBy u :=
  forall₂_trans (fun _ _ _ hde hef => hde.trans hef) hst htu

lemma refinedBy_ofRank (s : Shape) : (ofRank s.rank).RefinedBy s :=
  forall₂_replicate_left Dim.refinedBy_unknown s.dims

lemma forall₂_refinedBy_of_merge {as bs cs : List Dim} (hlength : as.length = bs.length)
    (h : List.Forall₂ (fun xy z => Dim.merge xy.1 xy.2 = some z) (List.zip as bs) cs) :
    List.Forall₂ Dim.RefinedBy as cs := by
  induction as generalizing bs cs with
  | nil =>
    obtain rfl := List.forall₂_nil_left_iff.mp h
    exact .nil
  | cons a as ih =>
    cases bs with
    | nil => simp at hlength
    | cons b bs =>
      obtain ⟨c, cs', hc, hcs, rfl⟩ := List.forall₂_cons_left_iff.mp h
      exact .cons (Dim.refinedBy_of_merge hc) (ih (Nat.succ.inj hlength) hcs)

lemma refinedBy_of_merge {a b c : Shape} (h : a.merge b = .ok c) : a.RefinedBy c := by
  obtain ⟨hrank, hdims⟩ := merge_eq_ok_iff.mp h
  exact forall₂_refinedBy_of_merge hrank hdims

end Shape

namespace TensorType

lemma RefinedBy.refl (t : TensorType) : t.RefinedBy t :=
  ⟨fun _ h => h, fun s h => ⟨s, h, .refl s⟩⟩

lemma RefinedBy.trans {t u v : TensorType} (htu : t.RefinedBy u) (huv : u.RefinedBy v) :
    t.RefinedBy v := by
  refine ⟨fun e he => huv.elem e (htu.elem e he), fun s hs => ?_⟩
  obtain ⟨s', hs', hrefined⟩ := htu.shape s hs
  obtain ⟨s'', hs'', hrefined'⟩ := huv.shape s' hs'
  exact ⟨s'', hs'', hrefined.trans hrefined'⟩

lemma refinedBy_of_isUnknown {t : TensorType} (h : t.isUnknown = true) (t' : TensorType) :
    t.RefinedBy t' := by
  obtain ⟨elem?, shape?⟩ := t
  have hnone : elem? = none ∧ shape? = none := by simpa [isUnknown] using h
  obtain ⟨rfl, rfl⟩ := hnone
  exact ⟨nofun, nofun⟩

lemma refinedBy_some {elem? : Option ElemType} {s s' : Shape} (h : s.RefinedBy s') :
    (⟨elem?, some s⟩ : TensorType).RefinedBy ⟨elem?, some s'⟩ :=
  ⟨fun _ he => he, fun _ hs => ⟨s', rfl, Option.some.inj hs ▸ h⟩⟩

/-- Merging keeps what the first type says. -/
lemma refinedBy_of_merge {a b c : TensorType} (h : a.merge b = .ok c) : a.RefinedBy c := by
  obtain ⟨helem, hshape⟩ := merge_eq_ok_iff.mp h
  obtain ⟨aelem, ashape⟩ := a
  obtain ⟨belem, bshape⟩ := b
  refine ⟨fun e he => ?_, fun s hs => ?_⟩
  · obtain rfl : aelem = some e := he
    cases belem with
    | none => exact (Except.ok.inj helem).symm
    | some e' =>
      simp only [mergeElem] at helem
      split_ifs at helem
      exact (Except.ok.inj helem).symm
  · obtain rfl : ashape = some s := hs
    cases bshape with
    | none => exact ⟨s, (Except.ok.inj hshape).symm, .refl s⟩
    | some s' =>
      obtain ⟨merged, hmerged, heq⟩ := map_eq_ok_iff.mp (mapError_eq_ok_iff.mp hshape)
      exact ⟨merged, heq.symm, Shape.refinedBy_of_merge hmerged⟩

end TensorType

end TensorGraph
