import Mathlib.Tactic.SplitIfs
import TensorGraph.Proofs.RelatedLists
import TensorGraph.Proofs.Results
import TensorGraph.Proofs.Symbolic.Agreement

/-!
# Instances of symbolic types

An extent that is a name or unknown stands for numbers. A valuation says which number each name
stands for. An instance of a type has numbers in place of all names and unknown extents; a type
describes another one if that is what an instance may turn out to be.
-/

namespace TensorGraph

/-- One extent for each name. -/
structure Valuation where
  extent : String → Nat
  extent_lt : ∀ name, extent name < wordLimit

namespace Dim

/-- The second extent is as the first one says, if that says anything. -/
def Describes (σ : Valuation) : Dim → Dim → Prop
  | known n, d => d = known n
  | param name, d => d = known (σ.extent name)
  | unknown, _ => True

/-- The second extent is a number: the first one, the one of the name, or any for an unknown
extent. -/
def Instantiates (σ : Valuation) (d d' : Dim) : Prop := ∃ n, d' = known n ∧ d.Describes σ d'

variable {σ : Valuation} {d d' e e' : Dim}

@[simp] lemma describes_known {n : Nat} : (known n).Describes σ d ↔ d = known n := Iff.rfl

@[simp] lemma describes_param {name : String} :
    (param name).Describes σ d ↔ d = known (σ.extent name) := Iff.rfl

@[simp] lemma describes_unknown : unknown.Describes σ d := trivial

@[simp] lemma instantiates_known {n : Nat} : (known n).Instantiates σ d ↔ d = known n :=
  ⟨fun ⟨_, _, h⟩ => h, fun h => ⟨n, h, h⟩⟩

lemma Instantiates.describes (h : d.Instantiates σ d') : d.Describes σ d' := by
  obtain ⟨_, _, h⟩ := h
  exact h

lemma Describes.extent?_eq {n : Nat} (h : d.Describes σ d') (hn : d.extent? = some n) :
    d'.extent? = some n := by
  cases d with
  | known m => rw [describes_known.mp h]; exact hn
  | param name => simp [Dim.extent?] at hn
  | unknown => simp [Dim.extent?] at hn

lemma unknown_agrees (x : Except RuleError Dim) : RunsAgree (Describes σ) (.ok unknown) x := by
  cases x with
  | error e => trivial
  | ok d => trivial

/-- What is known of two extents is known of the extent that they are broadcast to. -/
lemma Instantiates.broadcast (hd : d.Instantiates σ d') (he : e.Instantiates σ e') :
    OptionsAgree (Instantiates σ) (d.broadcast e) (d'.broadcast e') := by
  obtain ⟨m, rfl, hd⟩ := hd
  obtain ⟨n, rfl, he⟩ := he
  cases d <;> cases e <;> grind [Dim.broadcast, OptionsAgree, Instantiates, Describes]

lemma Describes.merge (hd : d.Describes σ d') (he : e.Instantiates σ e') :
    OptionsAgree (Describes σ) (d.merge e) (d'.merge e') := by
  obtain ⟨n, rfl, he⟩ := he
  cases d <;> cases e <;> cases d' <;> grind [Dim.merge, OptionsAgree, Describes]

end Dim

variable {σ : Valuation}

lemma getD_describes {d? d?' : Option Dim} (h : Option.Rel (Dim.Describes σ) d? d?') :
    (d?.getD .unknown).Describes σ (d?'.getD .unknown) := by
  cases h with
  | some hd => exact hd
  | none => exact Dim.describes_unknown

lemma mapM_extent?_of_describes {dims dims' : List Dim} {extents : List Nat}
    (h : List.Forall₂ (Dim.Describes σ) dims dims') (he : dims.mapM Dim.extent? = some extents) :
    dims'.mapM Dim.extent? = some extents := by
  rw [mapM_eq_some_iff] at he ⊢
  induction h generalizing extents with
  | nil => exact he
  | cons hd _ ih =>
    obtain ⟨n, ns, hn, hns, rfl⟩ := List.forall₂_cons_left_iff.mp he
    exact .cons (hd.extent?_eq hn) (ih hns)

@[simp] lemma wordDim_describes (n : Nat) : (wordDim n).Describes σ (wordDim n) := by
  unfold wordDim
  split_ifs <;> simp

lemma productDim_of_describes {dims dims' : List Dim}
    (h : List.Forall₂ (Dim.Describes σ) dims dims') :
    (productDim dims).Describes σ (productDim dims') := by
  unfold productDim
  cases he : dims.mapM Dim.extent? with
  | none => exact Dim.describes_unknown
  | some extents =>
    rw [mapM_extent?_of_describes h he]
    cases hp : checkedProduct extents <;> simp [hp]

namespace Shape

variable {s s' t t' : Shape}

/-- The second shape has the rank of the first one and extents that the first one describes. -/
def Describes (σ : Valuation) (s s' : Shape) : Prop :=
  List.Forall₂ (Dim.Describes σ) s.dims s'.dims

/-- The second shape has an instance of each extent of the first one. -/
def Instantiates (σ : Valuation) (s s' : Shape) : Prop :=
  List.Forall₂ (Dim.Instantiates σ) s.dims s'.dims

lemma Instantiates.describes (h : s.Instantiates σ s') : s.Describes σ s' :=
  List.Forall₂.imp (fun _ _ => Dim.Instantiates.describes) h

lemma Instantiates.rank_eq (h : s.Instantiates σ s') : s'.rank = s.rank := h.length_eq.symm

/-- A shape of numbers is its only instance. -/
lemma Instantiates.eq_of_isFullyKnown (h : s.Instantiates σ s') (hs : s.isFullyKnown = true) :
    s' = s := by
  obtain ⟨dims⟩ := s
  obtain ⟨dims'⟩ := s'
  unfold Shape.isFullyKnown at hs
  suffices dims' = dims by rw [this]
  unfold Shape.Instantiates at h
  dsimp only at h hs
  induction h with
  | nil => rfl
  | @cons d d' dims dims' hd _ ih =>
    rw [List.all_cons, Bool.and_eq_true] at hs
    cases d with
    | known n => rw [Dim.instantiates_known.mp hd, ih hs.2]
    | param name => simp [Dim.isKnown, Dim.extent?] at hs
    | unknown => simp [Dim.isKnown, Dim.extent?] at hs

lemma Instantiates.numElements?_eq {n : Nat} (h : s.Instantiates σ s')
    (hn : s.numElements? = some n) : s'.numElements? = some n := by
  obtain ⟨extents, he, hp⟩ := Option.bind_eq_some_iff.mp hn
  exact Option.bind_eq_some_iff.mpr ⟨extents, mapM_extent?_of_describes h.describes he, hp⟩

lemma describes_ofRank (rank : Nat) : (ofRank rank).Describes σ (ofRank rank) :=
  forall₂_replicate Dim.describes_unknown rank

lemma describes_ofExtents (extents : List Nat) :
    (ofExtents extents).Describes σ (ofExtents extents) := by
  refine List.forall₂_same.mpr fun d hd => ?_
  obtain ⟨n, _, rfl⟩ := List.mem_map.mp hd
  exact Dim.describes_known.mpr rfl

lemma Instantiates.padded (h : s.Instantiates σ s') (rank : Nat) :
    List.Forall₂ (Dim.Instantiates σ) (s.padded rank) (s'.padded rank) := by
  unfold Shape.padded
  rw [h.rank_eq]
  exact List.rel_append (forall₂_replicate (Dim.instantiates_known.mpr rfl) _) h

lemma Instantiates.broadcast (hs : s.Instantiates σ s') (ht : t.Instantiates σ t') :
    ShapesAgree (Instantiates σ) (s.broadcast t) (s'.broadcast t') := by
  unfold Shape.broadcast
  rw [hs.rank_eq, ht.rank_eq]
  have hzip := forall₂_zip_zip (hs.padded (max s.rank t.rank)) (ht.padded (max s.rank t.rank))
  have hmapM := OptionsAgree.mapM hzip fun _ _ hp => hp.1.broadcast hp.2
  obtain hnone | ⟨dims, dims', hdims, hdims', hrel⟩ := hmapM.none_or_some
  · simp [hnone]
  · simp only [hdims, hdims']
    exact hrel

lemma broadcastAll_agrees {shapes shapes' : List Shape}
    (h : List.Forall₂ (Instantiates σ) shapes shapes') :
    ShapesAgree (Instantiates σ) (broadcastAll shapes) (broadcastAll shapes') :=
  Agrees.foldlM h (fun _ _ _ _ hs ht => hs.broadcast ht) .nil

end Shape

end TensorGraph
