import Mathlib.Tactic.Lemma
import Mathlib.Tactic.SplitIfs
import TensorGraph.Proofs.Propagation.Merging
import TensorGraph.Rule.Basic

/-!
# Names in types

Which names stand for extents of a type, and that merging and broadcasting bring in no others.
-/

namespace TensorGraph

variable {α β ε : Type} {P : String → Prop}

/-- Whatever a computation comes to has a property. -/
def Ensures (Q : α → Prop) (x : Except ε α) : Prop := ∀ a, x = .ok a → Q a

namespace Ensures

variable {Q : α → Prop} {R : β → Prop}

@[simp] lemma ok_iff {a : α} : Ensures Q (.ok a : Except ε α) ↔ Q a :=
  ⟨fun h => h a rfl, fun h _ heq => Except.ok.inj heq ▸ h⟩

@[simp] lemma error (e : ε) : Ensures Q (.error e) := nofun

lemma trivial (x : Except ε α) : Ensures (fun _ => True) x := fun _ _ => True.intro

lemma bind {x : Except ε α} {f : α → Except ε β} (hx : Ensures Q x)
    (hf : ∀ a, Q a → Ensures R (f a)) : Ensures R (x >>= f) := by
  intro b hb
  obtain ⟨a, ha, hb⟩ := bind_eq_ok_iff.mp hb
  exact hf a (hx a ha) b hb

lemma after {x : Except ε α} {f : α → Except ε β} (hf : ∀ a, Ensures R (f a)) :
    Ensures R (x >>= f) :=
  (trivial x).bind fun a _ => hf a

lemma map {x : Except ε α} {f : α → β} (hx : Ensures Q x) (hf : ∀ a, Q a → R (f a)) :
    Ensures R (x.map f) := by
  intro b hb
  obtain ⟨a, ha, rfl⟩ := map_eq_ok_iff.mp hb
  exact hf a (hx a ha)

lemma mapError {ε' : Type} {x : Except ε α} {f : ε → ε'} (hx : Ensures Q x) :
    Ensures Q (x.mapError f) :=
  fun a ha => hx a (mapError_eq_ok_iff.mp ha)

lemma mapM {f : α → Except ε β} {as : List α} (hf : ∀ a ∈ as, Ensures R (f a)) :
    Ensures (fun bs => ∀ b ∈ bs, R b) (as.mapM f) :=
  fun _ hbs => forall_mem_of_mapM_eq_ok hbs hf

lemma foldlM {f : β → α → Except ε β} {as : List α}
    (hf : ∀ b, R b → ∀ a ∈ as, Ensures R (f b a)) {b : β} (hb : R b) :
    Ensures R (as.foldlM f b) := by
  induction as generalizing b with
  | nil => exact ok_iff.mpr hb
  | cons a as ih =>
    rw [List.foldlM_cons]
    refine (hf b hb a List.mem_cons_self).bind fun b' hb' => ?_
    exact ih (fun b hb a' ha' => hf b hb a' (List.mem_cons_of_mem a ha')) hb'

end Ensures

/-! ### Names in types -/

/-- An extent with no name but one that has the property. -/
def Dim.NamedBy (P : String → Prop) : Dim → Prop
  | param p => P p
  | _ => True

@[simp] lemma Dim.namedBy_known (n : Nat) : (Dim.known n).NamedBy P := True.intro

@[simp] lemma Dim.namedBy_unknown : Dim.unknown.NamedBy P := True.intro

/-- Extents with no names but some that have the property. -/
def DimsNamedBy (P : String → Prop) (dims : List Dim) : Prop := ∀ d ∈ dims, d.NamedBy P

def Shape.NamedBy (P : String → Prop) (s : Shape) : Prop := DimsNamedBy P s.dims

def TensorType.NamedBy (P : String → Prop) (t : TensorType) : Prop :=
  ∀ s, t.shape? = some s → s.NamedBy P

lemma Dim.namedBy_merge {a b c : Dim} (ha : a.NamedBy P) (hb : b.NamedBy P)
    (h : a.merge b = some c) : c.NamedBy P := by
  cases a <;> cases b <;> simp only [Dim.merge] at h
  case known.known =>
    split_ifs at h
    exact Option.some.inj h ▸ ha
  case param.param | param.unknown => exact Option.some.inj h ▸ ha
  case unknown.param => exact Option.some.inj h ▸ hb
  all_goals exact Option.some.inj h ▸ True.intro

lemma Dim.namedBy_broadcast {a b c : Dim} (ha : a.NamedBy P) (hb : b.NamedBy P)
    (h : a.broadcast b = some c) : c.NamedBy P := by
  cases a <;> cases b <;> simp only [Dim.broadcast] at h <;> (try split_ifs at h) <;>
    obtain rfl := Option.some.inj h <;> first | exact ha | exact hb | exact True.intro

lemma Dim.namedBy_wordDim (n : Nat) : (wordDim n).NamedBy P := by
  unfold wordDim
  split_ifs <;> simp

lemma Dim.namedBy_productDim (dims : List Dim) : (productDim dims).NamedBy P := by
  unfold productDim
  cases (dims.mapM Dim.extent?).bind checkedProduct <;> simp

namespace DimsNamedBy

variable {dims dims' : List Dim}

lemma append (h : DimsNamedBy P dims) (h' : DimsNamedBy P dims') :
    DimsNamedBy P (dims ++ dims') :=
  List.forall_mem_append.mpr ⟨h, h'⟩

lemma cons {d : Dim} (hd : d.NamedBy P) (h : DimsNamedBy P dims) : DimsNamedBy P (d :: dims) :=
  List.forall_mem_cons.mpr ⟨hd, h⟩

lemma of_subset (h : DimsNamedBy P dims) (hsub : dims' ⊆ dims) : DimsNamedBy P dims' :=
  fun d hd => h d (hsub hd)

lemma take (h : DimsNamedBy P dims) (n : Nat) : DimsNamedBy P (dims.take n) :=
  h.of_subset (List.take_subset n dims)

lemma drop (h : DimsNamedBy P dims) (n : Nat) : DimsNamedBy P (dims.drop n) :=
  h.of_subset (List.drop_subset n dims)

lemma set {d : Dim} (h : DimsNamedBy P dims) (hd : d.NamedBy P) (i : Nat) :
    DimsNamedBy P (dims.set i d) := by
  intro d' hd'
  rcases List.mem_or_eq_of_mem_set hd' with hmem | rfl
  · exact h d' hmem
  · exact hd

lemma getElem? (h : DimsNamedBy P dims) {i : Nat} {d : Dim} (hd : dims[i]? = some d) :
    d.NamedBy P :=
  h d (List.mem_of_getElem? hd)

lemma replicate {d : Dim} (hd : d.NamedBy P) (n : Nat) : DimsNamedBy P (List.replicate n d) :=
  fun _ h => List.eq_of_mem_replicate h ▸ hd

lemma map_known (extents : List Nat) : DimsNamedBy P (extents.map Dim.known) :=
  List.forall_mem_map.mpr fun _ _ => True.intro

lemma mapM_zip {f : Dim × Dim → Option Dim} {cs : List Dim} (h : DimsNamedBy P dims)
    (h' : DimsNamedBy P dims')
    (hf : ∀ a b c, a.NamedBy P → b.NamedBy P → f (a, b) = some c → c.NamedBy P)
    (hcs : (List.zip dims dims').mapM f = some cs) : DimsNamedBy P cs := by
  refine forall_mem_of_mapM_eq_some hcs fun ab hab c hc => ?_
  obtain ⟨ha, hb⟩ := List.of_mem_zip (a := ab.1) (b := ab.2) hab
  exact hf ab.1 ab.2 c (h _ ha) (h' _ hb) hc

end DimsNamedBy

namespace Shape

lemma namedBy_ofRank (rank : Nat) : (ofRank rank).NamedBy P :=
  DimsNamedBy.replicate Dim.namedBy_unknown rank

lemma namedBy_ofExtents (extents : List Nat) : (ofExtents extents).NamedBy P :=
  DimsNamedBy.map_known extents

lemma namedBy_merge {a b c : Shape} (ha : a.NamedBy P) (hb : b.NamedBy P)
    (h : a.merge b = .ok c) : c.NamedBy P := by
  obtain ⟨_, hdims⟩ := merge_eq_ok_iff.mp h
  exact DimsNamedBy.mapM_zip ha hb (fun _ _ _ => Dim.namedBy_merge) (mapM_eq_some_iff.mpr hdims)

lemma namedBy_padded {s : Shape} (hs : s.NamedBy P) (rank : Nat) :
    DimsNamedBy P (s.padded rank) :=
  (DimsNamedBy.replicate (Dim.namedBy_known 1) _).append hs

lemma ensures_broadcast {a b : Shape} (ha : a.NamedBy P) (hb : b.NamedBy P) :
    Ensures (NamedBy P) (a.broadcast b) := by
  unfold broadcast
  dsimp only
  split
  · rename_i dims hdims
    exact Ensures.ok_iff.mpr (DimsNamedBy.mapM_zip (namedBy_padded ha _) (namedBy_padded hb _)
      (fun _ _ _ => Dim.namedBy_broadcast) hdims)
  · exact .error _

lemma ensures_broadcastAll {shapes : List Shape} (h : ∀ s ∈ shapes, s.NamedBy P) :
    Ensures (NamedBy P) (broadcastAll shapes) :=
  Ensures.foldlM (fun _ ha b hb => ensures_broadcast ha (h b hb)) (namedBy_ofExtents [])

end Shape

namespace TensorType

lemma namedBy_unknown : unknown.NamedBy P := nofun

lemma namedBy_some {elem? : Option ElemType} {s : Shape} (hs : s.NamedBy P) :
    (⟨elem?, some s⟩ : TensorType).NamedBy P :=
  fun _ h => Option.some.inj h ▸ hs

lemma namedBy_merge {a b c : TensorType} (ha : a.NamedBy P) (hb : b.NamedBy P)
    (h : a.merge b = .ok c) : c.NamedBy P := by
  obtain ⟨_, hshape⟩ := merge_eq_ok_iff.mp h
  intro s hs
  rw [hs] at hshape
  obtain ⟨aelem, ashape⟩ := a
  obtain ⟨belem, bshape⟩ := b
  cases ashape with
  | none => exact hb s (Except.ok.inj hshape)
  | some sa =>
    cases bshape with
    | none => exact ha s (Except.ok.inj hshape)
    | some sb =>
      obtain ⟨sc, hmerge, heq⟩ := map_eq_ok_iff.mp (mapError_eq_ok_iff.mp hshape)
      exact Option.some.inj heq ▸ Shape.namedBy_merge (ha sa rfl) (hb sb rfl) hmerge

end TensorType

end TensorGraph
