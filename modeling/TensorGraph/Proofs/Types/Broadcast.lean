import Mathlib.Data.List.Induction
import Mathlib.Data.List.Perm.Basic
import TensorGraph.Proofs.RelatedLists
import TensorGraph.Proofs.Results
import TensorGraph.Shape

/-!
# Broadcasting many shapes

An extent stretches to another one if broadcasting the two gives the latter: one stretches to
everything, a name to itself, and whatever is no number to unknown extents and to numbers other than
one. Extents are broadcast to the least one to which all of them stretch. So neither the order nor
the grouping of the operands matters, and the result can be read off all of them at once.
-/

namespace TensorGraph

namespace Dim

variable {a b c d : Dim} {ds es : List Dim}

def StretchesTo (d e : Dim) : Prop := d.broadcast e = some e

attribute [local grind =] StretchesTo broadcast

lemma stretchesTo_one_iff : d.StretchesTo (known 1) ↔ d = known 1 := by
  cases d <;> simp [StretchesTo, broadcast]

lemma stretchesTo_known_iff {n : Nat} (hn : n ≠ 1) :
    d.StretchesTo (known n) ↔ ∀ m, d = known m → m = 1 ∨ m = n := by
  cases d with
  | known m => by_cases hm : m = 1 <;> by_cases hmn : m = n <;> simp_all [StretchesTo, broadcast]
  | param q => simp [StretchesTo, broadcast, hn]
  | unknown => simp [StretchesTo, broadcast, hn]

lemma stretchesTo_param_iff {p : String} :
    d.StretchesTo (param p) ↔ d = known 1 ∨ d = param p := by
  cases d <;> grind

lemma stretchesTo_unknown_iff : d.StretchesTo unknown ↔ ∀ m, d = known m → m = 1 := by
  cases d <;> simp [StretchesTo, broadcast]

lemma eq_of_stretchesTo {n : Nat} (hn : n ≠ 1) (h : (known n).StretchesTo d) : d = known n := by
  cases d <;> grind

lemma StretchesTo.refl (d : Dim) : d.StretchesTo d := by
  cases d <;> simp [StretchesTo, broadcast]

lemma broadcast_comm (a b : Dim) : a.broadcast b = b.broadcast a := by
  cases a <;> cases b <;> grind

lemma StretchesTo.antisymm (h : a.StretchesTo b) (h' : b.StretchesTo a) : a = b := by
  unfold StretchesTo at h h'
  rw [broadcast_comm] at h'
  exact Option.some.inj (h'.symm.trans h)

lemma stretchesTo_iff_of_broadcast (h : a.broadcast b = some c) (d : Dim) :
    c.StretchesTo d ↔ a.StretchesTo d ∧ b.StretchesTo d := by
  cases a <;> cases b <;> cases d <;> grind

lemma not_stretchesTo_of_broadcast (h : a.broadcast b = none) (d : Dim) :
    ¬(a.StretchesTo d ∧ b.StretchesTo d) := by
  cases a <;> cases b <;> cases d <;> grind

/-! ### Many extents -/

/-- It stretches to exactly those extents to which all the others stretch. -/
def IsLeast (ds : List Dim) (c : Dim) : Prop :=
  ∀ d, c.StretchesTo d ↔ ∀ e ∈ ds, e.StretchesTo d

/-- There are two different numbers other than one. -/
def Conflicting (ds : List Dim) : Prop :=
  ∃ m n, known m ∈ ds ∧ known n ∈ ds ∧ m ≠ 1 ∧ n ≠ 1 ∧ m ≠ n

/-- What extents have in common if they are no two different numbers other than one. -/
inductive Joint (ds : List Dim) : Dim → Prop
  /-- A number other than one counts before all else. -/
  | number {n : Nat} (hn : n ≠ 1) (hmem : known n ∈ ds) : Joint ds (known n)
  | one (h : ∀ d ∈ ds, d = known 1) : Joint ds (known 1)
  | name {p : String} (hmem : param p ∈ ds) (h : ∀ d ∈ ds, d = known 1 ∨ d = param p) :
    Joint ds (param p)
  | nothing (hone : ∀ n, known n ∈ ds → n = 1)
    (hname : ∀ p, ¬∀ d ∈ ds, d = known 1 ∨ d = param p) : Joint ds unknown

lemma isLeast_nil : IsLeast [] (known 1) := by
  intro d
  cases d <;> grind

lemma isLeast_singleton (d : Dim) : IsLeast [d] d := fun e => by simp

lemma IsLeast.stretchesTo (h : IsLeast ds c) : ∀ d ∈ ds, d.StretchesTo c := (h c).mp (.refl c)

lemma IsLeast.unique (h : IsLeast ds c) (h' : IsLeast ds d) : c = d :=
  StretchesTo.antisymm ((h d).mpr h'.stretchesTo) ((h' c).mpr h.stretchesTo)

lemma IsLeast.append (ha : IsLeast ds a) (hb : IsLeast es b) (h : a.broadcast b = some c) :
    IsLeast (ds ++ es) c := by
  intro d
  rw [stretchesTo_iff_of_broadcast h, ha d, hb d, List.forall_mem_append]

lemma IsLeast.perm (h : IsLeast ds c) (hperm : ds.Perm es) : IsLeast es c := by
  intro d
  rw [h d]
  exact forall_congr' fun e => imp_congr_left hperm.mem_iff

lemma Conflicting.mono (h : Conflicting ds) (hsubset : ds ⊆ es) : Conflicting es := by
  obtain ⟨m, n, hm, hn, hne⟩ := h
  exact ⟨m, n, hsubset hm, hsubset hn, hne⟩

/-- Extents conflict exactly if there is none to which all of them stretch. -/
lemma conflicting_iff : Conflicting ds ↔ ∀ c, ¬∀ d ∈ ds, d.StretchesTo c := by
  constructor
  · rintro ⟨m, n, hm, hn, hm1, hn1, hne⟩ c hc
    obtain rfl := eq_of_stretchesTo hm1 (hc _ hm)
    exact hne (Dim.known.inj (eq_of_stretchesTo hn1 (hc _ hn)))
  · intro h
    by_contra hnot
    by_cases hnumber : ∃ n, n ≠ 1 ∧ known n ∈ ds
    · obtain ⟨n, hn, hmem⟩ := hnumber
      refine h (known n) fun d hd => (stretchesTo_known_iff hn).mpr ?_
      rintro m rfl
      by_contra hm
      rw [not_or] at hm
      exact hnot ⟨m, n, hd, hmem, hm.1, hn, hm.2⟩
    · refine h unknown fun d hd => stretchesTo_unknown_iff.mpr ?_
      rintro m rfl
      by_contra hm
      exact hnumber ⟨m, hm, hd⟩

lemma conflicting_append (ha : IsLeast ds a) (hb : IsLeast es b) (h : a.broadcast b = none) :
    Conflicting (ds ++ es) := by
  refine conflicting_iff.mpr fun c hc => not_stretchesTo_of_broadcast h c ?_
  obtain ⟨hds, hes⟩ := List.forall_mem_append.mp hc
  exact ⟨(ha c).mpr hds, (hb c).mpr hes⟩

/-- Each case of the description of the least extent comes from asking whether it stretches to an
extent of the case before. -/
lemma IsLeast.joint (h : IsLeast ds c) : Joint ds c := by
  cases c with
  | known n =>
    by_cases hn : n = 1
    · subst hn
      exact .one fun d hd => stretchesTo_one_iff.mp (h.stretchesTo d hd)
    · refine .number hn (by_contra fun hmem => ?_)
      have hunknown : (known n).StretchesTo unknown := (h unknown).mpr fun d hd => by
        refine stretchesTo_unknown_iff.mpr ?_
        rintro m rfl
        rcases (stretchesTo_known_iff hn).mp (h.stretchesTo _ hd) m rfl with hm | rfl
        · exact hm
        · exact absurd hd hmem
      exact hn (stretchesTo_unknown_iff.mp hunknown n rfl)
  | param p =>
    have hall : ∀ d ∈ ds, d = known 1 ∨ d = param p := fun d hd =>
      stretchesTo_param_iff.mp (h.stretchesTo d hd)
    refine .name (by_contra fun hmem => ?_) hall
    have hone : (param p).StretchesTo (known 1) := (h (known 1)).mpr fun d hd => by
      rcases hall d hd with rfl | rfl
      · exact .refl _
      · exact absurd hd hmem
    cases stretchesTo_one_iff.mp hone
  | unknown =>
    refine .nothing (fun n hn => stretchesTo_unknown_iff.mp (h.stretchesTo _ hn) n rfl) ?_
    intro p hall
    have hparam : unknown.StretchesTo (param p) := (h (param p)).mpr fun d hd =>
      stretchesTo_param_iff.mpr (hall d hd)
    simpa using stretchesTo_param_iff.mp hparam

end Dim

namespace Shape

variable {s t u : Shape} {shapes shapes' : List Shape}

/-- The extent at a position that is counted from the right end; ones stand before the shape. -/
def fromEnd (s : Shape) (i : Nat) : Dim := s.dims.reverse[i]?.getD (.known 1)

/-- The extents of some shapes at a position that is counted from the right end. -/
def column (shapes : List Shape) (i : Nat) : List Dim := shapes.map fun s => s.fromEnd i

def greatestRank (shapes : List Shape) : Nat := (shapes.map rank).foldr max 0

lemma fromEnd_of_le {i : Nat} (h : s.dims.length ≤ i) : s.fromEnd i = .known 1 := by
  rw [fromEnd, List.getElem?_eq_none (by simpa using h)]
  rfl

lemma length_padded {rank : Nat} (h : s.rank ≤ rank) : (s.padded rank).length = rank := by
  simp only [padded, List.length_append, List.length_replicate]
  exact Nat.sub_add_cancel h

lemma reverse_padded {rank : Nat} (h : s.rank ≤ rank) :
    (s.padded rank).reverse = (List.range rank).map s.fromEnd := by
  refine List.ext_getElem (by simp [length_padded h]) fun i hi hi' => ?_
  have hrank : i < rank := by simpa using hi'
  simp only [padded, List.reverse_append, List.reverse_replicate, List.getElem_map,
    List.getElem_range]
  by_cases hdims : i < s.dims.length
  · rw [List.getElem_append_left (by simpa using hdims), fromEnd,
      List.getElem?_eq_getElem (by simpa using hdims)]
    rfl
  · rw [List.getElem_append_right (by simpa using hdims), List.getElem_replicate,
      fromEnd_of_le (Nat.le_of_not_lt hdims)]

lemma reverse_dims (s : Shape) : s.dims.reverse = (List.range s.rank).map s.fromEnd := by
  rw [← reverse_padded (Nat.le_refl s.rank)]
  simp [padded]

lemma zip_padded (s t : Shape) :
    List.zip (s.padded (max s.rank t.rank)) (t.padded (max s.rank t.rank)) =
      ((List.range (max s.rank t.rank)).map fun i => (s.fromEnd i, t.fromEnd i)).reverse := by
  have hs : s.rank ≤ max s.rank t.rank := Nat.le_max_left _ _
  have ht : t.rank ≤ max s.rank t.rank := Nat.le_max_right _ _
  rw [← List.zip_map', ← reverse_padded hs, ← reverse_padded ht, List.zip_eq_zipWith,
    List.zip_eq_zipWith, ← List.reverse_zipWith (by rw [length_padded hs, length_padded ht]),
    List.reverse_reverse]

lemma broadcast_eq_elim (s t : Shape) : s.broadcast t =
    ((List.zip (s.padded (max s.rank t.rank)) (t.padded (max s.rank t.rank))).mapM
      fun p : Dim × Dim => p.1.broadcast p.2).elim (.error (.incompatible "broadcast" s t))
        fun dims => .ok ⟨dims⟩ := by
  unfold broadcast
  dsimp only
  split
  · next hdims => exact hdims ▸ rfl
  · next hdims => exact hdims ▸ rfl

lemma broadcast_eq_ok_iff_forall₂ :
    s.broadcast t = .ok u ↔
      List.Forall₂ (fun i d => (s.fromEnd i).broadcast (t.fromEnd i) = some d)
        (List.range (max s.rank t.rank)) u.dims.reverse := by
  rw [broadcast_eq_elim, zip_padded]
  set pairs := (List.range (max s.rank t.rank)).map fun i => (s.fromEnd i, t.fromEnd i) with hpairs
  have hdims (dims : List Dim) : pairs.reverse.mapM (fun p => p.1.broadcast p.2) = some dims ↔
      List.Forall₂ (fun i d => (s.fromEnd i).broadcast (t.fromEnd i) = some d)
        (List.range (max s.rank t.rank)) dims.reverse := by
    rw [mapM_eq_some_iff, ← List.forall₂_reverse_iff, List.reverse_reverse, hpairs,
      List.forall₂_map_left_iff]
  rw [← hdims]
  cases pairs.reverse.mapM fun p => p.1.broadcast p.2 with
  | none => simp
  | some dims =>
    obtain ⟨dims'⟩ := u
    simp

/-- Shapes are broadcast position by position, from the right end on. -/
lemma broadcast_eq_ok_iff :
    s.broadcast t = .ok u ↔ u.rank = max s.rank t.rank ∧
      ∀ i, (s.fromEnd i).broadcast (t.fromEnd i) = some (u.fromEnd i) := by
  rw [broadcast_eq_ok_iff_forall₂]
  constructor
  · intro h
    have hrank : u.rank = max s.rank t.rank := by simpa [rank] using h.length_eq.symm
    refine ⟨hrank, fun i => ?_⟩
    rw [reverse_dims, hrank, List.forall₂_map_right_iff, List.forall₂_same] at h
    by_cases hi : i < max s.rank t.rank
    · exact h i (List.mem_range.mpr hi)
    · have hs : s.rank ≤ i := Nat.le_trans (Nat.le_max_left _ _) (Nat.le_of_not_lt hi)
      have ht : t.rank ≤ i := Nat.le_trans (Nat.le_max_right _ _) (Nat.le_of_not_lt hi)
      have hu : u.rank ≤ i := hrank ▸ Nat.le_of_not_lt hi
      rw [fromEnd_of_le hs, fromEnd_of_le ht, fromEnd_of_le hu]
      rfl
  · rintro ⟨hrank, h⟩
    rw [reverse_dims, hrank, List.forall₂_map_right_iff, List.forall₂_same]
    exact fun i _ => h i

lemma exists_of_broadcast_eq_error {e : ShapeError} (h : s.broadcast t = .error e) :
    ∃ i, (s.fromEnd i).broadcast (t.fromEnd i) = none := by
  by_contra hnot
  have hall (i : Nat) : ∃ d, (s.fromEnd i).broadcast (t.fromEnd i) = some d :=
    Option.ne_none_iff_exists'.mp fun hi => hnot ⟨i, hi⟩
  obtain ⟨dims, hdims⟩ := exists_forall₂_iff.mpr fun i (_ : i ∈ List.range (max s.rank t.rank)) =>
    hall i
  have hok : s.broadcast t = .ok ⟨dims.reverse⟩ := by
    rw [broadcast_eq_ok_iff_forall₂, List.reverse_reverse]
    exact hdims
  rw [h] at hok
  cases hok

/-! ### Many shapes -/

lemma greatestRank_append (shapes shapes' : List Shape) :
    greatestRank (shapes ++ shapes') = max (greatestRank shapes) (greatestRank shapes') := by
  induction shapes with
  | nil => simp [greatestRank]
  | cons s shapes ih =>
    unfold greatestRank at ih ⊢
    rw [List.cons_append, List.map_cons, List.map_cons, List.foldr_cons, List.foldr_cons, ih,
      Nat.max_assoc]

lemma greatestRank_perm (h : shapes.Perm shapes') : greatestRank shapes = greatestRank shapes' :=
  (h.map rank).foldr_eq 0

/-- What it means for a result to be that of broadcasting some shapes together. -/
def IsBroadcast (shapes : List Shape) : Except ShapeError Shape → Prop
  | .ok s => s.rank = greatestRank shapes ∧ ∀ i, Dim.IsLeast (column shapes i) (s.fromEnd i)
  | .error _ => ∃ i, Dim.Conflicting (column shapes i)

variable {result result' : Except ShapeError Shape}

lemma isBroadcast_nil : IsBroadcast [] (.ok scalar) := ⟨rfl, fun _ => Dim.isLeast_nil⟩

lemma isBroadcast_singleton (s : Shape) : IsBroadcast [s] (.ok s) :=
  ⟨by simp [greatestRank], fun _ => Dim.isLeast_singleton _⟩

lemma column_append (shapes shapes' : List Shape) (i : Nat) :
    column (shapes ++ shapes') i = column shapes i ++ column shapes' i :=
  List.map_append

/-- The results for two lists of shapes, broadcast to each other, are the result for both lists. -/
lemma IsBroadcast.append (h : IsBroadcast shapes result) (h' : IsBroadcast shapes' result') :
    IsBroadcast (shapes ++ shapes') (do (← result).broadcast (← result')) := by
  cases result with
  | error e =>
    obtain ⟨i, hi⟩ := h
    exact ⟨i, hi.mono (column_append shapes shapes' i ▸ List.subset_append_left _ _)⟩
  | ok s =>
    cases result' with
    | error e =>
      obtain ⟨i, hi⟩ := h'
      exact ⟨i, hi.mono (column_append shapes shapes' i ▸ List.subset_append_right _ _)⟩
    | ok t =>
      change IsBroadcast _ (s.broadcast t)
      cases hst : s.broadcast t with
      | error e =>
        obtain ⟨i, hi⟩ := exists_of_broadcast_eq_error hst
        refine ⟨i, ?_⟩
        rw [column_append]
        exact Dim.conflicting_append (h.2 i) (h'.2 i) hi
      | ok u =>
        obtain ⟨hrank, hdims⟩ := broadcast_eq_ok_iff.mp hst
        refine ⟨by rw [hrank, h.1, h'.1, greatestRank_append], fun i => ?_⟩
        rw [column_append]
        exact (h.2 i).append (h'.2 i) (hdims i)

lemma IsBroadcast.perm (h : IsBroadcast shapes result) (hperm : shapes.Perm shapes') :
    IsBroadcast shapes' result := by
  have hcolumn (i : Nat) : (column shapes i).Perm (column shapes' i) := hperm.map _
  cases result with
  | error e =>
    obtain ⟨i, hi⟩ := h
    exact ⟨i, hi.mono (hcolumn i).subset⟩
  | ok s => exact ⟨greatestRank_perm hperm ▸ h.1, fun i => (h.2 i).perm (hcolumn i)⟩

lemma not_conflicting_of_isBroadcast (h : IsBroadcast shapes (.ok s)) (i : Nat) :
    ¬Dim.Conflicting (column shapes i) := fun hi =>
  Dim.conflicting_iff.mp hi (s.fromEnd i) (h.2 i).stretchesTo

lemma eq_of_fromEnd (hrank : s.rank = t.rank) (h : ∀ i, s.fromEnd i = t.fromEnd i) : s = t := by
  have hdims : s.dims.reverse = t.dims.reverse := by
    rw [reverse_dims, reverse_dims, hrank]
    exact List.map_congr_left fun i _ => h i
  exact congrArg mk (List.reverse_inj.mp hdims)

lemma IsBroadcast.unique (h : IsBroadcast shapes result) (h' : IsBroadcast shapes result') :
    result.toOption = result'.toOption := by
  cases result with
  | error e =>
    cases result' with
    | error e' => rfl
    | ok t =>
      obtain ⟨i, hi⟩ := h
      exact absurd hi (not_conflicting_of_isBroadcast h' i)
  | ok s =>
    cases result' with
    | error e =>
      obtain ⟨i, hi⟩ := h'
      exact absurd hi (not_conflicting_of_isBroadcast h i)
    | ok t =>
      have heq : s = t :=
        eq_of_fromEnd (h.1.trans h'.1.symm) fun i => (h.2 i).unique (h'.2 i)
      rw [heq]

lemma isBroadcast_broadcastAll (shapes : List Shape) :
    IsBroadcast shapes (broadcastAll shapes) := by
  unfold broadcastAll
  induction shapes using List.reverseRecOn with
  | nil => exact isBroadcast_nil
  | append_singleton shapes s ih =>
    have hlast : (shapes ++ [s]).foldlM broadcast scalar =
        (do (← shapes.foldlM broadcast scalar).broadcast (← .ok s)) := by
      rw [List.foldlM_append]
      simp only [List.foldlM_cons, List.foldlM_nil, bind_pure]
      rfl
    rw [hlast]
    exact ih.append (isBroadcast_singleton s)

/-- A way to broadcast shapes in pairs. -/
inductive Grouping where
  | single (s : Shape)
  | pair (left right : Grouping)

namespace Grouping

def operands : Grouping → List Shape
  | single s => [s]
  | pair left right => left.operands ++ right.operands

def broadcast : Grouping → Except ShapeError Shape
  | single s => .ok s
  | pair left right => do (← left.broadcast).broadcast (← right.broadcast)

lemma isBroadcast (g : Grouping) : IsBroadcast g.operands g.broadcast := by
  induction g with
  | single s => exact isBroadcast_singleton s
  | pair left right hleft hright => exact hleft.append hright

end Grouping

/-- Shapes can be broadcast together unless two different numbers other than one stand in one
position, counted from the right. The result has the greatest rank, and in each position what the
extents there have in common. Any order of the shapes and any grouping of them in pairs comes to the
same. -/
theorem broadcastAll_closed_form (shapes : List Shape) :
    ((∃ e, broadcastAll shapes = .error e) ↔ ∃ i, Dim.Conflicting (column shapes i)) ∧
      (∀ s, broadcastAll shapes = .ok s →
        s.rank = greatestRank shapes ∧ ∀ i, Dim.Joint (column shapes i) (s.fromEnd i)) ∧
      (∀ shapes', shapes'.Perm shapes →
        (broadcastAll shapes').toOption = (broadcastAll shapes).toOption) ∧
      ∀ g : Grouping, g.operands.Perm shapes →
        g.broadcast.toOption = (broadcastAll shapes).toOption := by
  have hall := isBroadcast_broadcastAll shapes
  refine ⟨?_, fun s hs => ?_, fun shapes' hperm => ?_, fun g hperm => ?_⟩
  · cases h : broadcastAll shapes with
    | error e =>
      rw [h] at hall
      exact iff_of_true ⟨e, rfl⟩ hall
    | ok s =>
      rw [h] at hall
      exact iff_of_false nofun (not_exists.mpr (not_conflicting_of_isBroadcast hall))
  · rw [hs] at hall
    exact ⟨hall.1, fun i => (hall.2 i).joint⟩
  · exact ((isBroadcast_broadcastAll shapes').perm hperm).unique hall
  · exact (g.isBroadcast.perm hperm).unique hall

/-- A position that a shape lacks counts as a one. -/
example :
    broadcastAll [⟨[.param "N", .known 1]⟩, ⟨[.unknown]⟩, ⟨[.known 5, .known 1, .known 3]⟩] =
      .ok ⟨[.known 5, .param "N", .known 3]⟩ := by
  decide

end Shape

end TensorGraph
