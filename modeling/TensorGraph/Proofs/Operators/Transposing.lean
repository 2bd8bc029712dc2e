import Mathlib.Data.List.Perm.Subperm
import TensorGraph.Proofs.Operators.Axes

/-!
# Transpositions are permutations

A transposition is accepted if its entries stand for all positions of the data, each once. Two in a
row do what a single one does, and a permutation and its inverse cancel out, as does the reversal
that stands in for a missing list with itself.
-/

namespace TensorGraph

/-! ### Lists of positions -/

section Positions

variable {α : Type} {xs : List α} {positions : List Nat} {rank : Nat}

lemma perm_range_iff :
    positions.Perm (List.range rank) ↔
      positions.Nodup ∧ positions.length = rank ∧ ∀ p ∈ positions, p < rank := by
  constructor
  · intro h
    refine ⟨h.nodup_iff.mpr List.nodup_range, ?_, ?_⟩
    · rw [h.length_eq, List.length_range]
    · intro p hp
      exact List.mem_range.mp (h.mem_iff.mp hp)
  · rintro ⟨hnodup, hlength, hlt⟩
    have hsub : positions ⊆ List.range rank := fun p hp => List.mem_range.mpr (hlt p hp)
    apply (List.subperm_of_subset hnodup hsub).perm_of_length_le
    simp [hlength]

/-- The entries of a list at some positions. -/
def entriesAt (xs : List α) (positions : List Nat) : List α := positions.filterMap fun p => xs[p]?

lemma map_some_entriesAt (h : ∀ p ∈ positions, p < xs.length) :
    (entriesAt xs positions).map some = positions.map fun p => xs[p]? := by
  unfold entriesAt
  induction positions with
  | nil => rfl
  | cons p positions ih =>
    rw [List.forall_mem_cons] at h
    rw [List.filterMap_cons_some (List.getElem?_eq_getElem h.1), List.map_cons, List.map_cons,
      ih h.2, List.getElem?_eq_getElem h.1]

lemma length_entriesAt (h : ∀ p ∈ positions, p < xs.length) :
    (entriesAt xs positions).length = positions.length := by
  simpa using congrArg List.length (map_some_entriesAt h)

lemma getElem?_entriesAt (h : ∀ p ∈ positions, p < xs.length) (i : Nat) :
    (entriesAt xs positions)[i]? = positions[i]?.bind fun p => xs[p]? := by
  have hentry := congrArg (fun l => l[i]?) (map_some_entriesAt h)
  simp only [List.getElem?_map] at hentry
  cases hp : positions[i]? with
  | none => simpa [hp] using hentry
  | some p =>
    obtain ⟨x, hx, hsome⟩ := Option.map_eq_some_iff.mp (hentry.trans (congrArg _ hp))
    rw [hx, Option.bind_some]
    exact hsome

lemma entriesAt_range (xs : List α) : entriesAt xs (List.range xs.length) = xs := by
  apply List.ext_getElem?
  intro i
  rw [getElem?_entriesAt fun p hp => List.mem_range.mp hp]
  by_cases hi : i < xs.length
  · rw [List.getElem?_range hi]
    rfl
  · rw [List.getElem?_eq_none (by simpa using hi), List.getElem?_eq_none (by simpa using hi)]
    rfl

lemma entriesAt_entriesAt (h : ∀ p ∈ positions, p < xs.length) (others : List Nat) :
    entriesAt (entriesAt xs positions) others = entriesAt xs (entriesAt positions others) := by
  unfold entriesAt
  rw [List.filterMap_filterMap]
  apply List.filterMap_congr
  intro j _
  exact getElem?_entriesAt h j

lemma entriesAt_perm (h : positions.Perm (List.range xs.length)) :
    (entriesAt xs positions).Perm xs := by
  have hperm := h.filterMap fun p => xs[p]?
  rwa [← entriesAt, ← entriesAt, entriesAt_range] at hperm

lemma entriesAt_reverse_range (xs : List α) :
    entriesAt xs (List.range xs.length).reverse = xs.reverse := by
  unfold entriesAt
  rw [List.filterMap_reverse, ← entriesAt, entriesAt_range]

lemma entriesAt_idxOf (h : positions.Perm (List.range rank)) :
    entriesAt positions ((List.range rank).map positions.idxOf) = List.range rank := by
  unfold entriesAt
  rw [List.filterMap_map]
  refine (List.filterMap_congr fun p hp => ?_).trans List.filterMap_some
  exact List.getElem?_idxOf (h.mem_iff.mpr hp)

lemma perm_map_idxOf (h : positions.Perm (List.range rank)) :
    ((List.range rank).map positions.idxOf).Perm (List.range rank) := by
  have hmem (p : Nat) (hp : p ∈ List.range rank) : p ∈ positions := h.mem_iff.mpr hp
  refine perm_range_iff.mpr ⟨?distinct, by simp, ?inRange⟩
  case distinct =>
    apply List.nodup_range.map_on
    intro p hp q hq heq
    exact (List.idxOf_inj (hmem p hp)).mp heq
  case inRange =>
    intro i hi
    obtain ⟨p, hp, rfl⟩ := List.mem_map.mp hi
    simpa [h.length_eq] using List.idxOf_lt_length_of_mem (hmem p hp)

end Positions

/-! ### Laws of transpositions -/

/-- The second shape has as its extents those of the first one at the given positions. -/
structure Shape.Permuted (s : Shape) (positions : List Int) (t : Shape) : Prop where
  rank : t.rank = s.rank
  extents : ∀ i j : Nat, positions[i]? = some (j : Int) → t.dims[i]? = s.dims[j]?

namespace Rule

variable {c : Context} {elem? : Option ElemType} {s : Shape}

/-- The positions that the entries of a permutation stand for; without a list, from last to
first. -/
def permPositions (c : Context) (rank : Nat) : List Int :=
  match c.node.ints? "perm" with
  | some perm => perm.map (axisPosition rank)
  | none => (List.range rank).reverse.map Nat.cast

/-- One list of positions that does what two do in a row. -/
def composed (first second : List Int) : List Int := second.filterMap fun j => first[j.toNat]?

/-- Every entry of one list is the position at which the other one has the position of the entry. -/
def Inverts (inverse positions : List Int) : Prop :=
  inverse.length = positions.length ∧
    ∀ i j : Nat, positions[i]? = some (j : Int) → inverse[j]? = some (i : Int)

lemma castPositions_inj {ps qs : List Nat} (h : ps.map (Nat.cast : Nat → Int) = qs.map Nat.cast) :
    ps = qs :=
  List.map_injective_iff.mpr (fun _ _ => Int.ofNat_inj.mp) h

lemma permutation_eq_ok_iff {rank : Nat} {positions : List Nat} :
    permutation c rank = .ok positions ↔
      positions.Perm (List.range rank) ∧ permPositions c rank = positions.map Nat.cast := by
  unfold permutation permPositions
  cases c.node.ints? "perm" with
  | none =>
    constructor
    · intro h
      obtain rfl := Except.ok.inj h
      exact ⟨List.reverse_perm _, rfl⟩
    · rintro ⟨_, h⟩
      rw [castPositions_inj h]
      rfl
  | some perm =>
    dsimp only
    rw [perm_range_iff]
    constructor
    · intro h
      obtain ⟨resolved, hresolved, h⟩ := bind_eq_ok_iff.mp h
      obtain ⟨hlt, hmap⟩ := mapM_axisIn_eq_ok_iff.mp hresolved
      by_cases hnodup : resolved.Nodup
      · by_cases hlength : resolved.length = rank
        · obtain rfl : resolved = positions := by
            simpa [hnodup, hlength, bind, Except.bind, pure, Except.pure] using h
          exact ⟨⟨hnodup, hlength, hlt⟩, hmap⟩
        · simp [hnodup, hlength, bind, Except.bind] at h
      · simp [hnodup, bind, Except.bind] at h
    · rintro ⟨⟨hnodup, hlength, hlt⟩, hmap⟩
      rw [mapM_axisIn_eq_ok_iff.mpr ⟨hlt, hmap⟩]
      simp [hnodup, hlength, bind, Except.bind, pure, Except.pure]

lemma transpose_eq_ok_iff (hdata : c.typeAt 0 = .ok ⟨elem?, some s⟩) {types : List TensorType} :
    transpose c = .ok types ↔ ∃ positions : List Nat,
      positions.Perm (List.range s.rank) ∧
      permPositions c s.rank = positions.map Nat.cast ∧
      types = [⟨elem?, some ⟨entriesAt s.dims positions⟩⟩] := by
  unfold transpose
  rw [Context.shapeAt_of_typeAt hdata]
  simp only [Context.withElem_of_typeAt hdata]
  change (permutation c s.rank >>= _ : Typing) = _ ↔ _
  simp only [bind_eq_ok_iff, permutation_eq_ok_iff, and_assoc]
  refine exists_congr fun positions => and_congr_right fun _ => and_congr_right fun _ => ?_
  constructor
  · intro h
    exact (Except.ok.inj h).symm
  · rintro rfl
    rfl

lemma permuted_entriesAt {positions : List Nat} (h : positions.Perm (List.range s.rank)) :
    s.Permuted (positions.map Nat.cast) ⟨entriesAt s.dims positions⟩ := by
  have hlt : ∀ p ∈ positions, p < s.dims.length := (perm_range_iff.mp h).2.2
  constructor
  · rw [Shape.rank, length_entriesAt hlt, h.length_eq, List.length_range]
  · intro i j hij
    rw [List.getElem?_map] at hij
    obtain ⟨p, hp, heq⟩ := Option.map_eq_some_iff.mp hij
    obtain rfl : p = j := Int.ofNat_inj.mp heq
    rw [getElem?_entriesAt hlt, hp]
    rfl

lemma composed_castPositions (first second : List Nat) :
    composed (first.map Nat.cast) (second.map Nat.cast) =
      (entriesAt first second).map Nat.cast := by
  unfold composed entriesAt
  rw [List.filterMap_map, List.map_filterMap]
  apply List.filterMap_congr
  intro j _
  simp

lemma eq_of_inverts {positions : List Nat} {inverse : List Int} {rank : Nat}
    (h : positions.Perm (List.range rank)) (hinverts : Inverts inverse (positions.map Nat.cast)) :
    inverse = ((List.range rank).map positions.idxOf).map Nat.cast := by
  obtain ⟨hlength, hentries⟩ := hinverts
  have hrank : inverse.length = rank := by simpa [h.length_eq] using hlength
  apply List.ext_getElem?
  intro j
  by_cases hj : j < rank
  · have hmem : j ∈ positions := h.mem_iff.mpr (List.mem_range.mpr hj)
    have hentry := hentries (positions.idxOf j) j
    rw [List.getElem?_map, List.getElem?_idxOf hmem] at hentry
    rw [hentry rfl]
    simp [hj]
  · rw [List.getElem?_eq_none (by omega), List.getElem?_eq_none (by simpa using hj)]

lemma exists_castPositions {positions : List Int} {rank : Nat}
    (h : positions.Perm ((List.range rank).map Nat.cast)) :
    ∃ ps : List Nat, ps.Perm (List.range rank) ∧ positions = ps.map Nat.cast := by
  refine ⟨positions.map Int.toNat, ?_, ?_⟩
  · simpa [Function.comp_def] using h.map Int.toNat
  · have hcast (p : Int) (hp : p ∈ positions) : ((p.toNat : Nat) : Int) = p := by
      obtain ⟨n, _, rfl⟩ := List.mem_map.mp (h.mem_iff.mp hp)
      simp
    rw [List.map_map]
    exact ((List.map_congr_left (g := id) hcast).trans (List.map_id positions)).symm

section Laws

variable {c' c'' : Context} {ps : List Nat}

lemma rank_entriesAt (hps : ps.Perm (List.range s.rank)) :
    (Shape.mk (entriesAt s.dims ps)).rank = s.rank :=
  (permuted_entriesAt hps).rank

lemma transpose_transpose (hps : ps.Perm (List.range s.rank))
    (hdata' : c'.typeAt 0 = .ok ⟨elem?, some ⟨entriesAt s.dims ps⟩⟩)
    (hdata'' : c''.typeAt 0 = .ok ⟨elem?, some s⟩)
    (hcomposed : permPositions c'' s.rank =
      composed (ps.map Nat.cast) (permPositions c' s.rank))
    {types : List TensorType} (htypes : transpose c' = .ok types) :
    transpose c'' = .ok types := by
  obtain ⟨qs, hqs, hcast, rfl⟩ := (transpose_eq_ok_iff hdata').mp htypes
  rw [rank_entriesAt hps] at hqs hcast
  rw [hcast, composed_castPositions] at hcomposed
  have hlength : ps.length = s.rank := (perm_range_iff.mp hps).2.1
  have hperm : (entriesAt ps qs).Perm (List.range s.rank) :=
    (entriesAt_perm (hlength ▸ hqs)).trans hps
  refine (transpose_eq_ok_iff hdata'').mpr ⟨entriesAt ps qs, hperm, hcomposed, ?_⟩
  rw [entriesAt_entriesAt (perm_range_iff.mp hps).2.2]

lemma transpose_of_inverts (hps : ps.Perm (List.range s.rank))
    (hdata' : c'.typeAt 0 = .ok ⟨elem?, some ⟨entriesAt s.dims ps⟩⟩)
    (hinverts : Inverts (permPositions c' s.rank) (ps.map Nat.cast)) :
    transpose c' = .ok [⟨elem?, some s⟩] := by
  have hcast := eq_of_inverts hps hinverts
  have hback := perm_map_idxOf hps
  rw [← rank_entriesAt hps] at hcast hback
  refine (transpose_eq_ok_iff hdata').mpr ⟨_, hback, hcast, ?_⟩
  have hrestored : entriesAt s.dims (List.range s.rank) = s.dims := entriesAt_range s.dims
  rw [entriesAt_entriesAt (perm_range_iff.mp hps).2.2, rank_entriesAt hps, entriesAt_idxOf hps,
    hrestored]

lemma transpose_default (hdata : c.typeAt 0 = .ok ⟨elem?, some s⟩)
    (hdefault : c.node.ints? "perm" = none) :
    transpose c = .ok [⟨elem?, some ⟨s.dims.reverse⟩⟩] := by
  have hcast : permPositions c s.rank = (List.range s.rank).reverse.map Nat.cast := by
    unfold permPositions
    rw [hdefault]
  have hreverse : entriesAt s.dims (List.range s.rank).reverse = s.dims.reverse :=
    entriesAt_reverse_range s.dims
  refine (transpose_eq_ok_iff hdata).mpr ⟨_, List.reverse_perm _, hcast, ?_⟩
  rw [hreverse]

end Laws

/-- A transposition is accepted just if its entries stand for all positions of the data, each once.
The result has the extents at those positions; a second transposition does to it what the composed
one does to the data, the inverse one restores the data, and so does the default after itself. -/
theorem transpose_laws (hdata : c.typeAt 0 = .ok ⟨elem?, some s⟩) :
    let positions := permPositions c s.rank
    ((∃ types, transpose c = .ok types) ↔
      positions.Perm ((List.range s.rank).map Nat.cast)) ∧
    ∀ types, transpose c = .ok types → ∃ t,
      types = [⟨elem?, some t⟩] ∧ s.Permuted positions t ∧
      ∀ c' : Context, c'.typeAt 0 = .ok ⟨elem?, some t⟩ →
        (∀ (c'' : Context) (types' : List TensorType), c''.typeAt 0 = .ok ⟨elem?, some s⟩ →
          permPositions c'' s.rank = composed positions (permPositions c' s.rank) →
          transpose c' = .ok types' → transpose c'' = .ok types') ∧
        (Inverts (permPositions c' s.rank) positions → transpose c' = .ok [⟨elem?, some s⟩]) ∧
        (c.node.ints? "perm" = none → c'.node.ints? "perm" = none →
          transpose c' = .ok [⟨elem?, some s⟩]) := by
  intro positions
  constructor
  · constructor
    · rintro ⟨types, htypes⟩
      obtain ⟨ps, hps, hcast, _⟩ := (transpose_eq_ok_iff hdata).mp htypes
      have hpositions : positions = ps.map Nat.cast := hcast
      rw [hpositions]
      exact hps.map Nat.cast
    · intro h
      obtain ⟨ps, hps, hcast⟩ := exists_castPositions h
      exact ⟨_, (transpose_eq_ok_iff hdata).mpr ⟨ps, hps, hcast, rfl⟩⟩
  · intro types htypes
    obtain ⟨ps, hps, hcast, rfl⟩ := (transpose_eq_ok_iff hdata).mp htypes
    have hpositions : positions = ps.map Nat.cast := hcast
    rw [hpositions]
    refine ⟨_, rfl, permuted_entriesAt hps, ?_⟩
    intro c' hdata'
    refine ⟨?composition, transpose_of_inverts hps hdata', ?default⟩
    case composition =>
      intro c'' types' hdata'' hcomposed htypes'
      exact transpose_transpose hps hdata' hdata'' hcomposed htypes'
    case default =>
      intro hdefault hdefault'
      have hreversed := htypes.symm.trans (transpose_default hdata hdefault)
      simp only [Except.ok.injEq, List.cons.injEq, TensorType.mk.injEq, Option.some.injEq,
        Shape.mk.injEq, true_and, and_true] at hreversed
      rw [transpose_default hdata' hdefault', hreversed, List.reverse_reverse]

/-- A rotation by one, with an entry that counts from the end, and the rotation back. -/
theorem transpose_laws_of_rotation :
    let s : Shape := ⟨[.known 2, .param "N", .unknown]⟩
    let t : Shape := ⟨[.unknown, .known 2, .param "N"]⟩
    let u : Shape := ⟨[.param "N", .unknown, .known 2]⟩
    let c (perm : List Int64) (s : Shape) : Context :=
      ⟨{ op := "Transpose", inputs := ["x"], outputs := ["y"],
          attributes := .ofList [("perm", .ints perm)] },
        [some { type := ⟨some .float, some s⟩ }], 13⟩
    (c [-1, 0, 1] s).typeAt 0 = .ok ⟨some .float, some s⟩ ∧
      transpose (c [-1, 0, 1] s) = .ok [⟨some .float, some t⟩] ∧
      transpose (c [-1, 0, 1] t) = .ok [⟨some .float, some u⟩] ∧
      composed (permPositions (c [-1, 0, 1] s) 3) (permPositions (c [-1, 0, 1] t) 3) = [1, 2, 0] ∧
      transpose (c [1, -1, 0] s) = .ok [⟨some .float, some u⟩] ∧
      Inverts (permPositions (c [1, 2, -3] t) 3) (permPositions (c [-1, 0, 1] s) 3) ∧
      transpose (c [1, 2, -3] t) = .ok [⟨some .float, some s⟩] := by
  intro s t u c
  have hdata : (c [-1, 0, 1] s).typeAt 0 = .ok ⟨some .float, some s⟩ := by rfl
  have htypes : transpose (c [-1, 0, 1] s) = .ok [⟨some .float, some t⟩] := by rfl
  have htypes' : transpose (c [-1, 0, 1] t) = .ok [⟨some .float, some u⟩] := by rfl
  have hinverts : Inverts (permPositions (c [1, 2, -3] t) 3)
      (permPositions (c [-1, 0, 1] s) 3) := by
    refine ⟨rfl, ?_⟩
    intro i j hij
    change [(2 : Int), 0, 1][i]? = some (j : Int) at hij
    change [(1 : Int), 2, 0][j]? = some (i : Int)
    match i with
    | 0 =>
      obtain rfl : 2 = j := Int.ofNat_inj.mp (Option.some.inj hij)
      rfl
    | 1 =>
      obtain rfl : 0 = j := Int.ofNat_inj.mp (Option.some.inj hij)
      rfl
    | 2 =>
      obtain rfl : 1 = j := Int.ofNat_inj.mp (Option.some.inj hij)
      rfl
    | i + 3 => simp at hij
  obtain ⟨t', ht', _, hlaws⟩ := (transpose_laws hdata).2 _ htypes
  obtain rfl : t = t' := by simpa using ht'
  exact ⟨hdata, htypes, htypes', rfl, (hlaws (c [-1, 0, 1] t) rfl).1 _ _ rfl rfl htypes', hinverts,
    (hlaws (c [1, 2, -3] t) rfl).2.1 hinverts⟩

end Rule

end TensorGraph
