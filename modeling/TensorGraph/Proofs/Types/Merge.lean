import TensorGraph.Proofs.Refinement

/-!
# Merging types is a join

Two descriptions of one tensor can be merged exactly if they agree wherever both are sure: about the
element type, the rank and the extents that are numbers. Merging is then a total operation, the
join, which takes from the right description only what the left one leaves open. It is associative,
and it commutes up to names of extents, of which those on the left count.
-/

namespace TensorGraph

/-- Two pieces of information do not contradict each other. -/
def Agree {α : Type} (x y : Option α) : Prop := ∀ a ∈ x, ∀ b ∈ y, a = b

section Agree

variable {α : Type} {x y z : Option α}

lemma agree_comm : Agree x y ↔ Agree y x :=
  ⟨fun h b hb a ha => (h a ha b hb).symm, fun h a ha b hb => (h b hb a ha).symm⟩

lemma agree_self (x : Option α) : Agree x x := by
  intro a ha b hb
  exact Option.some.inj (ha.symm.trans hb)

lemma agree_or_left (h : Agree x y) : Agree (x.or y) z ↔ Agree x z ∧ Agree y z := by
  cases x with
  | none => simp [Agree]
  | some a =>
    rw [Option.some_or, iff_self_and]
    intro hz b hb c hc
    rw [← h a rfl b hb]
    exact hz a rfl c hc

lemma or_comm_of_agree (h : Agree x y) : x.or y = y.or x := by
  cases x <;> cases y <;> simp_all [Agree]

end Agree

namespace Dim

variable {a b c : Dim}

/-- The more specific one of two descriptions of an extent; the left one if none is. -/
def join : Dim → Dim → Dim
  | known n, _ => known n
  | _, known n => known n
  | param p, _ => param p
  | unknown, d => d

lemma merge_eq_some_iff : a.merge b = some c ↔ Agree a.extent? b.extent? ∧ c = a.join b := by
  cases a <;> cases b <;> simp [merge, join, extent?, Agree, eq_comm]

lemma extent?_join (a b : Dim) : (a.join b).extent? = a.extent?.or b.extent? := by
  cases a <;> cases b <;> rfl

lemma join_self (a : Dim) : a.join a = a := by
  cases a <;> rfl

lemma join_assoc (a b c : Dim) : (a.join b).join c = a.join (b.join c) := by
  cases a <;> cases b <;> cases c <;> rfl

lemma join_eq_or (a b : Dim) : a.join b = a ∨ a.join b = b := by
  cases a <;> cases b <;> simp [join]

lemma RefinedBy.join (ha : a.RefinedBy c) (hb : b.RefinedBy c) : (a.join b).RefinedBy c := by
  rcases join_eq_or a b with h | h
  · rwa [h]
  · rwa [h]

lemma join_comm_or (h : Agree a.extent? b.extent?) :
    a.join b = b.join a ∨ ∃ p q, p ≠ q ∧ a = param p ∧ b = param q := by
  cases a <;> cases b <;> simp_all [join, extent?, Agree, or_iff_not_imp_left]

instance : Std.Associative join := ⟨join_assoc⟩

end Dim

namespace Shape

variable {s t u : Shape}

def join (s t : Shape) : Shape := ⟨List.zipWith Dim.join s.dims t.dims⟩

/-- The number that is the extent at a position. -/
def extent? (s : Shape) (i : Nat) : Option Nat := s.dims[i]?.bind Dim.extent?

lemma getElem?_join (h : s.rank = t.rank) (i : Nat) :
    (s.join t).dims[i]? = Option.merge Dim.join s.dims[i]? t.dims[i]? := by
  rw [join, List.getElem?_zipWith]
  unfold rank at h
  by_cases hi : i < s.dims.length
  · have hi' : i < t.dims.length := h ▸ hi
    rw [List.getElem?_eq_getElem hi, List.getElem?_eq_getElem hi']
    rfl
  · have hi' : ¬i < t.dims.length := h ▸ hi
    rw [List.getElem?_eq_none (Nat.le_of_not_lt hi), List.getElem?_eq_none (Nat.le_of_not_lt hi')]
    rfl

lemma rank_join (h : s.rank = t.rank) : (s.join t).rank = s.rank := by
  unfold rank at h ⊢
  rw [join, List.length_zipWith, h, Nat.min_self]

lemma extent?_join (h : s.rank = t.rank) (i : Nat) :
    (s.join t).extent? i = (s.extent? i).or (t.extent? i) := by
  unfold extent?
  rw [getElem?_join h]
  cases s.dims[i]? with
  | none => simp
  | some d =>
    cases t.dims[i]? with
    | none => simp
    | some e => exact Dim.extent?_join d e

lemma join_assoc (s t u : Shape) : (s.join t).join u = s.join (t.join u) := by
  have hdims (ds es fs : List Dim) :
      List.zipWith Dim.join (List.zipWith Dim.join ds es) fs =
        List.zipWith Dim.join ds (List.zipWith Dim.join es fs) := by
    induction ds generalizing es fs with
    | nil => rfl
    | cons d ds ih => cases es <;> cases fs <;> simp [ih, Dim.join_assoc]
  exact congrArg Shape.mk (hdims s.dims t.dims u.dims)

lemma join_self (s : Shape) : s.join s = s := by
  simp [join, Dim.join_self]

instance : Std.Associative join := ⟨join_assoc⟩

lemma forall_mem_zip_agree_iff :
    (∀ p ∈ List.zip s.dims t.dims, Agree p.1.extent? p.2.extent?) ↔
      ∀ i, Agree (s.extent? i) (t.extent? i) := by
  constructor
  · intro hall i m hm n hn
    obtain ⟨d, hd, hm⟩ := Option.bind_eq_some_iff.mp hm
    obtain ⟨e, he, hn⟩ := Option.bind_eq_some_iff.mp hn
    have hmem := List.mem_of_getElem? (List.getElem?_zip_eq_some (z := (d, e)).mpr ⟨hd, he⟩)
    exact hall (d, e) hmem m hm n hn
  · rintro hall ⟨d, e⟩ hmem m hm n hn
    obtain ⟨i, hi⟩ := List.mem_iff_getElem?.mp hmem
    obtain ⟨hd, he⟩ := List.getElem?_zip_eq_some.mp hi
    exact hall i m (Option.bind_eq_some_iff.mpr ⟨d, hd, hm⟩) n
      (Option.bind_eq_some_iff.mpr ⟨e, he, hn⟩)

lemma RefinedBy.join (hs : s.RefinedBy u) (ht : t.RefinedBy u) : (s.join t).RefinedBy u := by
  have hdims {ds es fs : List Dim} (hds : List.Forall₂ Dim.RefinedBy ds fs)
      (hes : List.Forall₂ Dim.RefinedBy es fs) :
      List.Forall₂ Dim.RefinedBy (List.zipWith Dim.join ds es) fs := by
    induction hds generalizing es with
    | nil => exact .nil
    | cons hd _ ih =>
      cases hes with
      | cons he hes => exact .cons (hd.join he) (ih hes)
  exact hdims hs ht

lemma merge_eq_ok_iff_join :
    s.merge t = .ok u ↔ (s.rank = t.rank ∧ ∀ i, Agree (s.extent? i) (t.extent? i)) ∧
      u = s.join t := by
  simp only [merge_eq_ok_iff, Dim.merge_eq_some_iff]
  rw [forall₂_and_eq_iff, and_assoc]
  refine and_congr_right fun hrank => ?_
  rw [forall_mem_zip_agree_iff]
  refine and_congr_right fun _ => ?_
  obtain ⟨dims⟩ := u
  rw [List.map_zip_eq_zipWith, Shape.mk.injEq]
  rfl

end Shape

namespace TensorType

variable {a b c r : TensorType}

/-- The description of the extent at a position. -/
def dim? (t : TensorType) (i : Nat) : Option Dim := t.shape?.bind fun s => s.dims[i]?

/-- The number that is the extent at a position. -/
def extent? (t : TensorType) (i : Nat) : Option Nat := t.shape?.bind fun s => s.extent? i

lemma extent?_eq_bind (t : TensorType) (i : Nat) : t.extent? i = (t.dim? i).bind Dim.extent? := by
  obtain ⟨_, _ | s⟩ := t
  · rfl
  · rfl

/-- Nothing that is sure in one type contradicts what is sure in the other one. -/
structure Compatible (a b : TensorType) : Prop where
  elem : Agree a.elem? b.elem?
  rank : Agree a.rank? b.rank?
  extent : ∀ i, Agree (a.extent? i) (b.extent? i)

def join (a b : TensorType) : TensorType :=
  ⟨a.elem?.or b.elem?, Option.merge Shape.join a.shape? b.shape?⟩

lemma Compatible.symm (h : a.Compatible b) : b.Compatible a :=
  ⟨agree_comm.mp h.elem, agree_comm.mp h.rank, fun i => agree_comm.mp (h.extent i)⟩

lemma compatible_comm : a.Compatible b ↔ b.Compatible a := ⟨.symm, .symm⟩

lemma compatible_self (a : TensorType) : a.Compatible a :=
  ⟨agree_self _, agree_self _, fun _ => agree_self _⟩

lemma mergeElem_eq_ok_iff {x y z : Option ElemType} :
    mergeElem x y = .ok z ↔ Agree x y ∧ z = x.or y := by
  cases x with
  | none => simp [mergeElem, Agree, eq_comm]
  | some d =>
    cases y with
    | none => simp [mergeElem, Agree, eq_comm]
    | some e => by_cases h : d = e <;> simp [mergeElem, Agree, h, eq_comm]

lemma mergeShape_eq_ok_iff {x y z : Option Shape} :
    mergeShape x y = .ok z ↔ (Agree (x.map Shape.rank) (y.map Shape.rank) ∧
      ∀ i, Agree (x.bind fun s => s.extent? i) (y.bind fun s => s.extent? i)) ∧
      z = Option.merge Shape.join x y := by
  cases x with
  | none => simp [mergeShape, Agree, eq_comm]
  | some s =>
    cases y with
    | none => simp [mergeShape, Agree, eq_comm]
    | some t =>
      simp only [mergeShape, mapError_eq_ok_iff, map_eq_ok_iff, Shape.merge_eq_ok_iff_join]
      simp [Agree, eq_comm]

lemma merge_eq_ok_iff_join : a.merge b = .ok r ↔ a.Compatible b ∧ r = a.join b := by
  rw [merge_eq_ok_iff, mergeElem_eq_ok_iff, mergeShape_eq_ok_iff]
  constructor
  · rintro ⟨⟨helem, hr⟩, ⟨hrank, hextent⟩, hr'⟩
    exact ⟨⟨helem, hrank, hextent⟩, by rw [join, ← hr, ← hr']⟩
  · rintro ⟨h, rfl⟩
    exact ⟨⟨h.elem, rfl⟩, ⟨h.rank, h.extent⟩, rfl⟩

lemma rank?_join (h : a.Compatible b) : (a.join b).rank? = a.rank?.or b.rank? := by
  obtain ⟨_, _ | s⟩ := a
  · simp [join, rank?]
  · obtain ⟨_, _ | t⟩ := b
    · simp [join, rank?]
    · simp [join, rank?, Shape.rank_join (h.rank _ rfl _ rfl)]

lemma dim?_join (h : a.Compatible b) (i : Nat) :
    (a.join b).dim? i = Option.merge Dim.join (a.dim? i) (b.dim? i) := by
  obtain ⟨_, _ | s⟩ := a
  · simp [join, dim?]
  · obtain ⟨_, _ | t⟩ := b
    · simp [join, dim?]
    · exact Shape.getElem?_join (h.rank _ rfl _ rfl) i

lemma extent?_join (h : a.Compatible b) (i : Nat) :
    (a.join b).extent? i = (a.extent? i).or (b.extent? i) := by
  obtain ⟨_, _ | s⟩ := a
  · simp [join, extent?]
  · obtain ⟨_, _ | t⟩ := b
    · simp [join, extent?]
    · exact Shape.extent?_join (h.rank _ rfl _ rfl) i

lemma join_self (a : TensorType) : a.join a = a := by
  obtain ⟨elem?, shape?⟩ := a
  cases shape? <;> simp [join, Shape.join_self]

lemma join_assoc (a b c : TensorType) : (a.join b).join c = a.join (b.join c) := by
  have hshape : Option.merge Shape.join (Option.merge Shape.join a.shape? b.shape?) c.shape? =
      Option.merge Shape.join a.shape? (Option.merge Shape.join b.shape? c.shape?) :=
    Std.Associative.assoc _ _ _
  unfold join
  rw [Option.or_assoc, hshape]

/-- A type is compatible with a join exactly if it is with both sides of it. -/
lemma compatible_join_left (h : a.Compatible b) :
    (a.join b).Compatible c ↔ a.Compatible c ∧ b.Compatible c := by
  have helem : Agree (a.join b).elem? c.elem? ↔ Agree a.elem? c.elem? ∧ Agree b.elem? c.elem? :=
    agree_or_left h.elem
  have hrank := agree_or_left (z := c.rank?) h.rank
  have hextent i := agree_or_left (z := c.extent? i) (h.extent i)
  rw [← rank?_join h] at hrank
  simp only [← extent?_join h] at hextent
  constructor
  · intro hc
    exact ⟨⟨(helem.mp hc.elem).1, (hrank.mp hc.rank).1, fun i => ((hextent i).mp (hc.extent i)).1⟩,
      ⟨(helem.mp hc.elem).2, (hrank.mp hc.rank).2, fun i => ((hextent i).mp (hc.extent i)).2⟩⟩
  · rintro ⟨ha, hb⟩
    exact ⟨helem.mpr ⟨ha.elem, hb.elem⟩, hrank.mpr ⟨ha.rank, hb.rank⟩,
      fun i => (hextent i).mpr ⟨ha.extent i, hb.extent i⟩⟩

lemma compatible_join_right (h : b.Compatible c) :
    a.Compatible (b.join c) ↔ a.Compatible b ∧ a.Compatible c := by
  rw [compatible_comm, compatible_join_left h, compatible_comm, compatible_comm (a := c)]

lemma RefinedBy.join (ha : a.RefinedBy r) (hb : b.RefinedBy r) : (a.join b).RefinedBy r where
  elem e he := by
    rcases Option.or_eq_some_iff.mp he with he | ⟨-, he⟩
    · exact ha.elem e he
    · exact hb.elem e he
  shape u hu := by
    obtain ⟨_, _ | s⟩ := a
    · exact hb.shape u (by simpa [TensorType.join] using hu)
    · obtain ⟨_, _ | t⟩ := b
      · exact ha.shape u (by simpa [TensorType.join] using hu)
      · obtain ⟨v, hv, hs⟩ := ha.shape s rfl
        obtain ⟨v', hv', ht⟩ := hb.shape t rfl
        obtain rfl := Option.some.inj (hv.symm.trans hv')
        obtain rfl : s.join t = u := Option.some.inj hu
        exact ⟨v, hv, hs.join ht⟩

/-- A type that says all of the left one, all that is sure in the right one, nothing that neither
of them says, and no more than any type that refines both. -/
structure LeftJoin (a b r : TensorType) : Prop where
  refines : a.RefinedBy r
  elem : ∀ e ∈ b.elem?, e ∈ r.elem?
  rank : ∀ n ∈ b.rank?, n ∈ r.rank?
  extent : ∀ i, ∀ n ∈ b.extent? i, n ∈ r.extent? i
  elem_or : ∀ e ∈ r.elem?, e ∈ a.elem? ∨ e ∈ b.elem?
  rank_or : ∀ n ∈ r.rank?, n ∈ a.rank? ∨ n ∈ b.rank?
  dim_or : ∀ i, ∀ d ∈ r.dim? i, d ∈ a.dim? i ∨ d ∈ b.dim? i
  least : ∀ t, a.RefinedBy t → b.RefinedBy t → r.RefinedBy t

/-- Two types are the same, but for extents to which `a` and `b` give different names. -/
structure SameButNames (a b r r' : TensorType) : Prop where
  elem : r'.elem? = r.elem?
  rank : r'.rank? = r.rank?
  dim : ∀ i, r'.dim? i = r.dim? i ∨
    ∃ p q, p ≠ q ∧ a.dim? i = some (.param p) ∧ b.dim? i = some (.param q)

lemma Compatible.leftJoin (h : a.Compatible b) : a.LeftJoin b (a.join b) where
  refines := refinedBy_of_merge (merge_eq_ok_iff_join.mpr ⟨h, rfl⟩)
  elem e he := by
    rw [join, or_comm_of_agree h.elem, he]
    rfl
  rank n hn := by
    rw [rank?_join h, or_comm_of_agree h.rank, hn]
    rfl
  extent i n hn := by
    rw [extent?_join h, or_comm_of_agree (h.extent i), hn]
    rfl
  elem_or e he := (Option.or_eq_some_iff.mp he).imp_right And.right
  rank_or n hn := by
    rw [rank?_join h] at hn
    exact (Option.or_eq_some_iff.mp hn).imp_right And.right
  dim_or i d hd := by
    rw [dim?_join h] at hd
    rcases Option.merge_eq_or_eq Dim.join_eq_or (a.dim? i) (b.dim? i) with heq | heq
    · exact .inl (heq ▸ hd)
    · exact .inr (heq ▸ hd)
  least t := .join

lemma Compatible.agree_dim? (h : a.Compatible b) {i : Nat} {d e : Dim} (hd : a.dim? i = some d)
    (he : b.dim? i = some e) : Agree d.extent? e.extent? := by
  have hextent := h.extent i
  rwa [extent?_eq_bind, extent?_eq_bind, hd, he] at hextent

lemma Compatible.sameButNames (h : a.Compatible b) :
    SameButNames a b (a.join b) (b.join a) where
  elem := (or_comm_of_agree h.elem).symm
  rank := by rw [rank?_join h, rank?_join h.symm, or_comm_of_agree h.rank]
  dim i := by
    rw [dim?_join h, dim?_join h.symm]
    cases hd : a.dim? i with
    | none => simp
    | some d =>
      cases he : b.dim? i with
      | none => simp
      | some e =>
        rcases Dim.join_comm_or (h.agree_dim? hd he) with heq | ⟨p, q, hne, rfl, rfl⟩
        · exact .inl (congrArg some heq.symm)
        · exact .inr ⟨p, q, hne, rfl, rfl⟩

lemma merge_join_again (h : a.merge b = .ok r) : a.merge r = .ok r := by
  obtain ⟨hab, rfl⟩ := merge_eq_ok_iff_join.mp h
  refine merge_eq_ok_iff_join.mpr ⟨(compatible_join_right hab).mpr ⟨compatible_self a, hab⟩, ?_⟩
  rw [← join_assoc, join_self]

lemma merge_merge_left_eq_ok_iff :
    (a.merge b >>= fun s => s.merge c) = .ok r ↔
      (a.Compatible b ∧ a.Compatible c ∧ b.Compatible c) ∧ r = (a.join b).join c := by
  simp only [bind_eq_ok_iff, merge_eq_ok_iff_join]
  constructor
  · rintro ⟨_, ⟨hab, rfl⟩, hc, rfl⟩
    exact ⟨⟨hab, (compatible_join_left hab).mp hc⟩, rfl⟩
  · rintro ⟨⟨hab, hc⟩, rfl⟩
    exact ⟨_, ⟨hab, rfl⟩, (compatible_join_left hab).mpr hc, rfl⟩

lemma merge_merge_right_eq_ok_iff :
    (b.merge c >>= fun s => a.merge s) = .ok r ↔
      (a.Compatible b ∧ a.Compatible c ∧ b.Compatible c) ∧ r = a.join (b.join c) := by
  simp only [bind_eq_ok_iff, merge_eq_ok_iff_join]
  constructor
  · rintro ⟨_, ⟨hbc, rfl⟩, ha, rfl⟩
    obtain ⟨hab, hac⟩ := (compatible_join_right hbc).mp ha
    exact ⟨⟨hab, hac, hbc⟩, rfl⟩
  · rintro ⟨⟨hab, hac, hbc⟩, rfl⟩
    exact ⟨_, ⟨hbc, rfl⟩, (compatible_join_right hbc).mpr ⟨hab, hac⟩, rfl⟩

/-- Two types can be merged, in either order, exactly if they are compatible, and then they are
merged into a join of them; the other order gives the same up to names. Merging a type with itself,
or once more with either side, changes nothing, and of three types it does not matter which two are
merged first. -/
theorem merge_is_leftJoin (a b c : TensorType) :
    ((∃ r, a.merge b = .ok r) ↔ a.Compatible b) ∧
      ((∃ r, a.merge b = .ok r) ↔ ∃ r, b.merge a = .ok r) ∧
      (∀ r, a.merge b = .ok r →
        a.LeftJoin b r ∧ ∀ r', b.merge a = .ok r' → SameButNames a b r r') ∧
      a.merge a = .ok a ∧
      (a.merge b >>= fun r => r.merge b) = a.merge b ∧
      (a.merge b >>= fun r => a.merge r) = a.merge b ∧
      (a.merge b >>= fun r => r.merge c).toOption =
        (b.merge c >>= fun r => a.merge r).toOption := by
  have hsucceeds (a b : TensorType) : (∃ r, a.merge b = .ok r) ↔ a.Compatible b := by
    simp [merge_eq_ok_iff_join]
  refine ⟨hsucceeds a b, ?_, ?_, merge_self a, ?_, ?_, ?_⟩
  · rw [hsucceeds, hsucceeds, compatible_comm]
  · intro r hr
    obtain ⟨h, rfl⟩ := merge_eq_ok_iff_join.mp hr
    refine ⟨h.leftJoin, fun r' hr' => ?_⟩
    obtain ⟨-, rfl⟩ := merge_eq_ok_iff_join.mp hr'
    exact h.sameButNames
  · cases h : a.merge b with
    | error e => rfl
    | ok r => exact merge_again h
  · cases h : a.merge b with
    | error e => rfl
    | ok r => exact merge_join_again h
  · refine Option.ext fun r => ?_
    rw [toOption_eq_some_iff, toOption_eq_some_iff, merge_merge_left_eq_ok_iff,
      merge_merge_right_eq_ok_iff, join_assoc]

/-- A number goes before a name on either side, and of two names the left one stays. -/
example :
    merge ⟨none, some ⟨[.param "N", .unknown, .known 3]⟩⟩
        ⟨some .float, some ⟨[.param "M", .param "C", .param "W"]⟩⟩ =
      .ok ⟨some .float, some ⟨[.param "N", .param "C", .known 3]⟩⟩ := by
  decide

end TensorType

end TensorGraph
