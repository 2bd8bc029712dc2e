import TensorGraph.Proofs.Operators.FoldedValues
import TensorGraph.Proofs.Types.Merge

/-!
# Joining in groups

Tensors may be joined all at once, or first in groups of neighbours and then the results of those.
Both ways succeed or fail together, and where they succeed they give one type. The same holds of
the constants, which are computed apart from the types.
-/

namespace TensorGraph

/-! ### Operations that may be regrouped -/

section Regrouping

variable {α : Type}

/-- Combines a list from the left. The first entry must fit, also where it is the only one; no
entries give no result. -/
def combine? (fits : α → Bool) (op : α → α → Option α) : List α → Option α
  | [] => none
  | a :: as => if fits a then as.foldlM op a else none

/-- A partial operation for which neighbours may be combined on either side first. It has a result
only for what fits, and the result fits as well. -/
structure Regroups (fits : α → Bool) (op : α → α → Option α) : Prop where
  assoc : ∀ a b c, (op a b).bind (fun ab => op ab c) = (op b c).bind (op a)
  fits_of_eq_some : ∀ {a b c}, op a b = some c → fits a = true ∧ fits b = true ∧ fits c = true

lemma combine?_singleton (fits : α → Bool) (op : α → α → Option α) (a : α) :
    combine? fits op [a] = if fits a then some a else none := rfl

namespace Regroups

variable {fits : α → Bool} {op : α → α → Option α} {as bs : List α} {a b : α}

lemma op_left (h : Regroups fits op) (ha : fits a = false) (b : α) : op a b = none := by
  by_contra hne
  obtain ⟨c, hc⟩ := Option.ne_none_iff_exists'.mp hne
  exact Bool.false_ne_true (ha.symm.trans (h.fits_of_eq_some hc).1)

lemma bind_op (h : Regroups fits op) (a b : α) (c? : Option α) :
    (op a b).bind (fun ab => c?.bind (op ab)) = (c?.bind (op b)).bind (op a) := by
  cases c? with
  | none => exact Option.bind_fun_none (op a b)
  | some c => exact h.assoc a b c

lemma combine?_cons_cons (h : Regroups fits op) (a b : α) (bs : List α) :
    combine? fits op (a :: b :: bs) = (op a b).bind fun ab => combine? fits op (ab :: bs) := by
  change (if fits a then (op a b).bind fun ab => bs.foldlM op ab else none) = _
  cases hab : op a b with
  | none => simp
  | some ab =>
    obtain ⟨ha, -, hfits⟩ := h.fits_of_eq_some hab
    rw [if_pos ha, Option.bind_some, Option.bind_some, combine?, if_pos hfits]

/-- What is combined first may as well be combined last. -/
lemma combine?_cons (h : Regroups fits op) (a : α) (hbs : bs ≠ []) :
    combine? fits op (a :: bs) = (combine? fits op bs).bind (op a) := by
  obtain ⟨b, bs, rfl⟩ := List.exists_cons_of_ne_nil hbs
  clear hbs
  induction bs generalizing a b with
  | nil =>
    rw [h.combine?_cons_cons, combine?_singleton]
    simp only [combine?_singleton]
    cases hab : op a b with
    | none =>
      split_ifs
      · exact hab.symm
      · rfl
    | some ab =>
      obtain ⟨-, hb, hfits⟩ := h.fits_of_eq_some hab
      rw [Option.bind_some, if_pos hfits, if_pos hb]
      exact hab.symm
  | cons b' bs ih =>
    calc combine? fits op (a :: b :: b' :: bs)
        = (op a b).bind fun ab => combine? fits op (ab :: b' :: bs) := h.combine?_cons_cons ..
      _ = (op a b).bind fun ab => (combine? fits op (b' :: bs)).bind (op ab) := by simp only [ih]
      _ = ((combine? fits op (b' :: bs)).bind (op b)).bind (op a) := h.bind_op ..
      _ = (combine? fits op (b :: b' :: bs)).bind (op a) := by rw [ih]

lemma fits_of_combine? (h : Regroups fits op) (ha : combine? fits op as = some a) :
    fits a = true := by
  cases as with
  | nil => cases ha
  | cons b bs =>
    cases bs with
    | nil =>
      rw [combine?_singleton] at ha
      obtain ⟨hb, hba⟩ := Option.ite_none_right_eq_some.mp ha
      rwa [← Option.some.inj hba]
    | cons b' bs =>
      rw [h.combine?_cons b (List.cons_ne_nil b' bs)] at ha
      obtain ⟨r, -, hr⟩ := Option.bind_eq_some_iff.mp ha
      exact (h.fits_of_eq_some hr).2.2

lemma combine?_append (h : Regroups fits op) (has : as ≠ []) (hbs : bs ≠ []) :
    combine? fits op (as ++ bs) =
      (combine? fits op as).bind fun a => (combine? fits op bs).bind (op a) := by
  induction as with
  | nil => exact absurd rfl has
  | cons a as ih =>
    cases as with
    | nil =>
      rw [List.singleton_append, h.combine?_cons a hbs, combine?_singleton]
      cases ha : fits a with
      | true => rfl
      | false => simp [h.op_left ha]
    | cons a' as =>
      have hne := List.cons_ne_nil a' as
      rw [List.cons_append, h.combine?_cons a (List.append_ne_nil_of_left_ne_nil hne bs), ih hne,
        h.combine?_cons a hne, Option.bind_assoc, Option.bind_assoc]
      simp only [h.bind_op]

/-- Entries may be combined in groups first, where `unknown` stands for a group without result. -/
lemma combine?_groups (h : Regroups fits op) {unknown : α} (hunknown : fits unknown = false)
    {groups : List (List α)} (hgroups : ∀ g ∈ groups, g ≠ []) :
    combine? fits op (groups.map fun g => (combine? fits op g).getD unknown) =
      combine? fits op groups.flatten := by
  induction groups with
  | nil => rfl
  | cons g gs ih =>
    rw [List.forall_mem_cons] at hgroups
    rw [List.map_cons, List.flatten_cons]
    cases gs with
    | nil =>
      rw [List.map_nil, combine?_singleton, List.flatten_nil, List.append_nil]
      cases hg : combine? fits op g with
      | none => simp [hunknown]
      | some a => simp [h.fits_of_combine? hg]
    | cons g' gs =>
      have hrest : (g' :: gs).flatten ≠ [] := by
        simp [hgroups.2 g' List.mem_cons_self]
      rw [h.combine?_cons _ (by simp), ih hgroups.2, h.combine?_append hgroups.1 hrest]
      cases combine? fits op g with
      | none =>
        cases combine? fits op (g' :: gs).flatten with
        | none => rfl
        | some r => exact h.op_left hunknown r
      | some a => rfl

end Regroups

end Regrouping

/-! ### Joining two tensors -/

namespace Dim

lemma merge_assoc (a b c : Dim) :
    (a.merge b).bind (fun d => d.merge c) = (b.merge c).bind a.merge := by
  ext d
  simp only [Option.bind_eq_some_iff, merge_eq_some_iff]
  constructor
  · rintro ⟨_, ⟨hab, rfl⟩, habc, rfl⟩
    rw [extent?_join, agree_or_left hab] at habc
    refine ⟨_, ⟨habc.2, rfl⟩, ?_, join_assoc a b c⟩
    rw [extent?_join, agree_comm, agree_or_left habc.2]
    exact ⟨agree_comm.mp hab, agree_comm.mp habc.1⟩
  · rintro ⟨_, ⟨hbc, rfl⟩, habc, rfl⟩
    rw [extent?_join, agree_comm, agree_or_left hbc] at habc
    refine ⟨_, ⟨agree_comm.mp habc.1, rfl⟩, ?_, (join_assoc a b c).symm⟩
    rw [extent?_join, agree_or_left (agree_comm.mp habc.1)]
    exact ⟨agree_comm.mp habc.2, hbc⟩

end Dim

namespace Rule

lemma sumDim_comm (a b : Dim) : sumDim a b = sumDim b a := by
  cases a with
  | known m =>
    cases b with
    | known n => exact congrArg wordDim (Nat.add_comm m n)
    | param name => rfl
    | unknown => rfl
  | param name => cases b <;> rfl
  | unknown => cases b <;> rfl

lemma sumDim_unknown (a : Dim) : sumDim a .unknown = .unknown := by
  cases a <;> rfl

lemma sumDim_param (a : Dim) (name : String) : sumDim a (.param name) = .unknown := by
  cases a <;> rfl

lemma sumDim_wordDim (m n : Nat) : sumDim (wordDim m) (.known n) = wordDim (m + n) := by
  unfold wordDim
  by_cases hm : m < wordLimit
  · rw [if_pos hm]
    rfl
  · rw [if_neg hm, if_neg (by omega)]
    rfl

/-- An extent that is not known leaves all sums unknown, and so does a sum that is too large. -/
lemma sumDim_assoc (a b c : Dim) : sumDim (sumDim a b) c = sumDim a (sumDim b c) := by
  cases c with
  | unknown => simp only [sumDim_unknown]
  | param name => simp only [sumDim_param, sumDim_unknown]
  | known n =>
    cases b with
    | unknown =>
      rw [sumDim_unknown]
      exact (sumDim_unknown a).symm
    | param name =>
      rw [sumDim_param]
      exact (sumDim_unknown a).symm
    | known m =>
      cases a with
      | known k =>
        change sumDim (wordDim (k + m)) (.known n) = sumDim (.known k) (wordDim (m + n))
        rw [sumDim_comm (.known k), sumDim_wordDim, sumDim_wordDim, Nat.add_assoc,
          Nat.add_comm k (m + n)]
      | param name => rfl
      | unknown => rfl

/-- What two extents at position `i` are joined to. -/
def joinedDim? (axis i : Nat) (x y : Dim) : Option Dim :=
  if i = axis then some (sumDim x y) else x.merge y

/-- Joins extents, of which the first are at position `i`. -/
def joinedFrom? (axis i : Nat) (a b : List Dim) : Option (List Dim) :=
  ((List.zip a b).zipIdx i).mapM fun ((x, y), j) => joinedDim? axis j x y

section Dims

variable {axis i : Nat} {a b c dims : List Dim}

lemma joinedDim?_assoc (axis i : Nat) (x y z : Dim) :
    (joinedDim? axis i x y).bind (fun d => joinedDim? axis i d z) =
      (joinedDim? axis i y z).bind (joinedDim? axis i x) := by
  unfold joinedDim?
  split_ifs
  · simp only [Option.bind_some, sumDim_assoc]
  · exact Dim.merge_assoc x y z

lemma joinedFrom?_cons (axis i : Nat) (x y : Dim) (a b : List Dim) :
    joinedFrom? axis i (x :: a) (y :: b) =
      (joinedDim? axis i x y).bind fun d => (joinedFrom? axis (i + 1) a b).map (d :: ·) := by
  rw [joinedFrom?, List.zip_cons_cons, List.zipIdx_cons, mapM_cons_eq]
  rfl

lemma length_of_joinedFrom? (hab : a.length = b.length) (h : joinedFrom? axis i a b = some dims) :
    dims.length = a.length := by
  have hlength := (mapM_eq_some_iff.mp h).length_eq
  rw [List.length_zipIdx, List.length_zip, hab, Nat.min_self] at hlength
  omega

lemma joinedFrom?_assoc (hab : a.length = b.length) (hbc : b.length = c.length) :
    (joinedFrom? axis i a b).bind (fun d => joinedFrom? axis i d c) =
      (joinedFrom? axis i b c).bind (joinedFrom? axis i a) := by
  induction a generalizing b c i with
  | nil =>
    obtain rfl := List.length_eq_zero_iff.mp hab.symm
    obtain rfl := List.length_eq_zero_iff.mp hbc.symm
    rfl
  | cons x a ih =>
    obtain ⟨y, b, rfl⟩ := List.exists_cons_of_length_eq_add_one hab.symm
    obtain ⟨z, c, rfl⟩ := List.exists_cons_of_length_eq_add_one hbc.symm
    have hrest := ih (i := i + 1) (Nat.succ.inj hab) (Nat.succ.inj hbc)
    -- Both sides join the first position and the rest apart from each other.
    have hleft : (joinedFrom? axis i (x :: a) (y :: b)).bind
          (fun d => joinedFrom? axis i d (z :: c)) =
        ((joinedDim? axis i x y).bind fun d => joinedDim? axis i d z).bind fun d =>
          ((joinedFrom? axis (i + 1) a b).bind fun e => joinedFrom? axis (i + 1) e c).map
            (d :: ·) := by
      rw [joinedFrom?_cons]
      cases joinedDim? axis i x y with
      | none => rfl
      | some d =>
        cases joinedFrom? axis (i + 1) a b with
        | none => simp
        | some e => exact joinedFrom?_cons axis i d z e c
    have hright : (joinedFrom? axis i (y :: b) (z :: c)).bind (joinedFrom? axis i (x :: a)) =
        ((joinedDim? axis i y z).bind (joinedDim? axis i x)).bind fun d =>
          ((joinedFrom? axis (i + 1) b c).bind (joinedFrom? axis (i + 1) a)).map (d :: ·) := by
      rw [joinedFrom?_cons]
      cases joinedDim? axis i y z with
      | none => rfl
      | some d =>
        cases joinedFrom? axis (i + 1) b c with
        | none => simp
        | some e => exact joinedFrom?_cons axis i x d a e
    rw [hleft, hright, joinedDim?_assoc, hrest]

end Dims

/-- Joins two shapes along an axis, which is resolved against the rank of the first. -/
def joinShapes (axis : Int) (s t : Shape) : Option Shape :=
  if t.rank = s.rank then
    (axisIn s.rank axis).toOption.bind fun p => (joinDims p s.dims t.dims).map Shape.mk
  else none

/-- Joins two types. The element type is that of the first one that has one. -/
def joinTypes (axis : Int) (a b : TensorType) : Option TensorType :=
  a.shape?.bind fun s => b.shape?.bind fun t =>
    (joinShapes axis s t).map fun u => ⟨a.elem?.or b.elem?, some u⟩

/-- The shape is known, and it has the axis. -/
def hasAxis (axis : Int) (type : TensorType) : Bool :=
  type.shape?.any fun s => (axisIn s.rank axis).toOption.isSome

section Types

variable {axis : Int} {s t u : Shape} {a b c : TensorType}

lemma joinShapes_eq_some_iff :
    joinShapes axis s t = some u ↔
      t.rank = s.rank ∧ ∃ p, axisIn s.rank axis = .ok p ∧
        joinDims p s.dims t.dims = some u.dims := by
  unfold joinShapes
  rw [Option.ite_none_right_eq_some]
  simp only [Option.bind_eq_some_iff, toOption_eq_some_iff, Option.map_eq_some_iff]
  refine and_congr_right fun _ => exists_congr fun p => and_congr_right fun _ => ?_
  constructor
  · rintro ⟨dims, hdims, rfl⟩
    exact hdims
  · exact fun hdims => ⟨u.dims, hdims, rfl⟩

lemma rank_of_joinShapes (h : joinShapes axis s t = some u) : u.rank = s.rank := by
  obtain ⟨hrank, p, -, hdims⟩ := joinShapes_eq_some_iff.mp h
  exact length_of_joinedFrom? hrank.symm hdims

lemma joinShapes_assoc (axis : Int) (s t u : Shape) :
    (joinShapes axis s t).bind (fun v => joinShapes axis v u) =
      (joinShapes axis t u).bind (joinShapes axis s) := by
  ext w
  simp only [Option.bind_eq_some_iff]
  constructor
  · rintro ⟨v, hv, hw⟩
    have hvrank := rank_of_joinShapes hv
    obtain ⟨hst, p, hp, hdims⟩ := joinShapes_eq_some_iff.mp hv
    obtain ⟨hsu, q, hq, hall⟩ := joinShapes_eq_some_iff.mp hw
    rw [hvrank] at hsu hq
    obtain rfl : p = q := Except.ok.inj (hp.symm.trans hq)
    have hassoc : (joinDims p t.dims u.dims).bind (joinDims p s.dims) = some w.dims :=
      (joinedFrom?_assoc hst.symm (hst.trans hsu.symm)).symm.trans
        (Option.bind_eq_some_iff.mpr ⟨v.dims, hdims, hall⟩)
    obtain ⟨rest, hrest, hfirst⟩ := Option.bind_eq_some_iff.mp hassoc
    have htu : joinShapes axis t u = some ⟨rest⟩ :=
      joinShapes_eq_some_iff.mpr ⟨hsu.trans hst.symm, p, hst.symm ▸ hp, hrest⟩
    refine ⟨⟨rest⟩, htu, joinShapes_eq_some_iff.mpr ⟨?_, p, hp, hfirst⟩⟩
    exact (rank_of_joinShapes htu).trans hst
  · rintro ⟨v, hv, hw⟩
    have hvrank := rank_of_joinShapes hv
    obtain ⟨htu, p, hp, hdims⟩ := joinShapes_eq_some_iff.mp hv
    obtain ⟨hst, q, hq, hall⟩ := joinShapes_eq_some_iff.mp hw
    rw [hvrank] at hst
    rw [hst] at hp
    obtain rfl : p = q := Except.ok.inj (hp.symm.trans hq)
    have hassoc : (joinDims p s.dims t.dims).bind (fun d => joinDims p d u.dims) = some w.dims :=
      (joinedFrom?_assoc hst.symm htu.symm).trans
        (Option.bind_eq_some_iff.mpr ⟨v.dims, hdims, hall⟩)
    obtain ⟨front, hfront, hlast⟩ := Option.bind_eq_some_iff.mp hassoc
    have hst' : joinShapes axis s t = some ⟨front⟩ :=
      joinShapes_eq_some_iff.mpr ⟨hst, p, hp, hfront⟩
    have hfrank := rank_of_joinShapes hst'
    refine ⟨⟨front⟩, hst', joinShapes_eq_some_iff.mpr ⟨?_, p, ?_, hlast⟩⟩
    · rw [hfrank, htu, hst]
    · rw [hfrank, hp]

lemma joinTypes_eq_some_iff :
    joinTypes axis a b = some c ↔ ∃ s t u, a.shape? = some s ∧ b.shape? = some t ∧
      joinShapes axis s t = some u ∧ ⟨a.elem?.or b.elem?, some u⟩ = c := by
  simp only [joinTypes, Option.bind_eq_some_iff, Option.map_eq_some_iff]
  constructor
  · rintro ⟨s, hs, t, ht, u, hu, hc⟩
    exact ⟨s, t, u, hs, ht, hu, hc⟩
  · rintro ⟨s, t, u, hs, ht, hu, hc⟩
    exact ⟨s, hs, t, ht, u, hu, hc⟩

lemma joinTypes_assoc (axis : Int) (a b c : TensorType) :
    (joinTypes axis a b).bind (fun ab => joinTypes axis ab c) =
      (joinTypes axis b c).bind (joinTypes axis a) := by
  ext d
  simp only [Option.bind_eq_some_iff, joinTypes_eq_some_iff]
  constructor
  · rintro ⟨_, ⟨s, t, v, hs, ht, hv, rfl⟩, _, u, w, ⟨⟩, hu, hw, rfl⟩
    obtain ⟨r, hr, hrw⟩ := Option.bind_eq_some_iff.mp
      ((joinShapes_assoc axis s t u).symm.trans (Option.bind_eq_some_iff.mpr ⟨v, hv, hw⟩))
    exact ⟨_, ⟨t, u, r, ht, hu, hr, rfl⟩, s, r, w, hs, rfl, hrw, by rw [Option.or_assoc]⟩
  · rintro ⟨_, ⟨t, u, r, ht, hu, hr, rfl⟩, s, _, w, hs, ⟨⟩, hw, rfl⟩
    obtain ⟨v, hv, hvw⟩ := Option.bind_eq_some_iff.mp
      ((joinShapes_assoc axis s t u).trans (Option.bind_eq_some_iff.mpr ⟨r, hr, hw⟩))
    exact ⟨_, ⟨s, t, v, hs, ht, hv, rfl⟩, v, u, w, rfl, hu, hvw, by rw [Option.or_assoc]⟩

lemma hasAxis_iff :
    hasAxis axis a = true ↔ ∃ s p, a.shape? = some s ∧ axisIn s.rank axis = .ok p := by
  simp [hasAxis, Option.any_eq_true, Option.isSome_iff_exists, toOption_eq_some_iff]

lemma regroups_joinTypes (axis : Int) : Regroups (hasAxis axis) (joinTypes axis) where
  assoc := joinTypes_assoc axis
  fits_of_eq_some {a b c} h := by
    obtain ⟨s, t, u, hs, ht, hu, rfl⟩ := joinTypes_eq_some_iff.mp h
    have hurank := rank_of_joinShapes hu
    obtain ⟨htrank, p, hp, -⟩ := joinShapes_eq_some_iff.mp hu
    refine ⟨hasAxis_iff.mpr ⟨s, p, hs, hp⟩, hasAxis_iff.mpr ⟨t, p, ht, ?_⟩,
      hasAxis_iff.mpr ⟨u, p, rfl, ?_⟩⟩
    · rw [htrank, hp]
    · rw [hurank, hp]

end Types

end Rule

/-! ### What is given to a node -/

namespace Context

/-- The operands that are not left out. -/
def given (c : Context) : List Operand := c.operands.reduceOption

variable (c : Context)

lemma map_snd_present : c.present.map Prod.snd = c.given := by
  unfold present given List.reduceOption
  calc (c.operands.zipIdx.filterMap _).map Prod.snd
      = c.operands.zipIdx.filterMap (id ∘ Prod.fst) := by
        rw [List.map_filterMap]
        refine List.filterMap_congr fun p _ => ?_
        obtain ⟨o?, i⟩ := p
        cases o? <;> rfl
    _ = c.operands.filterMap id := by rw [← List.filterMap_map, List.zipIdx_map_fst]

lemma findSome?_elem_present :
    (c.present.findSome? fun (_, o) => o.type.elem?) =
      (c.given.map Operand.type).findSome? TensorType.elem? := by
  rw [← map_snd_present, List.findSome?_map, List.findSome?_map]
  rfl

lemma mapM_shapeAt_present :
    (c.present.mapM fun p => c.shapeAt p.1).toOption =
      (c.given.map Operand.type).mapM TensorType.shape? := by
  rw [toOption_mapM, ← map_snd_present, List.mapM_map, List.mapM_map]
  refine mapM_congr fun p hmem => ?_
  have ho := operand?_of_mem_present hmem
  obtain ⟨i, ⟨elem?, shape?⟩, constant?⟩ := p
  unfold shapeAt
  rw [ho]
  cases shape? <;> rfl

end Context

/-- The value of an operand, if it is a constant list of 64-bit integers. -/
def Operand.integers? (o : Operand) : Option (List Int64) :=
  o.constant?.bind fun t =>
    if t.extents.length = 1 ∧ t.elem? = some .int64 then t.ints? else none

namespace Rule

/-- The extents that some shapes are joined to, one after the other. -/
def joinedDims (axis : Int) : List Shape → Option (List Dim)
  | [] => none
  | first :: rest => (axisIn first.rank axis).toOption.bind fun p =>
      (rest.foldlM (joinNext p first) first.dims).toOption

section Answers

variable {axis : Int} {p : Nat} {first : Shape} {dims : List Dim}

/-- The shape that is put in front may be what others were joined to: only its rank counts. -/
lemma joinShapes_eq_joinNext (hp : axisIn first.rank axis = .ok p)
    (hdims : dims.length = first.rank) (next : Shape) :
    joinShapes axis ⟨dims⟩ next = (joinNext p first dims next).toOption.map Shape.mk := by
  have hrank : (⟨dims⟩ : Shape).rank = first.rank := hdims
  unfold joinShapes joinNext
  rw [hrank, hp]
  by_cases hnext : next.rank = first.rank
  · rw [if_pos hnext, if_neg (not_not_intro hnext)]
    change (joinDims p dims next.dims).map Shape.mk = _
    cases joinDims p dims next.dims <;> rfl
  · rw [if_neg hnext, if_pos hnext]
    rfl

lemma foldlM_joinTypes (hp : axisIn first.rank axis = .ok p) (hdims : dims.length = first.rank)
    (elem? : Option ElemType) (types : List TensorType) :
    types.foldlM (joinTypes axis) ⟨elem?, some ⟨dims⟩⟩ =
      (types.mapM TensorType.shape?).bind fun shapes =>
        (shapes.foldlM (joinNext p first) dims).toOption.map fun dims =>
          ⟨elem?.or (types.findSome? TensorType.elem?), some ⟨dims⟩⟩ := by
  induction types generalizing dims elem? with
  | nil =>
    rw [List.findSome?_nil, Option.or_none]
    rfl
  | cons type types ih =>
    rw [List.foldlM_cons, mapM_cons_eq]
    obtain ⟨e?, s?⟩ := type
    cases s? with
    | none => rfl
    | some s =>
      have hjoin := joinShapes_eq_joinNext hp hdims s
      have helem : elem?.or ((⟨e?, some s⟩ :: types).findSome? TensorType.elem?) =
          (elem?.or e?).or (types.findSome? TensorType.elem?) := by
        rw [Option.or_assoc]
        cases e? <;> rfl
      change ((joinShapes axis ⟨dims⟩ s).map fun u => (⟨elem?.or e?, some u⟩ : TensorType)).bind
        (types.foldlM (joinTypes axis)) =
          ((types.mapM TensorType.shape?).map (s :: ·)).bind _
      rw [helem]
      cases hnext : joinNext p first dims s with
      | error e =>
        rw [hjoin, hnext]
        cases types.mapM TensorType.shape? with
        | none => rfl
        | some shapes =>
          rw [Option.map_some, Option.bind_some, List.foldlM_cons, hnext]
          rfl
      | ok next =>
        rw [hnext] at hjoin
        have hlength : next.length = first.rank := (rank_of_joinShapes hjoin).trans hdims
        rw [hjoin]
        refine (ih hlength (elem?.or e?)).trans ?_
        cases types.mapM TensorType.shape? with
        | none => rfl
        | some shapes =>
          rw [Option.map_some, Option.bind_some, Option.bind_some, List.foldlM_cons, hnext]
          rfl

lemma combine?_joinTypes (axis : Int) (types : List TensorType) :
    combine? (hasAxis axis) (joinTypes axis) types =
      (types.mapM TensorType.shape?).bind fun shapes => (joinedDims axis shapes).map fun dims =>
        ⟨types.findSome? TensorType.elem?, some ⟨dims⟩⟩ := by
  cases types with
  | nil => rfl
  | cons type types =>
    obtain ⟨e?, s?⟩ := type
    rw [mapM_cons_eq]
    cases s? with
    | none => rfl
    | some first =>
      have helem : (⟨e?, some first⟩ :: types).findSome? TensorType.elem? =
          e?.or (types.findSome? TensorType.elem?) := by
        cases e? <;> rfl
      rw [helem, Option.bind_some]
      change (if (axisIn first.rank axis).toOption.isSome = true then
          types.foldlM (joinTypes axis) ⟨e?, some ⟨first.dims⟩⟩ else none) = _
      cases hp : axisIn first.rank axis with
      | error e =>
        cases types.mapM TensorType.shape? with
        | none => rfl
        | some shapes =>
          rw [Option.map_some, Option.bind_some, joinedDims, hp]
          rfl
      | ok p =>
        rw [foldlM_joinTypes hp rfl]
        cases types.mapM TensorType.shape? with
        | none => rfl
        | some shapes =>
          rw [Option.map_some, Option.bind_some, Option.bind_some, joinedDims, hp]
          rfl

end Answers

lemma concatInfer_toOption (c : Context) :
    (concatInfer c).toOption = (c.node.int? "axis").bind fun axis =>
      (combine? (hasAxis axis) (joinTypes axis) (c.given.map Operand.type)).map fun t => [t] := by
  unfold concatInfer
  rw [c.findSome?_elem_present]
  cases c.node.int? "axis" with
  | none => rfl
  | some axis =>
    have hshapes := c.mapM_shapeAt_present
    rw [Option.bind_some, combine?_joinTypes, ← hshapes]
    cases c.present.mapM fun (i, _) => c.shapeAt i with
    | error e => rfl
    | ok shapes =>
      cases shapes with
      | nil => rfl
      | cons first rest =>
        set elem? := (c.given.map Operand.type).findSome? TensorType.elem?
        change (axisIn first.rank axis >>= fun p => rest.foldlM (joinNext p first) first.dims >>=
            fun dims => .ok [(⟨elem?, some ⟨dims⟩⟩ : TensorType)]).toOption =
          (((axisIn first.rank axis).toOption.bind fun p =>
            (rest.foldlM (joinNext p first) first.dims).toOption).map _).map _
        cases axisIn first.rank axis with
        | error e => rfl
        | ok p =>
          change (rest.foldlM (joinNext p first) first.dims >>= _).toOption =
            ((rest.foldlM (joinNext p first) first.dims).toOption.map _).map _
          cases rest.foldlM (joinNext p first) first.dims <;> rfl

lemma concatFold_eq (c : Context) :
    concatFold c = (c.given.mapM Operand.integers?).map fun parts =>
      [some (.ofIntegers "" [parts.flatten.length] parts.flatten)] := by
  have hparts : (c.present.mapM fun (i, _) => integerList? c i) =
      c.given.mapM Operand.integers? := by
    rw [← Context.map_snd_present, List.mapM_map]
    refine mapM_congr fun p hmem => ?_
    have ho := Context.operand?_of_mem_present hmem
    obtain ⟨i, type, constant?⟩ := p
    unfold integerList? Context.int64sAt? Context.constantAt?
    dsimp only at ho ⊢
    rw [ho]
    cases constant? with
    | none => rfl
    | some t =>
      change (if t.extents.length = 1 then if t.elem? = some .int64 then t.ints? else none
        else none) = if t.extents.length = 1 ∧ t.elem? = some .int64 then t.ints? else none
      rw [ite_and]
  unfold concatFold
  rw [hparts, Option.map_eq_bind]
  rfl

/-- What is known about the first result of a rule; nothing about its type if the rule fails. -/
def resultOperand (r : Rule) (c : Context) : Operand where
  type := ((r.infer c).toOption.bind List.head?).getD .unknown
  constant? := ((r.fold c).bind List.head?).join

lemma type_concat_resultOperand {c : Context} {axis : Int}
    (haxis : c.node.int? "axis" = some axis) :
    (concat.resultOperand c).type =
      (combine? (hasAxis axis) (joinTypes axis) (c.given.map Operand.type)).getD .unknown := by
  unfold resultOperand
  change ((concatInfer c).toOption.bind List.head?).getD .unknown = _
  rw [concatInfer_toOption, haxis, Option.bind_some]
  cases combine? (hasAxis axis) (joinTypes axis) (c.given.map Operand.type) <;> rfl

lemma integers?_concat_resultOperand (c : Context) :
    (concat.resultOperand c).integers? = (c.given.mapM Operand.integers?).map List.flatten := by
  unfold resultOperand
  change Operand.integers? ⟨_, ((concatFold c).bind List.head?).join⟩ = _
  rw [concatFold_eq]
  cases c.given.mapM Operand.integers? <;> rfl

end Rule

namespace Context

/-- The operands of one node are joined by another one in groups: each group is joined to one
operand of the other node, along the same axis. No group is empty. -/
structure Regrouped (c outer : Context) (groups : List Context) : Prop where
  operands : c.operands = groups.flatMap Context.operands
  results : outer.operands = groups.map fun g => some (Rule.concat.resultOperand g)
  axis : ∀ g ∈ outer :: groups, g.node.int? "axis" = c.node.int? "axis"
  nonempty : ∀ g ∈ groups, g.present ≠ []

namespace Regrouped

variable {c outer : Context} {groups : List Context}

lemma given_eq (h : c.Regrouped outer groups) : c.given = groups.flatMap given := by
  unfold given List.reduceOption
  rw [h.operands, List.filterMap_flatMap]

lemma given_outer (h : c.Regrouped outer groups) :
    outer.given = groups.map Rule.concat.resultOperand := by
  unfold given List.reduceOption
  rw [h.results, List.filterMap_map]
  exact congrFun List.filterMap_eq_map groups

end Regrouped

end Context

namespace Rule

/-- Joining operands in groups, and the results of the groups then, fails exactly if joining all of
them at once fails. Otherwise it gives the same type. It gives a constant exactly if joining all of
them at once does, and the same one. -/
theorem concat_regroup {c outer : Context} {groups : List Context}
    (h : c.Regrouped outer groups) :
    (concat.infer outer).toOption = (concat.infer c).toOption ∧
      concat.fold outer = concat.fold c := by
  constructor
  · change (concatInfer outer).toOption = (concatInfer c).toOption
    rw [concatInfer_toOption, concatInfer_toOption, h.axis outer List.mem_cons_self]
    cases haxis : c.node.int? "axis" with
    | none => rfl
    | some axis =>
      have htypes : outer.given.map Operand.type =
          (groups.map fun g => g.given.map Operand.type).map fun types =>
            (combine? (hasAxis axis) (joinTypes axis) types).getD .unknown := by
        rw [h.given_outer, List.map_map, List.map_map]
        refine List.map_congr_left fun g hg => ?_
        exact type_concat_resultOperand ((h.axis g (List.mem_cons_of_mem outer hg)).trans haxis)
      have hnonempty : ∀ types ∈ groups.map fun g => g.given.map Operand.type, types ≠ [] := by
        rw [List.forall_mem_map]
        intro g hg hnil
        have hpresent := h.nonempty g hg
        rw [← Context.map_snd_present, List.map_map, List.map_eq_nil_iff] at hnil
        exact hpresent hnil
      have hall : c.given.map Operand.type =
          (groups.map fun g => g.given.map Operand.type).flatten := by
        rw [h.given_eq, List.map_flatMap]
        rfl
      rw [Option.bind_some, Option.bind_some, htypes, hall,
        (regroups_joinTypes axis).combine?_groups rfl hnonempty]
  · change concatFold outer = concatFold c
    have hparts : outer.given.mapM Operand.integers? =
        (groups.mapM fun g : Context => g.given.mapM Operand.integers?).map
          (List.map List.flatten) := by
      rw [h.given_outer, List.mapM_map, ← mapM_option_map]
      exact mapM_congr fun g _ => integers?_concat_resultOperand g
    rw [concatFold_eq, concatFold_eq, hparts, h.given_eq, mapM_flatMap, Option.map_map,
      Option.map_map]
    refine congrArg (Option.map · _) (funext fun parts => ?_)
    simp only [Function.comp_apply, List.flatten_flatten]

/-- Three lists in two groups, with an operand that is left out; the axis counts from the end. -/
theorem concat_regroup_of_lists :
    let list (values : List Int64) : Option Operand :=
      let t := Tensor.ofIntegers "" [values.length] values
      some ⟨t.type, some t⟩
    let attributes : Attributes := { entries := [("axis", .int (-1))] }
    let node : Node := { op := "Concat", inputs := [], outputs := ["y"], attributes }
    let c : Context := ⟨node, [list [1, 2], none, list [3], list [4]], 13⟩
    let groups : List Context := [⟨node, [list [1, 2], none], 13⟩, ⟨node, [list [3], list [4]], 13⟩]
    let outer : Context := ⟨node, groups.map fun g => some (concat.resultOperand g), 13⟩
    c.Regrouped outer groups ∧
      concat.infer outer = .ok [⟨some .int64, some (.ofExtents [4])⟩] ∧
      concat.fold outer = some [some (.ofIntegers "" [4] [1, 2, 3, 4])] := by
  intro list attributes node c groups outer
  have h : c.Regrouped outer groups := by
    refine ⟨rfl, rfl, ?axis, ?nonempty⟩
    case axis => simp [outer, groups, c]
    case nonempty =>
      rw [List.forall_mem_cons, List.forall_mem_singleton]
      exact ⟨List.cons_ne_nil _ _, List.cons_ne_nil _ _⟩
  have hinfer : concat.infer c = .ok [⟨some .int64, some (.ofExtents [4])⟩] := by rfl
  have hfold : concat.fold c = some [some (.ofIntegers "" [4] [1, 2, 3, 4])] := by rfl
  obtain ⟨htypes, hconstants⟩ := concat_regroup h
  rw [hinfer] at htypes
  exact ⟨h, toOption_eq_some_iff.mp htypes, hconstants.trans hfold⟩

end Rule

end TensorGraph
