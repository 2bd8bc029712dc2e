import Mathlib.Algebra.BigOperators.Group.List.Basic
import TensorGraph.Proofs.Operators.FoldedValues
import TensorGraph.Proofs.Operators.Transposing
import TensorGraph.Proofs.Operators.Unsqueezing
import TensorGraph.Proofs.Symbolic.Layout

/-!
# Numbers of elements

The operators that rearrange extents keep the number of elements: where all extents of the data and
of the result are numbers, both have the same product. A reshape does so if its target leaves an
extent open, which is then found by division. A target that names all extents is taken as it is.
-/

namespace TensorGraph

/-! ### Products of extents -/

lemma prod_of_foldlM {extents : List Nat} {m n : Nat}
    (h : extents.foldlM (fun acc k => if acc * k < wordLimit then some (acc * k) else none) m =
      some n) : m * extents.prod = n := by
  induction extents generalizing m with
  | nil => simpa using h
  | cons k extents ih =>
    rw [List.foldlM_cons] at h
    obtain ⟨acc, hacc, h⟩ := Option.bind_eq_some_iff.mp h
    split_ifs at hacc
    obtain rfl := Option.some.inj hacc
    rw [List.prod_cons, ← Nat.mul_assoc]
    exact ih h

lemma prod_of_checkedProduct {extents : List Nat} {n : Nat} (h : checkedProduct extents = some n) :
    extents.prod = n := by
  rw [← prod_of_foldlM h, Nat.one_mul]

lemma exists_of_productDim {dims : List Dim} {n : Nat} (h : productDim dims = .known n) :
    ∃ extents : List Nat, dims = extents.map Dim.known ∧ extents.prod = n := by
  unfold productDim at h
  cases hproduct : (dims.mapM Dim.extent?).bind checkedProduct with
  | none => simp [hproduct] at h
  | some m =>
    obtain rfl : m = n := by simpa [hproduct] using h
    obtain ⟨extents, hextents, hm⟩ := Option.bind_eq_some_iff.mp hproduct
    have hdims : Shape.mk dims = .ofExtents extents := Rule.extents?_eq_some_iff.mp hextents
    exact ⟨extents, congrArg Shape.dims hdims, prod_of_checkedProduct hm⟩

lemma ofExtents_injective {xs ys : List Nat} (h : xs.map Dim.known = ys.map Dim.known) : xs = ys :=
  List.map_injective_iff.mpr (fun _ _ => Dim.known.inj) h

lemma prod_of_numElements? {extents : List Nat} {n : Nat}
    (h : (Shape.ofExtents extents).numElements? = some n) : extents.prod = n := by
  obtain ⟨known, hknown, hn⟩ := Option.bind_eq_some_iff.mp h
  have hdims := congrArg Shape.dims (Rule.extents?_eq_some_iff.mp hknown)
  rw [ofExtents_injective hdims]
  exact prod_of_checkedProduct hn

/-- Extents that are left out do not count if they are ones. -/
lemma prod_of_others {xs ys positions : List Nat} {k : Nat}
    (hones : ∀ i n, xs[i]? = some n → k + i ∈ positions → n = 1)
    (hothers : (((xs.map Dim.known).zipIdx k).filter fun (_, i) => i ∉ positions).map Prod.fst =
      ys.map Dim.known) : ys.prod = xs.prod := by
  induction xs generalizing k ys with
  | nil =>
    obtain rfl := List.map_eq_nil_iff.mp hothers.symm
    rfl
  | cons n xs ih =>
    have hrest : ∀ i m, xs[i]? = some m → k + 1 + i ∈ positions → m = 1 := by
      intro i m hm hmem
      apply hones (i + 1) m hm
      rwa [Nat.add_comm i, ← Nat.add_assoc]
    rw [List.map_cons, List.zipIdx_cons] at hothers
    by_cases hk : k ∈ positions
    · rw [List.filter_cons_of_neg (by simpa using hk)] at hothers
      obtain rfl := hones 0 n rfl hk
      rw [List.prod_cons, Nat.one_mul]
      exact ih hrest hothers
    · rw [List.filter_cons_of_pos (by simpa using hk), List.map_cons] at hothers
      cases ys with
      | nil => simp at hothers
      | cons m ys =>
        obtain ⟨hhead, htail⟩ := List.cons.inj hothers
        obtain rfl := Dim.known.inj hhead
        rw [List.prod_cons, List.prod_cons, ih hrest htail]

namespace Rule

variable {c : Context} {xs ys : List Nat} {elem? : Option ElemType} {s : Shape}
  {types : List TensorType} {t : TensorType}

/-- The node has as many elements in its result as in its data, where all extents are numbers. -/
def KeepsCount (infer : Context → Typing) (c : Context) : Prop :=
  ∀ elem? xs types, c.typeAt 0 = .ok ⟨elem?, some (.ofExtents xs)⟩ → infer c = .ok types →
    ∀ t ∈ types, ∀ ys, t.shape? = some (.ofExtents ys) → ys.prod = xs.prod

lemma dims_of_mem_single {dims : List Dim} (ht : t ∈ [TensorType.mk elem? (some ⟨dims⟩)])
    (hys : t.shape? = some (.ofExtents ys)) : dims = ys.map Dim.known := by
  obtain rfl := List.mem_singleton.mp ht
  exact congrArg Shape.dims (Option.some.inj hys)

/-! ### Operators without a target -/

lemma exists_of_flatten (hdata : c.typeAt 0 = .ok ⟨elem?, some s⟩) (h : flatten c = .ok types) :
    ∃ k, types =
      [⟨elem?, some ⟨[productDim (s.dims.take k), productDim (s.dims.drop k)]⟩⟩] := by
  unfold flatten at h
  rw [Context.shapeAt_of_typeAt hdata] at h
  simp only [Context.withElem_of_typeAt hdata] at h
  obtain ⟨_, hs, h⟩ := bind_eq_ok_iff.mp h
  obtain rfl := Except.ok.inj hs
  generalize (if c.int "axis" 1 < 0 then c.int "axis" 1 + s.rank else c.int "axis" 1) = position
    at h
  by_cases hrange : position < 0 ∨ s.rank < position
  · simp [hrange, bind, Except.bind] at h
  · rw [if_neg hrange] at h
    exact ⟨position.toNat, (Except.ok.inj h).symm⟩

lemma flatten_keepsCount (c : Context) : KeepsCount flatten c := by
  intro elem? xs types hdata htypes t ht ys hys
  obtain ⟨k, rfl⟩ := exists_of_flatten hdata htypes
  have hdims := dims_of_mem_single ht hys
  have hlength : ys.length = 2 := by simpa using (congrArg List.length hdims).symm
  obtain ⟨m, n, rfl⟩ := List.length_eq_two.mp hlength
  obtain ⟨hm, hn⟩ : _ ∧ _ := by simpa using hdims
  obtain ⟨outer, houter, rfl⟩ := exists_of_productDim hm
  obtain ⟨inner, hinner, rfl⟩ := exists_of_productDim hn
  rw [Shape.ofExtents, ← List.map_take] at houter
  rw [Shape.ofExtents, ← List.map_drop] at hinner
  rw [← ofExtents_injective houter, ← ofExtents_injective hinner]
  simp

lemma exists_of_squeeze (hdata : c.typeAt 0 = .ok ⟨elem?, some s⟩) (h : squeeze c = .ok types) :
    ∃ positions : List Nat, (∀ p ∈ positions, checkDroppable s p = .ok ()) ∧
      types = [⟨elem?, some ⟨dropPositions s.dims positions⟩⟩] := by
  unfold squeeze at h
  rw [Context.shapeAt_of_typeAt hdata] at h
  simp only [Context.withElem_of_typeAt hdata] at h
  obtain ⟨_, hs, h⟩ := bind_eq_ok_iff.mp h
  obtain rfl := Except.ok.inj hs
  obtain ⟨positions, _, h⟩ := bind_eq_ok_iff.mp h
  obtain ⟨hdroppable, h⟩ := andThen_eq_ok_iff.mp h
  exact ⟨positions, forM_eq_ok_iff.mp hdroppable, (Except.ok.inj h).symm⟩

lemma squeeze_keepsCount (c : Context) : KeepsCount squeeze c := by
  intro elem? xs types hdata htypes t ht ys hys
  obtain ⟨positions, hdroppable, rfl⟩ := exists_of_squeeze hdata htypes
  have hdims := dims_of_mem_single ht hys
  rw [dropPositions_eq_map_filter] at hdims
  refine prod_of_others (fun i n hn hmem => ?_) hdims
  rw [Nat.zero_add] at hmem
  have hchecked := hdroppable i hmem
  unfold checkDroppable Shape.ofExtents at hchecked
  rw [List.getElem?_map, hn] at hchecked
  by_contra hne
  simp [hne] at hchecked

lemma unsqueeze_keepsCount (c : Context) : KeepsCount unsqueeze c := by
  intro elem? xs types hdata htypes t ht ys hys
  have hshape := Context.shapeAt_of_typeAt hdata
  obtain ⟨axes, haxes⟩ :
      ∃ axes, c.intsOperand "axes" 1 axesOperandVersion = .ok (some axes) := by
    unfold unsqueeze at htypes
    obtain ⟨_, _, h⟩ := bind_eq_ok_iff.mp htypes
    obtain ⟨axes?, haxes, h⟩ := bind_eq_ok_iff.mp h
    cases axes? with
    | none => simp at h
    | some axes => exact ⟨axes, haxes⟩
  obtain ⟨⟨dims⟩, positions, _, _, hinserted, rfl⟩ := exists_of_unsqueeze hdata haxes htypes
  obtain rfl := dims_of_mem_single ht hys
  refine (prod_of_others (fun i n hn hmem => ?_) hinserted.others).symm
  rw [Nat.zero_add] at hmem
  simpa [hn] using hinserted.ones i hmem

lemma transpose_keepsCount (c : Context) : KeepsCount transpose c := by
  intro elem? xs types hdata htypes t ht ys hys
  obtain ⟨positions, hpositions, _, rfl⟩ := (transpose_eq_ok_iff hdata).mp htypes
  have hperm := entriesAt_perm hpositions
  rw [dims_of_mem_single ht hys] at hperm
  exact ((List.map_perm_map_iff fun _ _ => Dim.known.inj).mp hperm).prod_eq

/-! ### Targets that leave an extent open -/

lemma prod_of_closeReshape {target : List Int} {dims : List Dim} {position : Nat}
    (hposition : target.idxOf? (-1) = some position) (hdims : dims[position]? = some .unknown)
    (h : closeReshape (some (.ofExtents xs)) target dims = .ok (ys.map Dim.known)) :
    ys.prod = xs.prod := by
  have hnotKnown : dims ≠ ys.map Dim.known := by
    rintro rfl
    simp at hdims
  unfold closeReshape at h
  rw [hposition] at h
  dsimp only at h
  split at h
  · rename_i total rest htotal hrest
    split_ifs at h with hunfit
    have hset : dims.set position (.known (total / rest)) = ys.map Dim.known := Except.ok.inj h
    obtain ⟨zs, hzs, rfl⟩ := exists_of_productDim hrest
    have hinRange : position < dims.length := (List.getElem?_eq_some_iff.mp hdims).1
    have hlt : position < ys.length := by
      have hlength := congrArg List.length hset
      rw [List.length_set, List.length_map] at hlength
      rwa [← hlength]
    have hothers : ys.eraseIdx position = zs := by
      apply ofExtents_injective
      rw [← List.eraseIdx_map, ← hset, List.eraseIdx_set_eq, hzs]
    have hfound : ys[position] = total / zs.prod := by
      have hentry := congrArg (fun l => l[position]?) hset
      simpa [hlt, hinRange, eq_comm] using hentry
    have htotal : xs.prod = total := prod_of_numElements? htotal
    have hdivides : total % zs.prod = 0 := by
      by_contra hne
      exact hunfit (Or.inr hne)
    calc ys.prod = ys[position] * (ys.eraseIdx position).prod :=
          (List.CommMonoid.mul_prod_eraseIdx hlt).symm
      _ = total / zs.prod * zs.prod := by rw [hfound, hothers]
      _ = total := Nat.div_mul_cancel (Nat.dvd_of_mod_eq_zero hdivides)
      _ = xs.prod := htotal.symm
  · exact absurd (Except.ok.inj h) hnotKnown

/-- The target of a reshape leaves an extent open. One that is not constant does so unless it is
known to have no entries. -/
def LeavesOpen (c : Context) : Prop :=
  match reshapeTarget? c with
  | some target => -1 ∈ target
  | none => (c.operand? 1).bind (fun o => o.type.shape?) ≠ some (.ofExtents [0])

lemma exists_of_reshape {type : TensorType} {target : List Int} (hdata : c.typeAt 0 = .ok type)
    (htarget : reshapeTarget? c = some target) (h : reshape c = .ok types) :
    ∃ dims, reshapeDims (c.int "allowzero" 0 == 0) type.shape? target = .ok dims ∧
      types = [c.withElem 0 ⟨dims⟩] := by
  unfold reshape at h
  rw [hdata, htarget] at h
  obtain ⟨_, htype, h⟩ := bind_eq_ok_iff.mp h
  obtain rfl := Except.ok.inj htype
  obtain ⟨dims, hdims, h⟩ := bind_eq_ok_iff.mp h
  exact ⟨dims, hdims, (Except.ok.inj h).symm⟩

/-- Without a constant target only the rank of the result is known. -/
lemma exists_of_reshape_of_none (htarget : reshapeTarget? c = none) (h : reshape c = .ok types) :
    ∃ rank, (c.operand? 1).bind (fun o => o.type.shape?) = some (.ofExtents [rank]) ∧
      types = [c.withElem 0 (.ofRank rank)] := by
  unfold reshape at h
  rw [htarget] at h
  obtain ⟨_, _, h⟩ := bind_eq_ok_iff.mp h
  dsimp only at h
  split at h
  · rename_i rank hrank
    obtain ⟨⟨dims⟩, hshape, hdims⟩ := Option.map_eq_some_iff.mp hrank
    obtain rfl : dims = [.known rank] := hdims
    obtain ⟨s, hs, h⟩ := bind_eq_ok_iff.mp h
    obtain rfl := declaredShape_eq_ok hs
    exact ⟨rank, hshape, (Except.ok.inj h).symm⟩
  · cases h

lemma reshape_keepsCount (hopen : LeavesOpen c) : KeepsCount reshape c := by
  intro elem? xs types hdata htypes t ht ys hys
  unfold LeavesOpen at hopen
  cases htarget : reshapeTarget? c with
  | some target =>
    rw [htarget] at hopen
    obtain ⟨dims, hdims, rfl⟩ := exists_of_reshape hdata htarget htypes
    obtain rfl := dims_of_mem_single ht hys
    obtain ⟨entries, hentries, hclose⟩ := bind_eq_ok_iff.mp hdims
    obtain ⟨position, hposition⟩ := Option.isSome_iff_exists.mp (List.isSome_idxOf?.mpr hopen)
    exact prod_of_closeReshape hposition (unknown_of_open hentries hposition) hclose
  | none =>
    rw [htarget] at hopen
    obtain ⟨rank, hrank, rfl⟩ := exists_of_reshape_of_none htarget htypes
    have hdims := dims_of_mem_single ht hys
    cases rank with
    | zero => exact absurd hrank hopen
    | succ rank => cases ys <;> simp [List.replicate_succ] at hdims

end Rule

namespace Registry

open Rule

/-- The operators that rearrange the extents of their data. -/
def rearrangingOps : List String := ["Reshape", "Flatten", "Squeeze", "Unsqueeze", "Transpose"]

lemma rearrangingOps_keepCount {op : String} {c : Context} (hop : op ∈ rearrangingOps)
    (hopen : op = "Reshape" → LeavesOpen c) :
    ∃ rule, builtin.rule? op = some rule ∧ KeepsCount rule.infer c := by
  simp only [rearrangingOps, List.mem_cons, List.not_mem_nil, or_false] at hop
  rcases hop with rfl | rfl | rfl | rfl | rfl
  · exact ⟨relayout reshape, rfl, reshape_keepsCount (hopen rfl)⟩
  · exact ⟨relayout flatten, rfl, flatten_keepsCount c⟩
  · exact ⟨relayout squeeze, rfl, squeeze_keepsCount c⟩
  · exact ⟨relayout unsqueeze, rfl, unsqueeze_keepsCount c⟩
  · exact ⟨{ infer := transpose }, rfl, transpose_keepsCount c⟩

/-- An operator that rearranges extents keeps the number of elements, where all extents are numbers,
unless it is a reshape with a target that names every extent. -/
theorem builtin_keeps_element_count {op : String} {rule : Rule} {c : Context}
    {elem? : Option ElemType} {xs ys : List Nat} {types : List TensorType} {t : TensorType}
    (hop : op ∈ rearrangingOps) (hopen : op = "Reshape" → LeavesOpen c)
    (hrule : builtin.rule? op = some rule) (hdata : c.typeAt 0 = .ok ⟨elem?, some (.ofExtents xs)⟩)
    (htypes : rule.infer c = .ok types) (ht : t ∈ types)
    (hys : t.shape? = some (.ofExtents ys)) : ys.prod = xs.prod := by
  obtain ⟨rule', hrule', hkeeps⟩ := rearrangingOps_keepCount hop hopen
  obtain rfl := Option.some.inj (hrule.symm.trans hrule')
  exact hkeeps elem? xs types hdata htypes t ht ys hys

/-- A reshape of floats, the target of which is constant. -/
def reshapeOf (xs : List Nat) (target : List Int64) : Context where
  node := { op := "Reshape", inputs := ["x", "shape"], outputs := ["y"] }
  operands :=
    let t := Tensor.ofIntegers "shape" [target.length] target
    [some { type := .of .float (.ofExtents xs) }, some ⟨t.type, some t⟩]
  opset := 13

/-- A copied extent and one that is found. -/
theorem builtin_keeps_element_count_of_matrix :
    "Reshape" ∈ rearrangingOps ∧ LeavesOpen (reshapeOf [2, 3, 4] [0, -1]) ∧
      (reshapeOf [2, 3, 4] [0, -1]).typeAt 0 = .ok (.of .float (.ofExtents [2, 3, 4])) ∧
      reshape (reshapeOf [2, 3, 4] [0, -1]) = .ok [.of .float (.ofExtents [2, 12])] ∧
      [2, 12].prod = [2, 3, 4].prod := by
  have hop : "Reshape" ∈ rearrangingOps := by simp [rearrangingOps]
  have htarget : reshapeTarget? (reshapeOf [2, 3, 4] [0, -1]) = some [0, -1] := by rfl
  have hopen : LeavesOpen (reshapeOf [2, 3, 4] [0, -1]) := by
    unfold LeavesOpen
    rw [htarget]
    decide
  have hdata : (reshapeOf [2, 3, 4] [0, -1]).typeAt 0 =
      .ok (.of .float (.ofExtents [2, 3, 4])) := by rfl
  have htypes : reshape (reshapeOf [2, 3, 4] [0, -1]) =
      .ok [.of .float (.ofExtents [2, 12])] := by rfl
  have hrule : builtin.rule? "Reshape" = some (relayout reshape) := by rfl
  exact ⟨hop, hopen, hdata, htypes, builtin_keeps_element_count hop (fun _ => hopen) hrule hdata
    htypes List.mem_cons_self rfl⟩

/-- Six elements are taken for five. -/
theorem builtin_changes_element_count :
    builtin.rule? "Reshape" = some (relayout reshape) ∧
      (reshapeOf [2, 3] [5]).typeAt 0 = .ok (.of .float (.ofExtents [2, 3])) ∧
      (relayout reshape).infer (reshapeOf [2, 3] [5]) = .ok [.of .float (.ofExtents [5])] ∧
      [5].prod ≠ [2, 3].prod :=
  ⟨by rfl, by rfl, by rfl, by decide⟩

end Registry

end TensorGraph
