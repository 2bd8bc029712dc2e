import Mathlib.Tactic.SplitIfs
import TensorGraph.Proofs.RelatedLists
import TensorGraph.Rule.Registry

/-!
# Revealed operands

A rule may see an operand of which only the type is known, and it may see the same operand when its
value is known as well. Most rules look at types only and say the same of both.
-/

namespace TensorGraph

/-- The type is the same, and the value is the same or has become known. -/
structure Operand.Reveals (o o' : Operand) : Prop where
  type : o'.type = o.type
  value : o'.constant? = o.constant? ∨
    o.constant? = none ∧ ∃ t, o'.constant? = some t ∧ t.type = o.type

lemma Operand.Reveals.refl (o : Operand) : o.Reveals o := ⟨rfl, .inl rfl⟩

namespace Context

/-- The same node with the same operands, the values of some of which have become known. -/
structure Reveals (c c' : Context) : Prop where
  node : c'.node = c.node
  opset : c'.opset = c.opset
  operands : List.Forall₂ (Option.Rel Operand.Reveals) c.operands c'.operands

namespace Reveals

variable {c c' : Context}

lemma operand? (h : c.Reveals c') (i : Nat) :
    Option.Rel Operand.Reveals (c.operand? i) (c'.operand? i) := by
  have hi := forall₂_getElem? h.operands i
  unfold Context.operand?
  cases hc : c.operands[i]? <;> cases hc' : c'.operands[i]? <;> simp_all

/-! ### What depends on types only -/

lemma has (h : c.Reveals c') (i : Nat) : c'.has i = c.has i := by
  unfold Context.has
  obtain ⟨hc, hc'⟩ | ⟨_, _, hc, hc', _⟩ := none_or_some_of_rel (h.operand? i)
  · rw [hc, hc']
  · rw [hc, hc', Option.isSome_some, Option.isSome_some]

lemma typeAt (h : c.Reveals c') (i : Nat) : c'.typeAt i = c.typeAt i := by
  unfold Context.typeAt
  obtain ⟨hc, hc'⟩ | ⟨o, o', hc, hc', ho⟩ := none_or_some_of_rel (h.operand? i)
  · rw [hc, hc']
  · rw [hc, hc']
    exact congrArg Except.ok ho.type

lemma shapeAt (h : c.Reveals c') (i : Nat) : c'.shapeAt i = c.shapeAt i := by
  unfold Context.shapeAt
  obtain ⟨hc, hc'⟩ | ⟨o, o', hc, hc', ho⟩ := none_or_some_of_rel (h.operand? i)
  · rw [hc, hc']
  · rw [hc, hc']
    dsimp only
    rw [ho.type]

lemma operandShape? (h : c.Reveals c') (i : Nat) :
    ((c'.operand? i).bind fun o => o.type.shape?) =
      (c.operand? i).bind fun o => o.type.shape? := by
  obtain ⟨hc, hc'⟩ | ⟨o, o', hc, hc', ho⟩ := none_or_some_of_rel (h.operand? i)
  · rw [hc, hc']
  · rw [hc, hc', Option.bind_some, Option.bind_some, ho.type]

lemma elemAt? (h : c.Reveals c') (i : Nat) : c'.elemAt? i = c.elemAt? i := by
  unfold Context.elemAt?
  obtain ⟨hc, hc'⟩ | ⟨o, o', hc, hc', ho⟩ := none_or_some_of_rel (h.operand? i)
  · rw [hc, hc']
  · rw [hc, hc', Option.bind_some, Option.bind_some, ho.type]

lemma withElem (h : c.Reveals c') (i : Nat) (s : Shape) : c'.withElem i s = c.withElem i s := by
  unfold Context.withElem
  rw [h.elemAt?]

lemma int (h : c.Reveals c') (name : String) (default : Int) :
    c'.int name default = c.int name default := by
  unfold Context.int
  rw [h.node]

/-- The positions and types of the operands that are not left out. -/
lemma present (h : c.Reveals c') :
    c'.present.map (fun (i, o) => (i, o.type)) = c.present.map fun (i, o) => (i, o.type) := by
  have hpresent :
      List.Forall₂ (fun p p' => p'.1 = p.1 ∧ p.2.Reveals p'.2) c.present c'.present := by
    unfold Context.present
    refine List.rel_filterMap ?_ (forall₂_zipIdx h.operands 0)
    rintro ⟨o?, i⟩ ⟨o?', _⟩ ⟨hrel, rfl⟩
    cases hrel with
    | none => simp
    | some ho => exact .some ⟨rfl, ho⟩
  generalize c.present = present at hpresent ⊢
  generalize c'.present = present' at hpresent ⊢
  induction hpresent with
  | nil => rfl
  | cons hp _ ih =>
    rw [List.map_cons, List.map_cons, ih]
    dsimp only
    rw [hp.1, hp.2.type]

lemma map_present {α : Type} (h : c.Reveals c') (f : Nat × TensorType → α) :
    c'.present.map (fun (i, o) => f (i, o.type)) = c.present.map fun (i, o) => f (i, o.type) := by
  have hmap := congrArg (List.map f) h.present
  rw [List.map_map, List.map_map] at hmap
  exact hmap

/-! ### Values that were known -/

lemma constantAt?_eq_some (h : c.Reveals c') {i : Nat} {t : Tensor}
    (ht : c.constantAt? i = some t) : c'.constantAt? i = some t := by
  unfold Context.constantAt? at ht ⊢
  obtain ⟨hc, hc'⟩ | ⟨o, o', hc, hc', ho⟩ := none_or_some_of_rel (h.operand? i)
  · rw [hc] at ht
    cases ht
  · rw [hc, Option.bind_some] at ht
    rw [hc', Option.bind_some]
    rcases ho.value with heq | ⟨hnone, _⟩
    · exact heq.trans ht
    · rw [hnone] at ht
      cases ht

lemma intsAt?_eq_some (h : c.Reveals c') {i : Nat} {vs : List Int} (hvs : c.intsAt? i = some vs) :
    c'.intsAt? i = some vs := by
  unfold Context.intsAt? at hvs ⊢
  obtain ⟨words, hwords, rfl⟩ := Option.map_eq_some_iff.mp hvs
  obtain ⟨t, ht, hints⟩ := Option.bind_eq_some_iff.mp hwords
  rw [h.constantAt?_eq_some ht, Option.bind_some, hints]
  rfl

lemma singlesAt?_eq_some (h : c.Reveals c') {i : Nat} {ws : List UInt32}
    (hws : c.singlesAt? i = some ws) : c'.singlesAt? i = some ws := by
  unfold Context.singlesAt? at hws ⊢
  obtain ⟨t, ht, hsingles⟩ := Option.bind_eq_some_iff.mp hws
  rw [h.constantAt?_eq_some ht, Option.bind_some, hsingles]

/-- A list of integers that was there is still there. Only if an operand was not constant it may
have become so. -/
lemma intsOperand_eq_ok (h : c.Reveals c') {name : String} {input : Nat} {since : Int}
    {vs? : Option (List Int)} (hvs : c.intsOperand name input since = .ok vs?) :
    c'.intsOperand name input since = .ok vs? := by
  unfold Context.intsOperand at hvs ⊢
  rw [h.opset, h.has, h.node]
  split_ifs at hvs ⊢
  · cases hints : c.intsAt? input with
    | none =>
      rw [hints] at hvs
      cases hvs
    | some vs =>
      rw [hints] at hvs
      rw [h.intsAt?_eq_some hints]
      exact hvs
  · exact hvs
  · exact hvs

end Reveals

end Context

/-! ### Rules that look at types only -/

/-- What a rule says does not change when the value of an operand becomes known. -/
def LooksAtTypes (infer : Context → Typing) : Prop := ∀ c c', c.Reveals c' → infer c' = infer c

namespace Rule

variable {c c' : Context}

lemma broadcastShape_of_reveals (h : c.Reveals c') (inputs : List Nat) :
    broadcastShape c' inputs = broadcastShape c inputs := by
  have hshapes : c'.shapeAt = c.shapeAt := funext h.shapeAt
  unfold broadcastShape
  rw [hshapes]

lemma firstElem?_of_reveals (h : c.Reveals c') (inputs : List Nat) :
    firstElem? c' inputs = firstElem? c inputs := by
  have helems : c'.elemAt? = c.elemAt? := funext h.elemAt?
  unfold firstElem?
  rw [helems]

lemma sameType_looksAtTypes : LooksAtTypes sameType := fun c c' h => by
  unfold sameType
  rw [h.typeAt]

lemma broadcast_looksAtTypes : LooksAtTypes broadcast := fun c c' h => by
  have hinputs : c'.present.map Prod.fst = c.present.map Prod.fst := h.map_present Prod.fst
  unfold broadcast
  simp only [hinputs, h.elemAt?, firstElem?_of_reveals h, broadcastShape_of_reveals h]

lemma comparison_looksAtTypes : LooksAtTypes comparison := fun c c' h => by
  unfold comparison
  rw [broadcastShape_of_reveals h]

lemma predicate_looksAtTypes : LooksAtTypes predicate := fun c c' h => by
  unfold predicate
  rw [h.shapeAt]

lemma select_looksAtTypes : LooksAtTypes select := fun c c' h => by
  unfold select
  rw [broadcastShape_of_reveals h, firstElem?_of_reveals h]

lemma cast_looksAtTypes : LooksAtTypes cast := fun c c' h => by
  unfold cast
  rw [h.node, h.typeAt]

lemma castLike_looksAtTypes : LooksAtTypes castLike := fun c c' h => by
  unfold castLike
  rw [h.elemAt?, h.typeAt]

lemma dropout_looksAtTypes : LooksAtTypes dropout := fun c c' h => by
  unfold dropout
  rw [h.typeAt]

lemma quantize_looksAtTypes : LooksAtTypes quantize := fun c c' h => by
  unfold quantize
  rw [h.typeAt, h.elemAt?, h.has, h.int]

lemma dequantize_looksAtTypes : LooksAtTypes dequantize := fun c c' h => by
  unfold dequantize
  rw [h.typeAt, h.elemAt?, h.opset]

lemma flatten_looksAtTypes : LooksAtTypes flatten := fun c c' h => by
  unfold flatten
  simp only [h.shapeAt, h.int, h.withElem]

lemma transpose_looksAtTypes : LooksAtTypes transpose := fun c c' h => by
  unfold transpose permutation
  simp only [h.shapeAt, h.node, h.withElem]

lemma concatInfer_looksAtTypes : LooksAtTypes concatInfer := fun c c' h => by
  have hshapes : (c'.present.mapM fun (i, _) => c'.shapeAt i) =
      c.present.mapM fun (i, _) => c.shapeAt i := by
    have hpositions := congrArg (List.mapM c.shapeAt) (h.map_present Prod.fst)
    rw [List.mapM_map, List.mapM_map] at hpositions
    simp only [h.shapeAt]
    exact hpositions
  have helem : (c'.present.findSome? fun (_, o) => o.type.elem?) =
      c.present.findSome? fun (_, o) => o.type.elem? := by
    have htypes := congrArg (List.findSome? TensorType.elem?) (h.map_present Prod.snd)
    rw [List.findSome?_map, List.findSome?_map] at htypes
    exact htypes
  unfold concatInfer
  rw [h.node, hshapes, helem]

lemma gatherInfer_looksAtTypes : LooksAtTypes gatherInfer := fun c c' h => by
  unfold gatherInfer
  simp only [h.shapeAt, h.int, h.withElem]

lemma shapeInfer_looksAtTypes : LooksAtTypes shapeInfer := fun c c' h => by
  unfold shapeInfer shapeRange
  simp only [h.shapeAt, h.int]

lemma constant_looksAtTypes : LooksAtTypes constant.infer := fun c c' h => by
  unfold constant
  dsimp only
  rw [h.node]

lemma argReduce_looksAtTypes : LooksAtTypes argReduce := fun c c' h => by
  unfold argReduce
  simp only [h.shapeAt, h.int]

lemma matmul_looksAtTypes : LooksAtTypes matmul := fun c c' h => by
  unfold matmul
  simp only [h.shapeAt, h.elemAt?]

lemma gemm_looksAtTypes : LooksAtTypes gemm := fun c c' h => by
  unfold gemm
  simp only [h.shapeAt, h.int, h.withElem]

lemma imageAndWeights_eq (h : c.Reveals c') : imageAndWeights c' = imageAndWeights c := by
  unfold imageAndWeights
  simp only [h.shapeAt]

lemma conv_looksAtTypes : LooksAtTypes conv := fun c c' h => by
  unfold conv
  simp only [imageAndWeights_eq h, h.node, h.withElem]

lemma convTranspose_looksAtTypes : LooksAtTypes convTranspose := fun c c' h => by
  unfold convTranspose transposedDims transposedChannels
  simp only [imageAndWeights_eq h, h.node, h.int, h.withElem]

lemma pool_looksAtTypes : LooksAtTypes pool := fun c c' h => by
  unfold pool
  simp only [h.shapeAt, h.node, h.int, h.withElem]

lemma globalPool_looksAtTypes : LooksAtTypes globalPool := fun c c' h => by
  unfold globalPool
  simp only [h.shapeAt, h.withElem]

end Rule

end TensorGraph
