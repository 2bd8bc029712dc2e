import TensorGraph.Proofs.Symbolic.Instance

/-!
# Sound rules

An instance of a context has the same node, the same version and the same constants, and types that
are instances of the types. A rule is sound if what it says of a context agrees with what it says of
every instance of the context.
-/

namespace TensorGraph

namespace TensorType

/-- The same elements, and a shape as the first type says, if that says anything. -/
def Describes (σ : Valuation) (t t' : TensorType) : Prop :=
  t'.elem? = t.elem? ∧ ∀ s, t.shape? = some s → ∃ s', t'.shape? = some s' ∧ s.Describes σ s'

/-- The same elements, and an instance of the shape; none if there is no shape. -/
def Instantiates (σ : Valuation) (t t' : TensorType) : Prop :=
  t'.elem? = t.elem? ∧ Option.Rel (Shape.Instantiates σ) t.shape? t'.shape?

variable {σ : Valuation} {t t' : TensorType}

lemma Instantiates.describes (h : t.Instantiates σ t') : t.Describes σ t' := by
  refine ⟨h.1, fun s hs => ?_⟩
  have hrel := h.2
  rw [hs] at hrel
  cases hshape : t'.shape? with
  | none => simp [hshape] at hrel
  | some s' =>
    rw [hshape, Option.rel_some_some] at hrel
    exact ⟨s', rfl, hrel.describes⟩

@[simp] lemma describes_mk_some {elem? elem?' : Option ElemType} {s s' : Shape} :
    (mk elem? (some s)).Describes σ (mk elem?' (some s')) ↔
      elem?' = elem? ∧ s.Describes σ s' := by
  simp [Describes]

@[simp] lemma describes_of {elem : ElemType} {s s' : Shape} :
    (of elem s).Describes σ (of elem s') ↔ s.Describes σ s' := by
  simp [of]

lemma Describes.withElem (h : t.Describes σ t') (elem? : Option ElemType) :
    (mk elem? t.shape?).Describes σ (mk elem? t'.shape?) := ⟨rfl, h.2⟩

end TensorType

/-- An instance of the type, and the same constant. -/
def Operand.Instantiates (σ : Valuation) (o o' : Operand) : Prop :=
  o.type.Instantiates σ o'.type ∧ o'.constant? = o.constant?

namespace Context

/-- The same node and version, and instances of the same operands. -/
structure Instantiates (σ : Valuation) (c c' : Context) : Prop where
  node : c'.node = c.node
  opset : c'.opset = c.opset
  operands : List.Forall₂ (Option.Rel (Operand.Instantiates σ)) c.operands c'.operands

end Context

/-- What a rule says of a context agrees with what it says of any instance of the context. -/
def SoundRule (infer : Context → Typing) : Prop :=
  ∀ σ c c', c.Instantiates σ c' →
    RunsAgree (List.Forall₂ (TensorType.Describes σ)) (infer c) (infer c')

lemma runsAgree_single {σ : Valuation} {t t' : TensorType} (h : t.Describes σ t') :
    RunsAgree (List.Forall₂ (TensorType.Describes σ)) (.ok [t]) (.ok [t']) := .cons h .nil

lemma extentsOf_agrees (σ : Valuation) (name : String) (extents : List Int) :
    RunsAgree (List.Forall₂ (Dim.Instantiates σ)) (extents.mapM (extentOf name))
      (extents.mapM (extentOf name)) := by
  have hextents : List.Forall₂ Eq extents extents := List.forall₂_same.mpr fun _ _ => rfl
  refine Agrees.mapM hextents fun v _ hv => hv ▸ ?_
  unfold extentOf
  split_ifs
  · trivial
  · exact Dim.instantiates_known.mpr rfl

namespace Context.Instantiates

variable {σ : Valuation} {c c' : Context}

lemma operand? (h : c.Instantiates σ c') (i : Nat) :
    Option.Rel (Operand.Instantiates σ) (c.operand? i) (c'.operand? i) := by
  have hi := forall₂_getElem? h.operands i
  unfold Context.operand?
  cases hc : c.operands[i]? <;> cases hc' : c'.operands[i]? <;> simp_all

lemma has (h : c.Instantiates σ c') (i : Nat) : c'.has i = c.has i := by
  unfold Context.has
  obtain ⟨hc, hc'⟩ | ⟨_, _, hc, hc', _⟩ := none_or_some_of_rel (h.operand? i)
  · rw [hc, hc']
  · rw [hc, hc', Option.isSome_some, Option.isSome_some]

lemma elemAt? (h : c.Instantiates σ c') (i : Nat) : c'.elemAt? i = c.elemAt? i := by
  unfold Context.elemAt?
  obtain ⟨hc, hc'⟩ | ⟨o, o', hc, hc', ho⟩ := none_or_some_of_rel (h.operand? i)
  · rw [hc, hc', Option.bind_none]
  · rw [hc, hc', Option.bind_some, Option.bind_some, ho.1.1]

lemma constantAt? (h : c.Instantiates σ c') (i : Nat) : c'.constantAt? i = c.constantAt? i := by
  unfold Context.constantAt?
  obtain ⟨hc, hc'⟩ | ⟨o, o', hc, hc', ho⟩ := none_or_some_of_rel (h.operand? i)
  · rw [hc, hc', Option.bind_none]
  · rw [hc, hc', Option.bind_some, Option.bind_some, ho.2]

lemma intsAt? (h : c.Instantiates σ c') (i : Nat) : c'.intsAt? i = c.intsAt? i := by
  unfold Context.intsAt?
  rw [h.constantAt?]

lemma int (h : c.Instantiates σ c') (name : String) (default : Int) :
    c'.int name default = c.int name default := by
  unfold Context.int
  rw [h.node]

lemma intsOperand (h : c.Instantiates σ c') (name : String) (input : Nat) (since : Int) :
    c'.intsOperand name input since = c.intsOperand name input since := by
  unfold Context.intsOperand
  rw [h.node, h.opset, h.has, h.intsAt?]

lemma present (h : c.Instantiates σ c') :
    List.Forall₂ (fun p p' => p'.1 = p.1 ∧ p.2.Instantiates σ p'.2) c.present c'.present := by
  unfold Context.present
  refine List.rel_filterMap ?_ (forall₂_zipIdx h.operands 0)
  rintro ⟨o?, i⟩ ⟨o?', _⟩ ⟨hrel, rfl⟩
  cases hrel with
  | none => simp
  | some ho => exact .some ⟨rfl, ho⟩

lemma typeAt (h : c.Instantiates σ c') (i : Nat) :
    RunsAgree (TensorType.Instantiates σ) (c.typeAt i) (c'.typeAt i) := by
  unfold Context.typeAt
  obtain ⟨hc, hc'⟩ | ⟨o, o', hc, hc', ho⟩ := none_or_some_of_rel (h.operand? i)
  · rw [hc, hc']
    trivial
  · rw [hc, hc']
    exact ho.1

lemma shapeAt (h : c.Instantiates σ c') (i : Nat) :
    RunsAgree (Shape.Instantiates σ) (c.shapeAt i) (c'.shapeAt i) := by
  unfold Context.shapeAt
  obtain ⟨hc, hc'⟩ | ⟨o, o', hc, hc', ho⟩ := none_or_some_of_rel (h.operand? i)
  · rw [hc, hc']
    trivial
  · rw [hc, hc']
    dsimp only
    obtain ⟨ht, ht'⟩ | ⟨s, s', ht, ht', hs⟩ := none_or_some_of_rel ho.1.2
    · rw [ht, ht']
      trivial
    · rw [ht, ht']
      exact hs

lemma operandShape? (h : c.Instantiates σ c') (i : Nat) :
    Option.Rel (Shape.Instantiates σ) ((c.operand? i).bind fun o => o.type.shape?)
      ((c'.operand? i).bind fun o => o.type.shape?) := by
  obtain ⟨hc, hc'⟩ | ⟨o, o', hc, hc', ho⟩ := none_or_some_of_rel (h.operand? i)
  · rw [hc, hc']
    exact .none
  · rw [hc, hc']
    exact ho.1.2

lemma withElem (h : c.Instantiates σ c') (i : Nat) {s s' : Shape} (hs : s.Describes σ s') :
    (c.withElem i s).Describes σ (c'.withElem i s') := by
  simp only [Context.withElem, TensorType.describes_mk_some, h.elemAt?, hs, true_and]

end Context.Instantiates

end TensorGraph
