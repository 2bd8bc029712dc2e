import Mathlib.Tactic.Lemma
import TensorGraph.Node

/-!
# Entries by name

Sorted entries are looked up by name. What was put in last is found under its name, and all other
names have what they had. So a node can be given a setting that no other setting notices.
-/

namespace TensorGraph

lemma lookup_cons_ite {α : Type} (e : String × α) (entries : List (String × α)) (key : String) :
    (e :: entries).lookup key = if key = e.1 then some e.2 else entries.lookup key := by
  obtain ⟨name, a⟩ := e
  by_cases hkey : key = name
  · simp [hkey]
  · simp [List.lookup_cons, hkey, beq_false_of_ne hkey]

lemma lookup_insertSorted {α : Type} (name : String) (a : α) (entries : List (String × α))
    (key : String) : (insertSorted name a entries).lookup key =
      if key = name then some a else entries.lookup key := by
  induction entries with
  | nil => rw [insertSorted, lookup_cons_ite]
  | cons e rest ih =>
    rw [insertSorted]
    split
    · rw [lookup_cons_ite]
    · split
      · rename_i heq
        rw [lookup_cons_ite, lookup_cons_ite, heq]
        split <;> rfl
      · rename_i hne
        rw [lookup_cons_ite, lookup_cons_ite, ih]
        split
        · rename_i hkey
          rw [if_neg (hkey ▸ Ne.symm hne)]
        · rfl

namespace Node

/-- A node with a list of numbers as one of its settings, whatever it had under that name. -/
def withInts (n : Node) (name : String) (values : List Int64) : Node :=
  { n with attributes := n.attributes.insert name (.ints values) }

variable {n : Node} {name key : String} {values : List Int64}

lemma attribute?_withInts : (n.withInts name values).attribute? key =
    if key = name then some (.ints values) else n.attribute? key :=
  lookup_insertSorted name (Attribute.ints values) n.attributes.entries key

lemma ints?_withInts_self :
    (n.withInts name values).ints? name = some (values.map Int64.toInt) := by
  rw [ints?, attribute?_withInts, if_pos rfl]
  rfl

lemma ints?_withInts_of_ne (h : key ≠ name) : (n.withInts name values).ints? key = n.ints? key := by
  rw [ints?, attribute?_withInts, if_neg h, ints?]

lemma int?_withInts_of_ne (h : key ≠ name) : (n.withInts name values).int? key = n.int? key := by
  rw [int?, attribute?_withInts, if_neg h, int?]

lemma string?_withInts_of_ne (h : key ≠ name) :
    (n.withInts name values).string? key = n.string? key := by
  rw [string?, attribute?_withInts, if_neg h, string?]

end Node

end TensorGraph
