/-!
# Sorted entries

Values under names, in a list that is sorted by name and has each name once.
-/

namespace TensorGraph

/-- Puts a value into a list that is sorted by name; an earlier one under that name is replaced. -/
def insertSorted {α : Type} (name : String) (a : α) : List (String × α) → List (String × α)
  | [] => [(name, a)]
  | (n, b) :: rest =>
    if name < n then (name, a) :: (n, b) :: rest
    else if name = n then (name, a) :: rest
    else (n, b) :: insertSorted name a rest

theorem mem_insertSorted {α : Type} {name : String} {a : α} {entries : List (String × α)}
    {x : String × α} (h : x ∈ insertSorted name a entries) :
    x = (name, a) ∨ x ∈ entries := by
  induction entries with
  | nil => simpa [insertSorted] using h
  | cons e rest ih =>
    unfold insertSorted at h
    split at h
    · simpa using h
    · split at h
      · rcases List.mem_cons.1 h with h | h
        · exact .inl h
        · exact .inr (List.mem_cons_of_mem _ h)
      · rcases List.mem_cons.1 h with h | h
        · exact .inr (h ▸ List.mem_cons_self)
        · exact (ih h).imp_right (List.mem_cons_of_mem _)

theorem sorted_insertSorted {α : Type} {name : String} {a : α} {entries : List (String × α)}
    (h : entries.Pairwise fun x y => x.1 < y.1) :
    (insertSorted name a entries).Pairwise fun x y => x.1 < y.1 := by
  induction entries with
  | nil => simp [insertSorted]
  | cons e rest ih =>
    obtain ⟨hhead, htail⟩ := List.pairwise_cons.1 h
    unfold insertSorted
    split
    · rename_i hlt
      refine List.pairwise_cons.2 ⟨fun x hx => ?_, h⟩
      rcases List.mem_cons.1 hx with rfl | hx
      · exact hlt
      · exact String.lt_trans hlt (hhead x hx)
    · rename_i hge
      split
      · rename_i heq
        exact List.pairwise_cons.2 ⟨fun x hx => heq ▸ hhead x hx, htail⟩
      · rename_i hne
        refine List.pairwise_cons.2 ⟨fun x hx => ?_, ih htail⟩
        rcases mem_insertSorted hx with rfl | hx
        · exact String.not_le.1 fun hle => hne (String.le_antisymm hle (String.not_lt.1 hge))
        · exact hhead x hx

end TensorGraph
