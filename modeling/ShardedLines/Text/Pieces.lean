/-!
Cutting a list at every occurrence of a separator.

`pieces sep xs` has one piece more than `xs` has separators, no piece holds a separator, and joining
the pieces with the separator gives `xs` back.
-/

namespace ShardedLines

section Pieces

variable {α : Type} [BEq α]

/-- The stretches of a list between its separators, empty ones included. -/
def pieces (sep : α) : List α → List (List α)
  | [] => [[]]
  | x :: xs =>
    if x == sep then [] :: pieces sep xs else (pieces sep xs).modifyHead (x :: ·)

theorem pieces_ne_nil (sep : α) (xs : List α) : pieces sep xs ≠ [] := by
  induction xs with
  | nil => simp [pieces]
  | cons x xs ih =>
    simp only [pieces]
    split
    · simp
    · simpa using ih

theorem length_pieces (sep : α) (xs : List α) :
    (pieces sep xs).length = xs.count sep + 1 := by
  induction xs with
  | nil => simp [pieces]
  | cons x xs ih =>
    simp only [pieces, List.count_cons]
    split <;> simp_all

variable [LawfulBEq α]

theorem intercalate_pieces (sep : α) (xs : List α) : [sep].intercalate (pieces sep xs) = xs := by
  induction xs with
  | nil => simp [pieces]
  | cons x xs ih =>
    obtain ⟨piece, rest, h⟩ := List.exists_cons_of_ne_nil (pieces_ne_nil sep xs)
    rw [h] at ih
    simp only [pieces, h, List.modifyHead_cons]
    split
    · rename_i hx
      rw [List.intercalate_cons_cons, ih, eq_of_beq hx]
      simp
    · cases rest with
      | nil => simpa using ih
      | cons next rest =>
        rw [List.intercalate_cons_cons] at ih ⊢
        simp [← ih]

theorem not_mem_of_mem_pieces {sep : α} {xs piece : List α} (h : piece ∈ pieces sep xs) :
    sep ∉ piece := by
  induction xs generalizing piece with
  | nil => simp_all [pieces]
  | cons x xs ih =>
    simp only [pieces] at h
    split at h
    · rcases List.mem_cons.1 h with rfl | h
      · simp
      · exact ih h
    · rename_i hx
      obtain ⟨head, rest, hp⟩ := List.exists_cons_of_ne_nil (pieces_ne_nil sep xs)
      rw [hp] at h ih
      rcases List.mem_cons.1 h with rfl | h
      · have hsep : sep ≠ x := fun e => hx (by simp [e])
        simpa [hsep] using ih List.mem_cons_self
      · exact ih (List.mem_cons_of_mem _ h)

end Pieces

end ShardedLines
