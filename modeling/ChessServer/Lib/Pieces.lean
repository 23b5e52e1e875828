import Mathlib.Data.List.Basic

/-!
# Sequences cut into pieces

Two lists of pieces may spell out the same sequence.  What a reader that
looks at the sequence piece by piece can see of the other division is where
the pieces end.
-/

namespace Pieces

variable {α : Type}

/-- Some pieces at the front have `n` elements together. -/
def Boundary (pieces : List (List α)) (n : Nat) : Prop :=
  ∃ k, ((pieces.take k).flatten).length = n

/-- Every piece of `pieces` ends where a piece of `parts` ends: no part has
elements of two pieces. -/
def Refines (parts pieces : List (List α)) : Prop :=
  ∀ n, Boundary pieces n → Boundary parts n

theorem boundary_nil {n : Nat} : Boundary ([] : List (List α)) n ↔ n = 0 := by
  simp [Boundary, eq_comm]

/-- Parts refine the pieces that they were cut from. -/
theorem refines_flatten (parts : List (List (List α))) :
    Refines parts.flatten (parts.map List.flatten) := by
  rintro n ⟨k, rfl⟩
  refine ⟨(parts.take k).flatten.length, ?_⟩
  have hfront : parts.flatten =
      (parts.take k).flatten ++ (parts.drop k).flatten := by
    rw [← List.flatten_append, List.take_append_drop]
  rw [hfront, List.take_left, ← List.map_take, List.flatten_flatten]

/-- All pieces end where the sequence ends. -/
theorem boundary_length (pieces : List (List α)) :
    Boundary pieces pieces.flatten.length :=
  ⟨pieces.length, by simp⟩

theorem Boundary.le {pieces : List (List α)} {n : Nat}
    (h : Boundary pieces n) : n ≤ pieces.flatten.length := by
  obtain ⟨k, rfl⟩ := h
  calc ((pieces.take k).flatten).length
      ≤ ((pieces.take k).flatten ++ (pieces.drop k).flatten).length := by
        rw [List.length_append]
        exact Nat.le_add_right _ _
    _ = pieces.flatten.length := by
        rw [← List.flatten_append, List.take_append_drop]

/-- One more piece adds one end. -/
theorem boundary_concat {pieces : List (List α)} {piece : List α} {n : Nat} :
    Boundary (pieces ++ [piece]) n ↔
      Boundary pieces n ∨ n = (pieces.flatten ++ piece).length := by
  constructor
  · rintro ⟨k, rfl⟩
    by_cases hk : k ≤ pieces.length
    · exact Or.inl ⟨k, by rw [List.take_append_of_le_length hk]⟩
    · refine Or.inr ?_
      rw [List.take_of_length_le (by simp; omega)]
      simp
  · rintro (⟨k, rfl⟩ | rfl)
    · by_cases hk : k ≤ pieces.length
      · exact ⟨k, by rw [List.take_append_of_le_length hk]⟩
      · refine ⟨pieces.length, ?_⟩
        rw [List.take_append_of_le_length (Nat.le_refl _), List.take_length,
          List.take_of_length_le (by omega)]
    · refine ⟨pieces.length + 1, ?_⟩
      rw [List.take_of_length_le (by simp)]
      simp

/-- The pieces at the front end inside the whole. -/
theorem boundary_append (front back : List (List α)) :
    Boundary (front ++ back) front.flatten.length :=
  ⟨front.length, by simp⟩

end Pieces
