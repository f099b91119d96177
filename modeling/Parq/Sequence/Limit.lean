import Mathlib.Data.List.Basic

/-!
# A limit on each piece

Taking at most `n` items from every piece of a sequence is not taking at most `n`
items from the sequence.  The two agree exactly when the limit cuts nothing, cuts
everything, or only one piece has items.
-/

namespace Parq.Sequence

universe u

variable {α : Type u}

/-- At most one piece has items. -/
def Solitary (pieces : List (List α)) : Prop :=
  (pieces.filter fun piece => !piece.isEmpty).length ≤ 1

theorem solitary_cons_nil (pieces : List (List α)) : Solitary ([] :: pieces) ↔ Solitary pieces := by
  simp [Solitary]

theorem solitary_cons_of_ne_nil {piece : List α} (nonempty : piece ≠ []) (pieces : List (List α)) :
    Solitary (piece :: pieces) ↔ pieces.flatten = [] := by
  simp [Solitary, nonempty, List.flatten_eq_nil_iff, List.filter_eq_nil_iff]

/-- The limit on each piece leaves at least what a limit on all leaves. -/
theorem min_le_length_flatMap_take (n : Nat) (pieces : List (List α)) :
    min n pieces.flatten.length ≤ (pieces.flatMap (List.take n)).length := by
  induction pieces with
  | nil => simp
  | cons piece pieces ih =>
      simp only [List.flatten_cons, List.flatMap_cons, List.length_append, List.length_take]
      omega

theorem length_flatMap_take_le (n : Nat) (pieces : List (List α)) :
    (pieces.flatMap (List.take n)).length ≤ pieces.flatten.length := by
  induction pieces with
  | nil => simp
  | cons piece pieces ih =>
      simp only [List.flatten_cons, List.flatMap_cons, List.length_append, List.length_take]
      omega

/-- When the limit on each piece leaves no more than a limit on all. -/
theorem length_flatMap_take_eq_iff (n : Nat) (pieces : List (List α)) :
    (pieces.flatMap (List.take n)).length = min n pieces.flatten.length ↔
      n = 0 ∨ pieces.flatten.length ≤ n ∨ Solitary pieces := by
  induction pieces with
  | nil => simp
  | cons piece pieces ih =>
      by_cases empty : piece = []
      · subst empty
        simpa [solitary_cons_nil] using ih
      · have above := min_le_length_flatMap_take n pieces
        have below := length_flatMap_take_le n pieces
        have positive := List.length_pos_iff.mpr empty
        rw [solitary_cons_of_ne_nil empty, ← List.length_eq_zero_iff]
        simp only [List.flatten_cons, List.flatMap_cons, List.length_append, List.length_take]
        omega

/-- In these cases the two limits leave the same items. -/
theorem flatMap_take_eq_take {n : Nat} {pieces : List (List α)}
    (harmless : n = 0 ∨ pieces.flatten.length ≤ n ∨ Solitary pieces) :
    pieces.flatMap (List.take n) = pieces.flatten.take n := by
  induction pieces with
  | nil => simp
  | cons piece pieces ih =>
      rw [List.flatMap_cons, List.flatten_cons, List.take_append]
      rcases harmless with rfl | short | solitary
      · simp
      · rw [List.flatten_cons, List.length_append] at short
        rw [ih (.inr (.inl (by omega))), List.take_of_length_le (by omega : piece.length ≤ n)]
        rw [List.take_of_length_le (by omega : pieces.flatten.length ≤ n),
          List.take_of_length_le (by omega)]
      · by_cases empty : piece = []
        · subst empty
          simpa using ih (.inr (.inr ((solitary_cons_nil pieces).mp solitary)))
        · have rest := (solitary_cons_of_ne_nil empty pieces).mp solitary
          rw [ih (.inr (.inl (by simp [rest]))), rest, List.take_nil, List.take_nil]

end Parq.Sequence
