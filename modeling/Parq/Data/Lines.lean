import Parq.Data.Bytes
import Mathlib.Algebra.BigOperators.Fin

/-!
# How long lines are

The lines of a byte string, each with a line end, are as long as the byte string and one
line end, and every non-blank line takes two of these bytes or more.
-/

namespace Parq.Data

/-- The bytes of lines, each with a line end. -/
def lineBytes (lines : List Bytes) : Nat :=
  (lines.map fun line => line.length + 1).sum

@[simp]
theorem lineBytes_nil : lineBytes [] = 0 :=
  rfl

@[simp]
theorem lineBytes_cons (line : Bytes) (lines : List Bytes) :
    lineBytes (line :: lines) = line.length + 1 + lineBytes lines :=
  rfl

@[simp]
theorem lineBytes_append (lines more : List Bytes) :
    lineBytes (lines ++ more) = lineBytes lines + lineBytes more := by
  simp [lineBytes]

theorem lineBytes_flatMap {α : Type} (pieces : List α) (linesOf : α → List Bytes) :
    lineBytes (pieces.flatMap linesOf) =
      (pieces.map fun piece => lineBytes (linesOf piece)).sum := by
  induction pieces with
  | nil => rfl
  | cons piece rest ih => rw [List.flatMap_cons, lineBytes_append, ih, List.map_cons, List.sum_cons]

theorem lineBytes_le_of_sublist {lines more : List Bytes} (sublist : lines.Sublist more) :
    lineBytes lines ≤ lineBytes more := by
  induction sublist with
  | slnil => exact Nat.le_refl _
  | cons line _ ih => exact Nat.le_trans ih (Nat.le_add_left _ _)
  | cons_cons line _ ih => exact Nat.add_le_add_left ih _

/-- What is made of some lines, each no longer than its line. -/
theorem lineBytes_filterMap_le {select : Bytes → Option Bytes}
    (shorter : ∀ line text, select line = some text → text.length ≤ line.length)
    (lines : List Bytes) : lineBytes (lines.filterMap select) ≤ lineBytes lines := by
  induction lines with
  | nil => exact Nat.le_refl _
  | cons line rest ih =>
      rw [List.filterMap_cons, lineBytes_cons]
      split
      · exact Nat.le_trans ih (Nat.le_add_left _ _)
      · rename_i text selected
        have fits := shorter line text selected
        rw [lineBytes_cons]
        omega

theorem two_mul_length_le {lines : List Bytes} (nonempty : ∀ line ∈ lines, line ≠ []) :
    2 * lines.length ≤ lineBytes lines := by
  induction lines with
  | nil => exact Nat.le_refl _
  | cons line rest ih =>
      rw [List.forall_mem_cons] at nonempty
      have more := ih nonempty.2
      have positive := List.length_pos_iff.mpr nonempty.1
      rw [List.length_cons, lineBytes_cons]
      omega

theorem length_joinLines {lines : List Bytes} (nonempty : lines ≠ []) :
    (joinLines lines).length + 1 = lineBytes lines := by
  unfold joinLines
  induction lines with
  | nil => exact absurd rfl nonempty
  | cons line rest ih =>
      cases rest with
      | nil => rw [List.intercalate_singleton, lineBytes_cons, lineBytes_nil, Nat.add_zero]
      | cons next rest =>
          have more := ih (List.cons_ne_nil next rest)
          rw [List.intercalate_cons_cons, lineBytes_cons, ← more, List.length_append,
            List.length_append, List.length_singleton]
          omega

/-- The lines of the data are the data and one line end. -/
theorem lineBytes_splitLines (data : Bytes) : lineBytes (splitLines data) = data.length + 1 := by
  have joined : joinLines (splitLines data) = data := List.intercalate_splitOn newline
  have whole := @length_joinLines (splitLines data) (List.splitOn_ne_nil newline data)
  rw [← whole, joined]

theorem length_trimAscii_le (line : Bytes) : (trimAscii line).length ≤ line.length :=
  Nat.le_trans (List.rdropWhile_prefix _ _).length_le (List.dropWhile_suffix _).length_le

theorem two_mul_nonBlankLines_le (data : Bytes) :
    2 * (nonBlankLines data).length ≤ data.length + 1 := by
  have nonempty : ∀ line ∈ nonBlankLines data, line ≠ [] := by
    intro line mem
    rcases List.mem_filterMap.mp mem with ⟨_, _, trimmed⟩
    exact (trimmed?_eq_some_iff.mp trimmed).2
  have shorter : ∀ line text, trimmed? line = some text → text.length ≤ line.length := by
    intro line text trimmed
    rw [← (trimmed?_eq_some_iff.mp trimmed).1]
    exact length_trimAscii_le line
  calc
    2 * (nonBlankLines data).length ≤ lineBytes (nonBlankLines data) := two_mul_length_le nonempty
    _ ≤ lineBytes (splitLines data) := lineBytes_filterMap_le shorter _
    _ = data.length + 1 := lineBytes_splitLines data

end Parq.Data
