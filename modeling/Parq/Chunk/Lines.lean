import Parq.Chunk.Core
import Parq.Sequence.FirstMany

/-!
# Counting lines and cutting behind them

`offset_after_n_lines` scans for the `n`-th newline and compares its count only at a
newline, behind the increment.  The cut for no lines at all is therefore the one for one
line, and every other cut is where it should be.
-/

namespace Parq.Chunk

open Parq.Data
open Parq.Sequence

/-- The byte is a newline. -/
def isNewline (b : UInt8) : Bool :=
  b == newline

/-- `count_lines`. -/
def countLines (data : Bytes) : Nat :=
  (data.filter isNewline).length

/-- The `for` loop of `offset_after_n_lines` at index `i`, with `rest` the bytes `data[i..]`
and `count` newlines in front of them. -/
def offsetLoop (len n : Nat) : (rest : Bytes) → (i count : Nat) → Nat
  | [], _, _ => len
  | b :: rest, i, count =>
      if b = newline then
        if n ≤ count + 1 then i + 1 else offsetLoop len n rest (i + 1) (count + 1)
      else
        offsetLoop len n rest (i + 1) count

/-- `offset_after_n_lines`. -/
def offsetAfterNLines (data : Bytes) (n : Nat) : Nat :=
  offsetLoop data.length n data 0 0

theorem countLines_eq_countP (data : Bytes) : countLines data = data.countP isNewline :=
  List.countP_eq_length_filter.symm

@[simp]
theorem countLines_append (data more : Bytes) :
    countLines (data ++ more) = countLines data + countLines more := by
  simp [countLines]

/-! ## Where the scan stops -/

/-- The scan stops behind the newlines that are left to count, but behind one at least. -/
theorem offsetLoop_eq {n : Nat} (rest : Bytes) (i : Nat) {count : Nat} (left : count < max n 1) :
    offsetLoop (i + rest.length) n rest i count =
      i + (takeMany isNewline (max n 1 - count) rest).length := by
  induction rest generalizing i count with
  | nil => simp [offsetLoop]
  | cons b rest ih =>
      have longer : i + (b :: rest).length = i + 1 + rest.length := by
        rw [List.length_cons, Nat.add_right_comm, Nat.add_assoc]
      rw [offsetLoop, longer, takeMany_cons isNewline (Nat.sub_pos_of_lt left), List.length_cons]
      by_cases here : b = newline
      · have counted : isNewline b = true := beq_iff_eq.mpr here
        rw [if_pos here, if_pos counted]
        by_cases last : n ≤ count + 1
        · have none_left : max n 1 - count - 1 = 0 := by omega
          rw [if_pos last, none_left, takeMany_zero, List.length_nil]
        · have more_left : count + 1 < max n 1 := by omega
          rw [if_neg last, ih (i + 1) more_left, Nat.sub_sub, Nat.add_assoc, Nat.add_comm 1]
      · have passed : ¬ isNewline b = true := fun counted => here (beq_iff_eq.mp counted)
        rw [if_neg here, if_neg passed, ih (i + 1) left, Nat.add_assoc, Nat.add_comm 1]

/-- The cut for `n` lines, with the cut for no lines that for one. -/
theorem offsetAfterNLines_eq (data : Bytes) (n : Nat) :
    offsetAfterNLines data n = (takeMany isNewline (max n 1) data).length := by
  have left : 0 < max n 1 := Nat.lt_of_lt_of_le Nat.one_pos (Nat.le_max_right n 1)
  have scan := offsetLoop_eq data 0 left
  rwa [Nat.zero_add, Nat.zero_add] at scan

theorem take_offsetAfterNLines (data : Bytes) (n : Nat) :
    data.take (offsetAfterNLines data n) = takeMany isNewline (max n 1) data := by
  rw [offsetAfterNLines_eq]
  exact (List.prefix_iff_eq_take.mp (takeMany_starts isNewline (max n 1) data)).symm

theorem offsetAfterNLines_le (data : Bytes) (n : Nat) : offsetAfterNLines data n ≤ data.length := by
  rw [offsetAfterNLines_eq]
  exact (takeMany_starts isNewline (max n 1) data).length_le

theorem countLines_take_offsetAfterNLines (data : Bytes) (n : Nat) :
    countLines (data.take (offsetAfterNLines data n)) = min (max n 1) (countLines data) := by
  rw [take_offsetAfterNLines, countLines_eq_countP, countLines_eq_countP, countP_takeMany]

/-- More lines are cut no earlier. -/
theorem offsetAfterNLines_mono (data : Bytes) {fewer more : Nat} (le : fewer ≤ more) :
    offsetAfterNLines data fewer ≤ offsetAfterNLines data more := by
  have counts : max fewer 1 ≤ max more 1 := by omega
  rw [offsetAfterNLines_eq, offsetAfterNLines_eq]
  exact (takeMany_starts_of_le isNewline counts data).length_le

/-- The two sides of a cut have the lines of the data. -/
theorem countLines_take_add_countLines_drop (data : Bytes) (k : Nat) :
    countLines (data.take k) + countLines (data.drop k) = countLines data := by
  rw [← countLines_append, List.take_append_drop]

/-! ## Cuts behind exactly `n` lines -/

/-- The cut for `n` lines is inside the data and behind `n` newlines, or behind all when there
are fewer; none that has `n` newlines in front is earlier; the cuts for more lines are no
earlier, and no line is lost or counted twice at the cut. -/
structure HeadCut (data : Bytes) (n : Nat) : Prop where
  inside : offsetAfterNLines data n ≤ data.length
  lines : countLines (data.take (offsetAfterNLines data n)) = min n (countLines data)
  shortest : n ≤ countLines data → ∀ other, other <+: data → countLines other = n →
    offsetAfterNLines data n ≤ other.length
  monotone : ∀ more, n ≤ more → offsetAfterNLines data n ≤ offsetAfterNLines data more
  parts : countLines (data.take (offsetAfterNLines data n)) +
    countLines (data.drop (offsetAfterNLines data n)) = countLines data

theorem headCut_of_pos (data : Bytes) {n : Nat} (positive : 1 ≤ n) : HeadCut data n where
  inside := offsetAfterNLines_le data n
  lines := by rw [countLines_take_offsetAfterNLines, Nat.max_eq_left positive]
  shortest := by
    intro _ other starts same
    rw [offsetAfterNLines_eq, Nat.max_eq_left positive]
    apply length_takeMany_le starts
    rw [← countLines_eq_countP, same]
  monotone := fun _ le => offsetAfterNLines_mono data le
  parts := countLines_take_add_countLines_drop data _

/-- In data that is not empty every cut is behind some byte. -/
theorem offsetAfterNLines_pos {data : Bytes} (nonempty : data ≠ []) (n : Nat) :
    0 < offsetAfterNLines data n := by
  rw [offsetAfterNLines_eq]
  cases data with
  | nil => exact absurd rfl nonempty
  | cons b rest =>
      rw [takeMany_cons isNewline (Nat.lt_of_lt_of_le Nat.one_pos (Nat.le_max_right n 1))]
      exact Nat.succ_pos _

/-- `offset_after_n_lines` cuts behind exactly `n` lines unless `n` is zero and there is
data. -/
theorem headCut_iff (data : Bytes) (n : Nat) : HeadCut data n ↔ 1 ≤ n ∨ data = [] := by
  constructor
  · intro cut
    cases n with
    | succ n => exact .inl (Nat.succ_pos n)
    | zero =>
        right
        by_contra nonempty
        have no_line := cut.shortest (Nat.zero_le _) [] List.nil_prefix rfl
        exact absurd (offsetAfterNLines_pos nonempty 0) (Nat.not_lt.mpr no_line)
  · rintro (positive | rfl)
    · exact headCut_of_pos data positive
    · refine ⟨Nat.le_refl _, ?_, fun _ _ _ _ => Nat.zero_le _, fun _ _ => Nat.zero_le _, rfl⟩
      exact (Nat.min_zero n).symm

/-- The cut for no lines is behind the first line. -/
theorem no_lines_cut_behind_first :
    offsetAfterNLines (ascii "a\nb") 0 = 2 ∧ ¬ HeadCut (ascii "a\nb") 0 := by
  refine ⟨rfl, ?_⟩
  intro cut
  exact absurd cut.lines (by decide)

end Parq.Chunk
