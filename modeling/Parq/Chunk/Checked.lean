import Parq.Chunk.Partition
import Mathlib.Algebra.Ring.Nat

/-!
# Chunk arithmetic on `usize`

`fixed_chunks` once more, now with machine arithmetic: an addition that wraps, a division
by zero and an index or a slice out of range have no result.  Slices are never longer
than half the address space, and a second window is only added where the first one ended
inside the data, so the partition goes through without any of these.
-/

namespace Parq.Chunk

open Parq.Data

/-! ## Operations that may fail -/

/-- `a + b` on a `usize` of `width` bits, if it does not wrap. -/
def addUsize (width a b : Nat) : Option Nat :=
  if a + b < 2 ^ width then some (a + b) else none

/-- `a / b`, if the divisor is not zero. -/
def divUsize (a b : Nat) : Option Nat :=
  if b = 0 then none else some (a / b)

/-- `&data[start..stop]`, if the bounds are ordered and inside the data. -/
def sliceChecked (data : Bytes) (start stop : Nat) : Option Bytes :=
  if start ≤ stop ∧ stop ≤ data.length then some (slice data start stop) else none

/-- The `while` loop of `snap_to_newline` at index `i`. -/
def snapLoopChecked (width : Nat) (data : Bytes) : (fuel i : Nat) → Option Nat
  | 0, _ => none
  | fuel + 1, i =>
      if i < data.length then do
        let b ← data[i]?
        if b = newline then
          addUsize width i 1
        else
          let i ← addUsize width i 1
          snapLoopChecked width data fuel i
      else
        some data.length

/-- `snap_to_newline`. -/
def snapToNewlineChecked (width : Nat) (data : Bytes) (pos : Nat) : Option Nat :=
  snapLoopChecked width data (data.length + 1) pos

/-- The `while` loop of `fixed_chunks` from `start`. -/
def fixedChunksLoopChecked (width : Nat) (data : Bytes) (window : Nat) :
    (fuel start : Nat) → Option (List Bytes)
  | 0, _ => none
  | fuel + 1, start =>
      if start < data.length then do
        let next ← addUsize width start window
        let tentative := min next data.length
        if tentative = data.length then
          let piece ← sliceChecked data start data.length
          some [piece]
        else
          let stop ← snapToNewlineChecked width data tentative
          let piece ← sliceChecked data start stop
          let rest ← fixedChunksLoopChecked width data window fuel stop
          some (piece :: rest)
      else
        some []

/-- `fixed_chunks`, with the capacity it reserves. -/
def fixedChunksChecked (width : Nat) (data : Bytes) (chunkSize : Option Nat) :
    Option (List Bytes) :=
  if data.isEmpty then
    some []
  else do
    let window := max (chunkSize.getD CHUNK_SIZE_BYTES) 1
    let quotient ← divUsize data.length window
    let _capacity ← addUsize width quotient 2
    fixedChunksLoopChecked width data window (data.length + 1) 0

theorem addUsize_eq_some {width a b : Nat} (fits : a + b < 2 ^ width) :
    addUsize width a b = some (a + b) :=
  if_pos fits

theorem sliceChecked_eq_some {data : Bytes} {start stop : Nat} (ordered : start ≤ stop)
    (inside : stop ≤ data.length) : sliceChecked data start stop = some (slice data start stop) :=
  if_pos ⟨ordered, inside⟩

/-! ## The scan -/

section Width

variable {width : Nat} {data : Bytes}

theorem snapLoopChecked_eq (representable : data.length < 2 ^ width) {fuel i : Nat}
    (within : i ≤ data.length) (enough : data.length < i + fuel) :
    snapLoopChecked width data fuel i = some (snapToNewline data i) := by
  induction fuel generalizing i with
  | zero => exact absurd enough (Nat.not_lt.mpr within)
  | succ fuel ih =>
      rw [snapLoopChecked]
      by_cases inside : i < data.length
      · have fits : i + 1 < 2 ^ width := Nat.lt_of_le_of_lt inside representable
        have here : data[i]? = some data[i] := List.getElem?_eq_getElem inside
        rw [if_pos inside, here, snapToNewline, List.drop_eq_getElem_cons inside, snapLoop]
        by_cases at_newline : data[i] = newline
        · simp [at_newline, addUsize_eq_some fits]
        · simp [at_newline, addUsize_eq_some fits, ih inside (by omega),
            snapToNewline]
      · have nothing_left : data.drop i = [] := List.drop_eq_nil_of_le (Nat.le_of_not_lt inside)
        rw [if_neg inside, snapToNewline, nothing_left, snapLoop]

theorem snapToNewlineChecked_eq (representable : data.length < 2 ^ width) {pos : Nat}
    (within : pos ≤ data.length) :
    snapToNewlineChecked width data pos = some (snapToNewline data pos) :=
  snapLoopChecked_eq representable within (by omega)

/-! ## The partition -/

/-- Data that is not empty takes less than half of the address space. -/
theorem length_lt_half (half : data.length ≤ 2 ^ (width - 1) - 1) (nonempty : 0 < data.length) :
    data.length < 2 ^ (width - 1) ∧ 2 ^ width = 2 ^ (width - 1) + 2 ^ (width - 1) := by
  cases width with
  | zero => exact absurd (Nat.lt_of_lt_of_le nonempty half) (by decide)
  | succ width =>
      rw [Nat.add_sub_cancel] at half ⊢
      have positive : 0 < 2 ^ width := Nat.two_pow_pos width
      exact ⟨by omega, Nat.two_pow_succ width⟩

/-- The loop fails nowhere: it starts at the front, or behind a window that ended inside the
data. -/
theorem fixedChunksLoopChecked_eq (half : data.length ≤ 2 ^ (width - 1) - 1) {window : Nat}
    (window_fits : window < 2 ^ width) (positive : 0 < window) {fuel start : Nat}
    (behind : start = 0 ∨ window < data.length) (inside : start ≤ data.length)
    (enough : data.length < start + fuel) :
    fixedChunksLoopChecked width data window fuel start =
      some (fixedChunksLoop data window fuel start) := by
  induction fuel generalizing start with
  | zero => exact absurd enough (Nat.not_lt.mpr inside)
  | succ fuel ih =>
      rw [fixedChunksLoopChecked, fixedChunksLoop]
      by_cases more : start < data.length
      · rcases length_lt_half half (Nat.zero_lt_of_lt more) with ⟨below, double⟩
        have representable : data.length < 2 ^ width := by omega
        have fits : start + window < 2 ^ width := by
          rcases behind with rfl | shorter
          · rwa [Nat.zero_add]
          · omega
        rw [if_pos more, if_pos more]
        by_cases ends : min (start + window) data.length = data.length
        · have last : slice data start data.length = data.drop start := by
            rw [slice, List.take_of_length_le (by rw [List.length_drop])]
          simp only [addUsize_eq_some fits, Option.bind_eq_bind, Option.bind_some, if_pos ends,
            sliceChecked_eq_some inside (Nat.le_refl _), last]
        · have window_inside : min (start + window) data.length < data.length :=
            Nat.lt_of_le_of_ne (Nat.min_le_right _ _) ends
          have bounds := snapToNewline_bounds window_inside
          have ordered : start ≤ snapToNewline data (min (start + window) data.length) := by omega
          simp only [addUsize_eq_some fits, Option.bind_eq_bind, Option.bind_some, if_neg ends,
            snapToNewlineChecked_eq representable (Nat.min_le_right _ _),
            sliceChecked_eq_some ordered bounds.2, ih (.inr (by omega)) bounds.2 (by omega)]
      · rw [if_neg more, if_neg more]

end Width

/-- On a `usize` of `width` bits, with slices of at most `2 ^ (width - 1) - 1` bytes, no
addition of `fixed_chunks` or `snap_to_newline` wraps, the division has a divisor, and every
index and slice is in range: the machine computes the partition. -/
theorem fixedChunksChecked_eq {width : Nat} {data : Bytes} {chunkSize : Option Nat}
    (half : data.length ≤ 2 ^ (width - 1) - 1)
    (size_fits : chunkSize.getD CHUNK_SIZE_BYTES < 2 ^ width) :
    fixedChunksChecked width data chunkSize = some (fixedChunks data chunkSize) := by
  unfold fixedChunksChecked fixedChunks
  by_cases empty : data.isEmpty = true
  · rw [if_pos empty, if_pos empty]
  · rw [if_neg empty, if_neg empty]
    have nonempty : 0 < data.length := by
      rw [List.length_pos_iff]
      exact fun nil => empty (List.isEmpty_iff.mpr nil)
    rcases length_lt_half half nonempty with ⟨below, double⟩
    have positive : 0 < max (chunkSize.getD CHUNK_SIZE_BYTES) 1 :=
      Nat.lt_of_lt_of_le Nat.one_pos (Nat.le_max_right _ _)
    have window_fits : max (chunkSize.getD CHUNK_SIZE_BYTES) 1 < 2 ^ width := by omega
    generalize max (chunkSize.getD CHUNK_SIZE_BYTES) 1 = window at positive window_fits ⊢
    have divides : divUsize data.length window = some (data.length / window) :=
      if_neg (Nat.ne_of_gt positive)
    have capacity : data.length / window + 2 < 2 ^ width := by
      have quotient := Nat.div_le_self data.length window
      omega
    have passes : fixedChunksLoopChecked width data window (data.length + 1) 0 =
        some (fixedChunksLoop data window (data.length + 1) 0) :=
      fixedChunksLoopChecked_eq half window_fits positive (.inl rfl) (Nat.zero_le _) (by omega)
    have same : fixedChunksLoop data window (data.length + 1) 0 =
        fixedChunksLoop data window data.length 0 :=
      fixedChunksLoop_fuel positive (by omega) (by omega)
    simp [divides, addUsize_eq_some capacity, passes, same]

theorem fixedChunksChecked_eight_bits :
    fixedChunksChecked 8 (ascii "a\nb") (some 255) = some (fixedChunks (ascii "a\nb") (some 255)) :=
  fixedChunksChecked_eq (by decide) (by decide)

end Parq.Chunk
