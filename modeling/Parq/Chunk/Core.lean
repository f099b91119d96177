import Parq.Data.Bytes

/-!
# Partitioning the input into chunks

`fixed_chunks` cuts the mapped file into windows and moves each cut forward to
just behind the next `\n`.  The slices it returns concatenate to the file, and
every slice but the last ends on a line end, so that no line is divided between
two chunks.
-/

namespace Parq.Chunk

open Parq.Data
open Parq.Sequence

/-- `CHUNK_SIZE_BYTES`: 64 MiB. -/
def CHUNK_SIZE_BYTES : Nat :=
  64 * 1024 * 1024

/-- The `while` loop of `snap_to_newline` at index `i`, with `rest` the bytes
`data[i..]`. -/
def snapLoop (len : Nat) : (rest : Bytes) → (i : Nat) → Nat
  | [], _ => len
  | b :: rest, i => if b = newline then i + 1 else snapLoop len rest (i + 1)

/-- `snap_to_newline`: the offset behind the next newline at or after `pos`, or
the length of the data if none follows. -/
def snapToNewline (data : Bytes) (pos : Nat) : Nat :=
  snapLoop data.length (data.drop pos) pos

/-- The slice `data[start..stop]`. -/
def slice (data : Bytes) (start stop : Nat) : Bytes :=
  (data.drop start).take (stop - start)

/-- The `while` loop of `fixed_chunks` from `start`.  Each pass moves `start`
forward, so `fuel` for one pass a byte is never used up. -/
def fixedChunksLoop (data : Bytes) (window : Nat) : (fuel start : Nat) → List Bytes
  | 0, _ => []
  | fuel + 1, start =>
      if start < data.length then
        let tentative := min (start + window) data.length
        if tentative = data.length then
          [data.drop start]
        else
          let stop := snapToNewline data tentative
          slice data start stop :: fixedChunksLoop data window fuel stop
      else
        []

/-- `fixed_chunks`. -/
def fixedChunks (data : Bytes) (chunkSize : Option Nat) : List Bytes :=
  if data.isEmpty then
    []
  else
    let window := max (chunkSize.getD CHUNK_SIZE_BYTES) 1
    fixedChunksLoop data window data.length 0

/-! ## Where a cut lands -/

theorem snapLoop_of_not_mem (len : Nat) {rest : Bytes} (free : newline ∉ rest) (i : Nat) :
    snapLoop len rest i = len := by
  induction rest generalizing i with
  | nil => rfl
  | cons b rest ih =>
      simp only [List.mem_cons, not_or] at free
      rw [snapLoop, if_neg (Ne.symm free.1), ih free.2]

theorem snapLoop_append (len : Nat) {body : Bytes} (free : newline ∉ body) (rest : Bytes)
    (i : Nat) : snapLoop len (body ++ newline :: rest) i = i + body.length + 1 := by
  induction body generalizing i with
  | nil => simp [snapLoop]
  | cons b body ih =>
      simp only [List.mem_cons, not_or] at free
      rw [List.cons_append, snapLoop, if_neg (Ne.symm free.1), ih free.2, List.length_cons]
      omega

/-- A cut is behind the first newline of the bytes from `pos`, or at the end of
the data when they contain none. -/
theorem snapToNewline_cases (data : Bytes) (pos : Nat) :
    newline ∉ data.drop pos ∧ snapToNewline data pos = data.length ∨
      ∃ body rest, newline ∉ body ∧ data.drop pos = body ++ newline :: rest ∧
        snapToNewline data pos = pos + body.length + 1 := by
  by_cases mem : newline ∈ data.drop pos
  · right
    obtain ⟨body, rest, split, free⟩ := List.eq_append_cons_of_mem mem
    exact ⟨body, rest, free, split, by rw [snapToNewline, split, snapLoop_append _ free]⟩
  · exact Or.inl ⟨mem, snapLoop_of_not_mem _ mem _⟩

/-- A cut from inside the data moves forward and stays inside. -/
theorem snapToNewline_bounds {data : Bytes} {pos : Nat} (inside : pos < data.length) :
    pos < snapToNewline data pos ∧ snapToNewline data pos ≤ data.length := by
  rcases snapToNewline_cases data pos with ⟨_, stop_eq⟩ | ⟨body, rest, _, split, stop_eq⟩
  · omega
  · have lengths := congrArg List.length split
    simp only [List.length_drop, List.length_append, List.length_cons] at lengths
    omega

/-- The slice up to a cut and the data behind the cut make up the data from the
start of the slice. -/
theorem slice_append_drop {data : Bytes} {start stop : Nat} (ordered : start ≤ stop) :
    slice data start stop ++ data.drop stop = data.drop start := by
  rw [slice, ← Nat.add_sub_cancel' ordered, ← List.drop_drop, Nat.add_sub_cancel_left,
    List.take_append_drop]

/-- A slice up to a cut before the end of the data ends on the newline. -/
theorem slice_snapToNewline_terminated {data : Bytes} {start pos : Nat} (after : start ≤ pos)
    (before_end : snapToNewline data pos ≠ data.length) :
    Terminated newline (slice data start (snapToNewline data pos)) := by
  rcases snapToNewline_cases data pos with ⟨_, stop_eq⟩ | ⟨body, rest, _, split, stop_eq⟩
  · exact absurd stop_eq before_end
  · right
    refine ⟨slice data start pos ++ body, ?_⟩
    have behind : data.drop (snapToNewline data pos) = rest := by
      rw [stop_eq, Nat.add_assoc, ← List.drop_drop, split, List.drop_length_add_append]
      rfl
    apply (List.append_left_inj rest).mp
    calc
      slice data start (snapToNewline data pos) ++ rest = data.drop start := by
        rw [← behind, slice_append_drop (by omega)]
      _ = slice data start pos ++ (body ++ newline :: rest) := by
        rw [← split, slice_append_drop after]
      _ = slice data start pos ++ body ++ [newline] ++ rest := by simp

/-! ## The partition -/

/-- The slices cut from `start` concatenate to the data behind `start`. -/
theorem flatten_fixedChunksLoop {data : Bytes} {window : Nat} (positive : 0 < window)
    {fuel start : Nat} (inside : start ≤ data.length) (enough : data.length ≤ start + fuel) :
    (fixedChunksLoop data window fuel start).flatten = data.drop start := by
  induction fuel generalizing start with
  | zero =>
      rw [fixedChunksLoop, List.flatten_nil, List.drop_eq_nil_of_le (by omega)]
  | succ fuel ih =>
      rw [fixedChunksLoop]
      split
      · dsimp only
        split
        · simp
        · rename_i within window_end
          have bounds := snapToNewline_bounds
            (show min (start + window) data.length < data.length by omega)
          rw [List.flatten_cons, ih bounds.2 (by omega), slice_append_drop (by omega)]
      · rw [List.flatten_nil, List.drop_eq_nil_of_le (by omega)]

/-- Every slice but the last ends on a newline. -/
theorem delimited_fixedChunksLoop (data : Bytes) (window fuel start : Nat) :
    Delimited newline (fixedChunksLoop data window fuel start) := by
  induction fuel generalizing start with
  | zero => trivial
  | succ fuel ih =>
      rw [fixedChunksLoop]
      split
      · dsimp only
        split
        · trivial
        · rename_i within window_end
          generalize tail_eq :
            fixedChunksLoop data window fuel
              (snapToNewline data (min (start + window) data.length)) =
              tail
          have tail_delimited := ih (snapToNewline data (min (start + window) data.length))
          rw [tail_eq] at tail_delimited
          cases tail with
          | nil => trivial
          | cons next rest =>
              refine ⟨slice_snapToNewline_terminated (by omega) ?_, tail_delimited⟩
              intro at_end
              rw [at_end] at tail_eq
              cases fuel <;> simp [fixedChunksLoop] at tail_eq
      · trivial

/-- The chunks concatenate to the data. -/
theorem flatten_fixedChunks (data : Bytes) (chunkSize : Option Nat) :
    (fixedChunks data chunkSize).flatten = data := by
  unfold fixedChunks
  split
  · simp_all
  · rw [flatten_fixedChunksLoop (by omega) (Nat.zero_le _) (by omega), List.drop_zero]

/-- Every chunk but the last ends on a newline. -/
theorem delimited_fixedChunks (data : Bytes) (chunkSize : Option Nat) :
    Delimited newline (fixedChunks data chunkSize) := by
  unfold fixedChunks
  split
  · trivial
  · exact delimited_fixedChunksLoop _ _ _ _

/-- Reading the data line by line and reading its chunks one after the other
select the same lines, when the reader passes over empty lines. -/
theorem filterMap_splitLines_fixedChunks {β : Type} {select : Bytes → Option β}
    (select_nil : select [] = none) (data : Bytes) (chunkSize : Option Nat) :
    (splitLines data).filterMap select =
      (fixedChunks data chunkSize).flatMap fun chunk => (splitLines chunk).filterMap select := by
  have piecewise := filterMap_splitOn_flatten select_nil (delimited_fixedChunks data chunkSize)
  rwa [flatten_fixedChunks] at piecewise

/-- A property of the empty line holds of all lines of the data exactly when it
holds of all lines of all chunks. -/
theorem forall_splitLines_fixedChunks_iff {holds : Bytes → Prop} (holds_nil : holds [])
    (data : Bytes) (chunkSize : Option Nat) :
    (∀ line ∈ splitLines data, holds line) ↔
      ∀ chunk ∈ fixedChunks data chunkSize, ∀ line ∈ splitLines chunk, holds line := by
  have piecewise := forall_splitOn_flatten_iff holds_nil (delimited_fixedChunks data chunkSize)
  rwa [flatten_fixedChunks] at piecewise

example : fixedChunks (ascii "a\nbc\n\nd") (some 1) = [ascii "a\n", ascii "bc\n", ascii "\nd"] := by
  decide

end Parq.Chunk
