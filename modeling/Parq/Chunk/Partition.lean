import Parq.Chunk.Core

/-!
# The shape of the partition

Every chunk but the last is the shortest piece of the data from its offset on that ends on
a newline and is longer than the window.  A pass of the loop therefore consumes more than
the window, which bounds the number of chunks and ends the loop.
-/

namespace Parq.Chunk

open Parq.Data
open Parq.Sequence

/-- `piece` is the shortest beginning of `rest` that ends on a newline and is longer than
`window`. -/
structure ShortestPiece (window : Nat) (rest piece : Bytes) : Prop where
  starts : piece <+: rest
  long : window < piece.length
  terminated : piece.getLast? = some newline
  shortest : ∀ other, other <+: rest → window < other.length → other.getLast? = some newline →
    piece.length ≤ other.length

/-- The bytes from the window up to the first newline behind it make a shortest piece. -/
theorem shortestPiece_of_split (front : Bytes) {body : Bytes} (free : newline ∉ body)
    (behind : Bytes) :
    ShortestPiece front.length (front ++ (body ++ newline :: behind))
      (front ++ (body ++ [newline])) where
  starts := ⟨behind, by simp⟩
  long := by simp
  terminated := by simp
  shortest := by
    rintro other ⟨more, split⟩ longer ends
    by_contra shorter
    simp only [List.length_append, List.length_singleton] at shorter
    have last : (front ++ (body ++ newline :: behind))[other.length - 1]? = some newline := by
      rw [← split, List.getElem?_append_left (by omega), ← List.getLast?_eq_getElem?, ends]
    rw [List.getElem?_append_right (by omega), List.getElem?_append_left (by omega)] at last
    exact free (List.mem_of_getElem? last)

/-- A shortest piece has no newline between the window and its last byte. -/
theorem ShortestPiece.free {window : Nat} {rest piece : Bytes}
    (shortest : ShortestPiece window rest piece) : newline ∉ (piece.drop window).dropLast := by
  intro mem
  rcases List.mem_iff_getElem.mp mem with ⟨i, inside, here⟩
  simp only [List.length_dropLast, List.length_drop] at inside
  rw [List.getElem_dropLast, List.getElem_drop] at here
  have ends : (piece.take (window + i + 1)).getLast? = some newline := by
    rw [List.getLast?_eq_getElem?, List.length_take_of_le (by omega), Nat.add_sub_cancel,
      List.getElem?_take_of_lt (Nat.lt_succ_self _), List.getElem?_eq_getElem (by omega), here]
  have bound := shortest.shortest (piece.take (window + i + 1))
    ((List.take_prefix _ _).trans shortest.starts)
    (by rw [List.length_take_of_le (by omega)]; omega) ends
  rw [List.length_take_of_le (by omega)] at bound
  omega

/-! ## One pass of the loop -/

/-- A cut before the end of the data leaves a shortest piece in front of it. -/
theorem shortestPiece_slice {data : Bytes} {start window : Nat}
    (inside : start + window < data.length)
    (before_end : snapToNewline data (start + window) < data.length) :
    ShortestPiece window (data.drop start)
      (slice data start (snapToNewline data (start + window))) := by
  rcases snapToNewline_cases data (start + window)
    with ⟨_, stop_eq⟩ | ⟨body, behind, free, split, stop_eq⟩
  · omega
  · have front : ((data.drop start).take window).length = window := by
      rw [List.length_take_of_le]
      rw [List.length_drop]
      omega
    have whole : data.drop start =
        (data.drop start).take window ++ (body ++ newline :: behind) := by
      rw [← split, ← List.drop_drop, List.take_append_drop]
    have piece : slice data start (snapToNewline data (start + window)) =
        (data.drop start).take window ++ (body ++ [newline]) := by
      rw [slice, stop_eq]
      conv_lhs => rw [whole]
      rw [show start + window + body.length + 1 - start =
        ((data.drop start).take window).length + (body ++ [newline]).length by
          rw [front, List.length_append, List.length_singleton]; omega,
        List.take_length_add_append, List.append_cons body newline behind, List.take_left]
    have shortest := shortestPiece_of_split ((data.drop start).take window) free behind
    rwa [front, ← whole, ← piece] at shortest

/-- At the end of the data the loop is over. -/
theorem fixedChunksLoop_of_le {data : Bytes} {start : Nat} (past : data.length ≤ start)
    (window fuel : Nat) : fixedChunksLoop data window fuel start = [] := by
  cases fuel with
  | zero => rfl
  | succ fuel => rw [fixedChunksLoop, if_neg (Nat.not_lt.mpr past)]

/-- The loop makes no use of fuel beyond one pass a byte. -/
theorem fixedChunksLoop_fuel {data : Bytes} {window : Nat} (positive : 0 < window)
    {fuel fuel' start : Nat}
    (enough : data.length ≤ start + fuel) (enough' : data.length ≤ start + fuel') :
    fixedChunksLoop data window fuel start = fixedChunksLoop data window fuel' start := by
  induction fuel generalizing fuel' start with
  | zero => rw [fixedChunksLoop_of_le (by omega), fixedChunksLoop_of_le (by omega)]
  | succ fuel ih =>
      cases fuel' with
      | zero => rw [fixedChunksLoop_of_le (by omega), fixedChunksLoop_of_le (by omega)]
      | succ fuel' =>
          rw [fixedChunksLoop, fixedChunksLoop]
          split
          · dsimp only
            split
            · rfl
            · have bounds := snapToNewline_bounds
                (show min (start + window) data.length < data.length by omega)
              congr 1
              exact ih (by omega) (by omega)
          · rfl

/-- Every slice that the loop cuts from `start` on holds a byte, and every one but the last
is a shortest piece of the data from its offset on. -/
theorem shape_of_mem_fixedChunksLoop {data : Bytes} {window fuel start : Nat}
    (positive : 0 < window)
    {before after : List Bytes} {piece : Bytes}
    (split : fixedChunksLoop data window fuel start = before ++ piece :: after) :
    piece ≠ [] ∧ (after ≠ [] →
      ShortestPiece window (data.drop (start + before.flatten.length)) piece) := by
  induction fuel generalizing start before with
  | zero => simp [fixedChunksLoop] at split
  | succ fuel ih =>
      rw [fixedChunksLoop] at split
      split at split
      · rename_i inside
        dsimp only at split
        split at split
        · rcases List.cons_eq_append_iff.mp split with ⟨rfl, only⟩ | ⟨rest, _, contradicted⟩
          · rcases List.cons.inj only with ⟨rfl, rfl⟩
            refine ⟨?_, fun later => absurd rfl later⟩
            rw [Ne, List.drop_eq_nil_iff]
            omega
          · simp at contradicted
        · rename_i window_end
          have within : start + window < data.length := by omega
          rw [Nat.min_eq_left within.le] at split
          have bounds := snapToNewline_bounds within
          have length : (slice data start (snapToNewline data (start + window))).length =
              snapToNewline data (start + window) - start := by
            rw [slice, List.length_take_of_le]
            rw [List.length_drop]
            omega
          rcases List.cons_eq_append_iff.mp split with ⟨rfl, first⟩ | ⟨rest, rfl, later⟩
          · rcases List.cons.inj first with ⟨rfl, rfl⟩
            constructor
            · rw [← List.length_pos_iff, length]
              omega
            · intro more
              rw [List.flatten_nil, List.length_nil, Nat.add_zero]
              apply shortestPiece_slice within
              by_contra at_end
              exact more (fixedChunksLoop_of_le (Nat.not_lt.mp at_end) _ _)
          · have shape := ih later
            rw [List.flatten_cons, List.length_append, length]
            rwa [show start + (snapToNewline data (start + window) - start + rest.flatten.length) =
              snapToNewline data (start + window) + rest.flatten.length by omega]
      · simp at split

/-! ## The partition -/

theorem length_mul_le_length_flatten {window : Nat} {pieces : List Bytes}
    (long : ∀ piece ∈ pieces, window ≤ piece.length) :
    pieces.length * window ≤ pieces.flatten.length := by
  induction pieces with
  | nil => simp
  | cons piece rest ih =>
      have rest_long := ih fun other mem => long other (List.mem_cons_of_mem piece mem)
      have piece_long := long piece List.mem_cons_self
      rw [List.length_cons, List.flatten_cons, List.length_append, Nat.add_mul]
      omega

/-- Pieces longer than the window, but for the last, are few. -/
theorem length_le_of_long {window : Nat} (positive : 0 < window) {pieces : List Bytes}
    (long : ∀ piece ∈ pieces.dropLast, window ≤ piece.length) :
    pieces.length ≤ pieces.flatten.length / window + 1 := by
  rcases pieces.eq_nil_or_concat with rfl | ⟨init, last, rfl⟩
  · exact Nat.zero_le _
  · rw [List.concat_eq_append] at long ⊢
    rw [List.dropLast_concat] at long
    have total := length_mul_le_length_flatten long
    rw [List.length_append, List.length_singleton, List.flatten_append, List.length_append]
    apply Nat.succ_le_succ
    rw [Nat.le_div_iff_mul_le positive]
    omega

/-- `fixed_chunks` ends, and its slices hold the data in order.  None is empty, every one
but the last is the shortest piece from its offset on that ends on a newline and is longer
than the window, and there are no more than the capacity reserved for them. -/
theorem fixedChunks_shape (data : Bytes) (chunkSize : Option Nat) :
    let window := max (chunkSize.getD CHUNK_SIZE_BYTES) 1
    (∀ fuel, data.length ≤ fuel → fixedChunksLoop data window fuel 0 = fixedChunks data chunkSize) ∧
      (fixedChunks data chunkSize).flatten = data ∧
      (∀ before piece after, fixedChunks data chunkSize = before ++ piece :: after →
        piece ≠ [] ∧ (after ≠ [] →
          ShortestPiece window (data.drop before.flatten.length) piece ∧
            newline ∉ (piece.drop window).dropLast)) ∧
      (fixedChunks data chunkSize).length ≤ data.length / window + 2 := by
  intro window
  have positive : 0 < window := Nat.lt_of_lt_of_le Nat.one_pos (Nat.le_max_right _ _)
  have loop : ∀ fuel, data.length ≤ fuel →
      fixedChunksLoop data window fuel 0 = fixedChunks data chunkSize := by
    intro fuel enough
    unfold fixedChunks
    split
    · rename_i empty
      rw [List.isEmpty_iff.mp empty]
      exact fixedChunksLoop_of_le (Nat.le_refl _) _ _
    · exact fixedChunksLoop_fuel positive (by omega) (by omega)
  have shape : ∀ before piece after, fixedChunks data chunkSize = before ++ piece :: after →
      piece ≠ [] ∧ (after ≠ [] → ShortestPiece window (data.drop before.flatten.length) piece) := by
    intro before piece after split
    rw [← loop data.length (Nat.le_refl _)] at split
    simpa using shape_of_mem_fixedChunksLoop positive split
  refine ⟨loop, flatten_fixedChunks data chunkSize, ?_, ?_⟩
  · intro before piece after split
    rcases shape before piece after split with ⟨nonempty, shortest⟩
    exact ⟨nonempty, fun more => ⟨shortest more, (shortest more).free⟩⟩
  · have long : ∀ piece ∈ (fixedChunks data chunkSize).dropLast, window ≤ piece.length := by
      intro piece mem
      rcases List.append_of_mem mem with ⟨before, after, split⟩
      have last := List.dropLast_append_getLast (List.ne_nil_of_mem (List.dropLast_subset _ mem))
      rw [split, List.append_assoc, List.cons_append] at last
      exact ((shape before piece _ last.symm).2 (by simp)).long.le
    have count := length_le_of_long positive long
    rw [flatten_fixedChunks] at count
    exact Nat.le_succ_of_le count

end Parq.Chunk
