import Parq.Parser.Numbering
import Parq.Parser.Refinement
import Parq.Parser.Strict

/-!
# The batches that a call builds

`parse_chunk` forms a batch whenever its builders are full, and one of the rest at its end.
How many it has formed, also when it ends early, is decided by the records in front of the
line or the record that ends it.
-/

namespace Parq.Parser

open Parq.Data
open Parq.Sequence

/-! ## Counting batches -/

/-- The number of batches that `parse_chunk` builds, those of a call that fails
included. -/
def builtBatches (J : SerdeJson) (o : ParseOptions) (limit : Option Nat) (data : Bytes) : Nat :=
  match parseLines J o limit (splitLines data) (.initial o.schema) with
  | (s, some _) => s.batches.length
  | (s, none) =>
      match finishChunk o.schema s with
      | .ok parsed => parsed.batches.length
      | .error _ => s.batches.length

/-- How many batches a number of rows fills. -/
def batchCount (batchSize rows : Nat) : Nat :=
  (rows + (max batchSize 1 - 1)) / max batchSize 1

theorem batchCount_le_one_iff (batchSize rows : Nat) :
    batchCount batchSize rows ≤ 1 ↔ rows ≤ max batchSize 1 := by
  have positive : 0 < max batchSize 1 := Nat.lt_of_lt_of_le Nat.one_pos (Nat.le_max_right _ _)
  rw [batchCount, ← Nat.lt_succ_iff, Nat.div_lt_iff_lt_mul positive]
  omega

/-- A successful call makes one batch for every `batch_size` rows or part of them. -/
theorem length_batches {J : SerdeJson} {o : ParseOptions} {lines : List Bytes} {parsed : Parsed}
    (delivers : Delivers J o lines parsed) :
    parsed.batches.length = batchCount o.batchSize (recordsOf J o.flattenJson lines).length := by
  have positive : 0 < max o.batchSize 1 := Nat.lt_of_lt_of_le Nat.one_pos (Nat.le_max_right _ _)
  rw [← delivers.rowsOk, ← delivers.sum_numRows, batchCount]
  have full := delivers.full
  have sizes := delivers.sizes
  rcases parsed.batches.eq_nil_or_concat with empty | ⟨init, last, split⟩
  · rw [empty]
    exact (Nat.div_eq_of_lt (by simpa using Nat.sub_lt positive Nat.one_pos)).symm
  · rw [split, List.concat_eq_append, List.dropLast_concat] at full
    have bounds := sizes last (by simp [split])
    have total : (init.map RecordBatch.numRows).sum = init.length * max o.batchSize 1 := by
      rw [List.map_congr_left full, List.map_const', List.sum_replicate, smul_eq_mul]
    rw [split, List.concat_eq_append, List.map_append, List.sum_append, total]
    simp only [List.map_cons, List.map_nil, List.sum_cons, List.sum_nil, List.length_append,
      List.length_cons, List.length_nil]
    apply Eq.symm
    apply Nat.div_eq_of_lt_le
    · rw [Nat.add_mul]
      omega
    · rw [Nat.add_mul, Nat.add_mul]
      omega

/-! ## Decisions about records and lines -/

instance (field : Field) (cell : Cell) : Decidable (AdmitsCell field cell) :=
  inferInstanceAs (Decidable (_ ∧ _))

instance (J : SerdeJson) (schema : Schema) (obj : Map) : Decidable (Writable J schema obj) :=
  inferInstanceAs (Decidable (_ ∧ _))

instance (J : SerdeJson) (o : ParseOptions) (line : Bytes) : Decidable (LineOk J o line) :=
  inferInstanceAs (Decidable (_ ∧ ∀ obj ∈ record? J o.flattenJson line, _))

/-! ## From the input -/

/-- The records of the lines before the first error, up to the first one that cannot be
written. -/
def storedRecords (J : SerdeJson) (o : ParseOptions) (limit : Option Nat) (data : Bytes) :
    List Map :=
  (recordsOf J o.flattenJson (linesBeforeError J o limit data)).takeWhile fun obj =>
    Writable J o.schema obj

/-- The batches that the lines make up: those of all records when each line is acceptable,
and otherwise the full ones of the records that are stored before the end. -/
def batchesOf (J : SerdeJson) (o : ParseOptions) (limit : Option Nat) (data : Bytes) : Nat :=
  if ∀ line ∈ considered J o.flattenJson limit 0 (splitLines data), LineOk J o line then
    batchCount o.batchSize (storedRecords J o limit data).length
  else
    (storedRecords J o limit data).length / max o.batchSize 1

/-- With a bad element in front, the good ones at the start end before it. -/
theorem length_takeWhile_append_lt {α : Type} {good : α → Bool} {xs : List α}
    (bad : ¬ ∀ x ∈ xs, good x = true) (ys : List α) :
    ((xs ++ ys).takeWhile good).length < xs.length := by
  have shorter : (xs.takeWhile good).length ≠ xs.length := by
    intro same
    exact bad (List.takeWhile_eq_self_iff.mp ((List.takeWhile_prefix good).eq_of_length same))
  rw [List.takeWhile_append, if_neg shorter]
  exact lt_of_le_of_ne (List.takeWhile_prefix good).length_le shorter

section Built

variable {J : SerdeJson} {o : ParseOptions} {limit : Option Nat} {data : Bytes}
  {seen after : List Bytes} {flushed pending : List Map} {s last : ChunkState}

/-- Of records of which the flushed ones can be written, and fewer than a batch of the
others come before one that cannot, the full batches are the flushed ones. -/
theorem Tracks.length_takeWhile_div (tracks : Tracks J o seen flushed pending s)
    {others : List Map}
    (room : (others.takeWhile fun obj => Writable J o.schema obj).length < max o.batchSize 1) :
    ((flushed ++ others).takeWhile fun obj => Writable J o.schema obj).length /
      max o.batchSize 1 = s.batches.length := by
  have written : ∀ obj ∈ flushed, decide (Writable J o.schema obj) = true :=
    fun obj mem => decide_eq_true (tracks.writable obj mem)
  rw [List.takeWhile_append_of_pos written, List.length_append, tracks.length_flushed]
  apply Nat.div_eq_of_lt_le
  · omega
  · rw [Nat.add_mul]
    omega

theorem batches_of_storeRecord {obj : Map} {e : Error}
    (failed : storeRecord J o s obj = .fail last e) : last.batches = s.batches := by
  unfold storeRecord at failed
  split at failed
  · cases failed
    rfl
  · dsimp only at failed
    split at failed
    · split at failed <;> cases failed
      rfl
    · cases failed

/-- A pass that fails leaves the batches as they are. -/
theorem batches_of_fail {line : Bytes} {e : Error}
    (failed : lineStep J o limit s line = .fail last e) : last.batches = s.batches := by
  rw [lineStep_eq] at failed
  split at failed
  · cases failed
  · split at failed
    · cases failed
    · split at failed <;> cases failed
      rfl
    · have kept := batches_of_storeRecord failed
      exact kept

/-- Accepted lines that come first are in front of the first error. -/
theorem linesBeforeError_of_accepted
    (split : considered J o.flattenJson limit 0 (splitLines data) = seen ++ after)
    (accepted : ∀ other ∈ seen, lineError J o 0 other = none) :
    linesBeforeError J o limit data =
      seen ++ after.takeWhile fun line => (lineError J o 0 line).isNone := by
  rw [linesBeforeError, split, List.takeWhile_append_of_pos (by simpa using accepted)]

/-- A call that fails has formed the full batches of the records that are stored before its
end. -/
theorem builtBatches_of_error {e : Error} (failed : (parseChunk J o limit data).result = .error e) :
    builtBatches J o limit data = (storedRecords J o limit data).length / max o.batchSize 1 := by
  unfold builtBatches storedRecords
  unfold parseChunk at failed
  cases loop : parseLines J o limit (splitLines data) (.initial o.schema) with
  | mk s ended =>
      rw [loop] at failed
      cases ended with
      | none =>
          dsimp only at failed ⊢
          have read := parseLines_ended (tracks_initial J o) rfl limit (splitLines data)
          rw [loop, recordsOf_nil, List.length_nil, List.nil_append] at read
          cases read with
          | @read flushed pending _ tracks =>
              rw [failed, linesBeforeError_of_accepted (List.append_nil _).symm tracks.accepted,
                List.takeWhile_nil, List.append_nil, ← tracks.records]
              apply (tracks.length_takeWhile_div ?_).symm
              exact (List.takeWhile_prefix _).length_le.trans_lt tracks.room
      | some e' =>
          dsimp only
          obtain ⟨before, line, after, flushed, pending, s', split, tracks, numbered, stepped⟩ :=
            exists_failing_line (tracks_initial J o) rfl loop
          rw [List.nil_append] at tracks numbered
          rw [batches_of_fail stepped]
          have pass := lineStep_pass tracks numbered limit line
          rw [stepped] at pass
          cases pass with
          | reject within refused letters =>
              have bad : (lineError J o 0 line).isNone = false := by
                rw [← Bool.not_eq_true, Option.isNone_iff_eq_none,
                  ← lineError_eq_none_iff J o (before.length + 1), refused]
                simp
              rw [linesBeforeError_of_accepted split tracks.accepted, List.takeWhile_cons, bad,
                if_neg Bool.false_ne_true, List.append_nil, ← tracks.records]
              apply (tracks.length_takeWhile_div ?_).symm
              exact (List.takeWhile_prefix _).length_le.trans_lt tracks.room
          | spoil _ harmless =>
              obtain ⟨obj, is_record, filled, unwritable⟩ := tracks.filled_of_fail harmless stepped
              have accepted : ∀ other ∈ before ++ [line], lineError J o 0 other = none := by
                simpa [or_imp, forall_and, harmless] using tracks.accepted
              rw [linesBeforeError_of_accepted (split.trans (List.append_cons _ _ _)) accepted,
                recordsOf_append, ← tracks.records_append is_record, List.append_assoc]
              apply (tracks.length_takeWhile_div ?_).symm
              rw [← filled]
              exact length_takeWhile_append_lt (by simpa using unwritable) _

/-- A call that succeeds has formed the batches it returns. -/
theorem builtBatches_of_ok {parsed : Parsed}
    (succeeded : (parseChunk J o limit data).result = .ok parsed) :
    builtBatches J o limit data = parsed.batches.length := by
  unfold builtBatches
  unfold parseChunk at succeeded
  generalize parseLines J o limit (splitLines data) (.initial o.schema) = last at succeeded
  rcases last with ⟨s, _ | e⟩
  · dsimp only at succeeded ⊢
    rw [succeeded]
  · cases succeeded

theorem storedRecords_of_lineOk
    (ok : ∀ line ∈ considered J o.flattenJson limit 0 (splitLines data), LineOk J o line) :
    storedRecords J o limit data =
      recordsOf J o.flattenJson (considered J o.flattenJson limit 0 (splitLines data)) := by
  have accepted := linesBeforeError_of_accepted (List.append_nil _).symm fun line mem =>
    (ok line mem).1
  rw [List.takeWhile_nil, List.append_nil] at accepted
  rw [storedRecords, accepted, List.takeWhile_eq_self_iff]
  intro obj mem
  rcases List.mem_filterMap.mp mem with ⟨line, line_mem, read⟩
  exact decide_eq_true ((ok line line_mem).2 obj read)

/-- The batches that a call forms are those that its lines make up. -/
theorem builtBatches_eq (J : SerdeJson) (o : ParseOptions) (limit : Option Nat) (data : Bytes) :
    builtBatches J o limit data = batchesOf J o limit data := by
  unfold batchesOf
  split
  · rename_i ok
    obtain ⟨parsed, succeeded⟩ := parseChunk_isOk_iff.mpr ok
    rw [builtBatches_of_ok succeeded, storedRecords_of_lineOk ok]
    exact length_batches (parseChunk_eq_ok succeeded).1
  · rename_i some_bad
    cases outcome : (parseChunk J o limit data).result with
    | ok parsed => exact absurd (parseChunk_isOk_iff.mp ⟨parsed, outcome⟩) some_bad
    | error e => exact builtBatches_of_error outcome

end Built

end Parq.Parser
