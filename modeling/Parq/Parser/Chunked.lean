import Parq.Chunk.Core
import Parq.Parser.Correctness
import Mathlib.Algebra.BigOperators.Fin

/-!
# Parsing a file in chunks

A call on the whole input and the calls on its chunks read the same lines, so
they succeed together and deliver the same rows and quarantined lines, however
the batches are cut.
-/

namespace Parq.Parser

open Parq.Chunk
open Parq.Data

theorem recordsOf_fixedChunks (J : SerdeJson) (flattenJson : Bool) (data : Bytes)
    (chunkSize : Option Nat) :
    recordsOf J flattenJson (splitLines data) =
      (fixedChunks data chunkSize).flatMap fun chunk =>
        recordsOf J flattenJson (splitLines chunk) :=
  filterMap_splitLines_fixedChunks (record?_nil J flattenJson) data chunkSize

theorem rejectedOf_fixedChunks (J : SerdeJson) (data : Bytes) (chunkSize : Option Nat) :
    rejectedOf J (splitLines data) =
      (fixedChunks data chunkSize).flatMap fun chunk => rejectedOf J (splitLines chunk) :=
  filterMap_splitLines_fixedChunks (rejected?_nil J) data chunkSize

theorem lineOk_nil (J : SerdeJson) (o : ParseOptions) : LineOk J o [] :=
  lineOk_of_blank trimmed?_nil

/-- The calls on the chunks all succeed exactly when every line of the data is
acceptable. -/
theorem parseChunks_isOk_iff (J : SerdeJson) (o : ParseOptions) (data : Bytes)
    (chunkSize : Option Nat) :
    (∀ chunk ∈ fixedChunks data chunkSize,
        ∃ parsed, (parseChunk J o none chunk).result = .ok parsed) ↔
      ∀ line ∈ splitLines data, LineOk J o line := by
  rw [forall_splitLines_fixedChunks_iff (lineOk_nil J o) data chunkSize]
  apply forall₂_congr
  intro chunk _
  rw [parseChunk_isOk_iff, considered_none]

/-- What the calls on a list of chunks deliver, added up. -/
theorem parts_deliver {J : SerdeJson} {o : ParseOptions} {chunks : List Bytes} {parts : List Parsed}
    (parsed : List.Forall₂ (fun chunk part => (parseChunk J o none chunk).result = .ok part)
      chunks parts) :
    (parts.flatMap fun part => part.batches.flatMap RecordBatch.rows) =
        (chunks.flatMap fun chunk => recordsOf J o.flattenJson (splitLines chunk)).map
          (rowOf J o.schema) ∧
      (parts.map Parsed.rowsOk).sum =
        (chunks.flatMap fun chunk => recordsOf J o.flattenJson (splitLines chunk)).length ∧
      (parts.map Parsed.rowsSkipped).sum =
        (chunks.flatMap fun chunk => rejectedOf J (splitLines chunk)).length ∧
      (chunks.flatMap fun chunk => (parseChunk J o none chunk).deadLetters) =
        if o.deadLetterTx then chunks.flatMap fun chunk => rejectedOf J (splitLines chunk)
          else [] := by
  induction parsed with
  | nil => simp
  | @cons chunk part chunks parts head _ ih =>
      obtain ⟨delivers, letters⟩ := parseChunk_eq_ok head
      rw [considered_none] at delivers letters
      rcases ih with ⟨rows, rowsOk, rowsSkipped, deadLetters⟩
      refine ⟨?_, ?_, ?_, ?_⟩
      · rw [List.flatMap_cons, delivers.rows, rows, List.flatMap_cons, List.map_append]
      · rw [List.map_cons, List.sum_cons, delivers.rowsOk, rowsOk, List.flatMap_cons,
          List.length_append]
      · rw [List.map_cons, List.sum_cons, delivers.rowsSkipped, rowsSkipped, List.flatMap_cons,
          List.length_append]
      · rw [List.flatMap_cons, letters, deadLetters]
        cases o.deadLetterTx <;> simp

/-- Chunking is transparent: the call on the whole data succeeds exactly when the
calls on all its chunks do, and then delivers what they deliver together. -/
theorem parseChunk_iff_parseChunks (J : SerdeJson) (o : ParseOptions) (data : Bytes)
    (chunkSize : Option Nat) :
    ((∃ whole, (parseChunk J o none data).result = .ok whole) ↔
        ∀ chunk ∈ fixedChunks data chunkSize,
          ∃ part, (parseChunk J o none chunk).result = .ok part) ∧
      ∀ whole parts, (parseChunk J o none data).result = .ok whole →
        List.Forall₂ (fun chunk part => (parseChunk J o none chunk).result = .ok part)
          (fixedChunks data chunkSize) parts →
        whole.batches.flatMap RecordBatch.rows =
            (parts.flatMap fun part => part.batches.flatMap RecordBatch.rows) ∧
          (parseChunk J o none data).deadLetters =
            ((fixedChunks data chunkSize).flatMap fun chunk =>
              (parseChunk J o none chunk).deadLetters) ∧
          whole.rowsOk = (parts.map Parsed.rowsOk).sum ∧
          whole.rowsSkipped = (parts.map Parsed.rowsSkipped).sum := by
  constructor
  · rw [parseChunks_isOk_iff, parseChunk_isOk_iff, considered_none]
  · intro whole parts succeeded parsed
    obtain ⟨delivers, letters⟩ := parseChunk_eq_ok succeeded
    rw [considered_none] at delivers letters
    obtain ⟨rows, rowsOk, rowsSkipped, deadLetters⟩ := parts_deliver parsed
    refine ⟨?_, ?_, ?_, ?_⟩
    · rw [delivers.rows, rows, recordsOf_fixedChunks J o.flattenJson data chunkSize]
    · rw [letters, deadLetters, rejectedOf_fixedChunks J data chunkSize]
    · rw [delivers.rowsOk, rowsOk, recordsOf_fixedChunks J o.flattenJson data chunkSize]
    · rw [delivers.rowsSkipped, rowsSkipped, rejectedOf_fixedChunks J data chunkSize]

theorem parseChunk_iff_parseChunks_two_lines :
    ∃ whole first second,
      (parseChunk .sample (.oneColumn .int64 false) none
        (ascii "\x7b\"a\":1\x7d\n\x7b\"a\":true\x7d")).result = .ok whole ∧
      (parseChunk .sample (.oneColumn .int64 false) none (ascii "\x7b\"a\":1\x7d\n")).result =
        .ok first ∧
      (parseChunk .sample (.oneColumn .int64 false) none (ascii "\x7b\"a\":true\x7d")).result =
        .ok second ∧
      whole.batches.flatMap RecordBatch.rows =
        first.batches.flatMap RecordBatch.rows ++ (second.batches.flatMap RecordBatch.rows ++ []) :=
  ⟨_, _, _, rfl, rfl, rfl,
    ((parseChunk_iff_parseChunks .sample (.oneColumn .int64 false)
      (ascii "\x7b\"a\":1\x7d\n\x7b\"a\":true\x7d") (some 1)).2 _ [_, _] rfl
      (.cons rfl (.cons rfl .nil))).1⟩

end Parq.Parser
