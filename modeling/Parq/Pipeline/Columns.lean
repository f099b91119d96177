import Parq.Pipeline.Shards

/-!
# Selecting columns

A schema may leave out columns of another, repeat them and list them in another order.
What the fuller schema converts the narrower one converts as well, to the rows with the
selected cells: a column is stored without regard to the others.
-/

namespace Parq.Pipeline

open Parq.Data
open Parq.Parser
open Parq.Sequence
open Parq.Transition

/-- The cells of a row under `fields` for the fields `selected`. -/
def selectColumns (fields selected : List Field) (row : Row) : Row :=
  selected.map fun field => row.getD (fields.idxOf field) .null

section Lines

variable {J : SerdeJson} {o : ParseOptions} {fields selected : List Field}

/-- The cell of a record is found at the place of its field. -/
theorem getD_rowOf {field : Field} (mem : field ∈ fields) (obj : Map) :
    (rowOf J ⟨fields⟩ obj).getD (fields.idxOf field) .null = cellOf J field obj := by
  have inside := List.idxOf_lt_length_of_mem mem
  rw [rowOf, List.getD_eq_getElem?_getD, List.getElem?_map, List.getElem?_eq_getElem inside,
    List.getElem_idxOf inside]
  rfl

/-- The row of a record under the selected fields is the selection from its row. -/
theorem rowOf_selected (subset : selected ⊆ fields) (obj : Map) :
    rowOf J ⟨selected⟩ obj = selectColumns fields selected (rowOf J ⟨fields⟩ obj) :=
  List.map_congr_left fun _ mem => (getD_rowOf (subset mem) obj).symm

theorem firstMismatch_selected (subset : selected ⊆ fields) {obj : Map}
    (clear : firstMismatch ⟨fields⟩ obj = none) : firstMismatch ⟨selected⟩ obj = none := by
  rw [firstMismatch, List.findSome?_eq_none_iff] at clear ⊢
  intro field mem
  exact clear field (subset mem)

/-- A line that is acceptable for some fields is so for a selection from them. -/
theorem lineOk_selected {line : Bytes} (schema : o.schema.fields = fields)
    (subset : selected ⊆ fields) (nonempty : selected ≠ []) (ok : LineOk J o line) :
    LineOk J { o with schema := ⟨selected⟩ } line := by
  subst schema
  rcases ok with ⟨harmless, writable⟩
  constructor
  · unfold lineError at harmless ⊢
    dsimp only at harmless ⊢
    split
    · rfl
    · rename_i strict
      rw [if_neg strict] at harmless
      split at harmless
      · rfl
      · cases harmless
      · rw [Option.map_eq_none_iff] at harmless ⊢
        exact firstMismatch_selected subset harmless
  · intro obj read
    exact ⟨nonempty, fun field mem => (writable obj read).2 field (subset mem)⟩

end Lines

/-- The same run with these fields as its schema. -/
def Setup.selecting (S : Setup) (selected : List Field) : Setup :=
  { S with schema := ⟨selected⟩ }

theorem Setup.allParsed_selecting {S : Setup} {selected : List Field}
    (subset : selected ⊆ S.schema.fields) (nonempty : selected ≠ []) (all : S.plan.AllParsed) :
    (S.selecting selected).plan.AllParsed := by
  rw [Setup.allParsed_iff] at all ⊢
  intro chunk chunk_mem line line_mem
  exact lineOk_selected rfl subset nonempty (all chunk chunk_mem line line_mem)

/-- A run with a selection from the columns of another converts the same records, to
the selected cells of their rows. -/
structure Selects (selected : List Field) (run part : OkRun) : Prop where
  rows : part.rows.Perm
    (run.rows.map (selectColumns run.setup.schema.fields selected))
  processed : part.metrics.rowsProcessed = run.metrics.rowsProcessed
  errored : part.metrics.rowsErrored = run.metrics.rowsErrored
  letters : run.setup.config.deadLetterPath.isSome = true → part.letters.Perm run.letters

/-- Selecting columns commutes with converting, in strict and in lenient mode, with any
limit and under any interleavings. -/
theorem selecting_commutes {S : Setup} {selected : List Field}
    (subset : selected ⊆ S.schema.fields) (nonempty : selected ≠ []) :
    ((∃ run : OkRun, run.setup = S) → ∃ part : OkRun, part.setup = S.selecting selected) ∧
      ∀ run part : OkRun, run.setup = S → part.setup = S.selecting selected →
        Selects selected run part := by
  constructor
  · rw [exists_okRun_iff, exists_okRun_iff]
    exact Setup.allParsed_selecting subset nonempty
  · rintro ⟨S, s, metrics, reached, returned⟩ ⟨T, t, metrics', reached', returned'⟩ rfl rfl
    have delivered := reached.delivered returned
    have delivered' := reached'.delivered returned'
    constructor
    · have rows : S.accepted.map (S.selecting selected).row =
          (S.accepted.map S.row).map (selectColumns S.schema.fields selected) := by
        rw [List.map_map]
        exact List.map_congr_left fun obj _ => rowOf_selected subset obj
      have same := delivered'.rows
      change t.rowsWritten.Perm (S.accepted.map (S.selecting selected).row) at same
      rw [rows] at same
      exact same.trans (delivered.rows.symm.map _)
    · exact delivered'.processed.trans delivered.processed.symm
    · exact delivered'.errored.trans delivered.errored.symm
    · intro path
      have letters := OkRun.letters_perm ⟨S, s, metrics, reached, returned⟩ path
      have letters' := OkRun.letters_perm
        ⟨S.selecting selected, t, metrics', reached', returned'⟩ path
      exact letters'.trans letters.symm

/-- Of three columns one is left out and the other two change places, in a run on two
records and a malformed line. -/
theorem selecting_commutes_two_columns :
    ∃ (selected : List Field) (run part : OkRun), selected.map Field.name = ["b", "a"] ∧
      run.rows = [[.int64 1, .boolean true, .null], [.int64 7, .null, .null]] ∧
      run.metrics.rowsErrored = 1 ∧ part.setup = run.setup.selecting selected ∧
      Selects selected run part := by
  let config := { PipelineConfig.default with ignoreErrors := true }
  let first : Field := ⟨"a", .int64, true⟩
  let second : Field := ⟨"b", .boolean, true⟩
  let S : Setup :=
    { Setup.sample config
        (ascii "\x7b\"a\":1,\"b\":true\x7d\nx\n\x7b\"a\":\"7\"\x7d") with
      json := .twoKeys
      schema := ⟨[first, second, ⟨"c", .utf8, true⟩]⟩ }
  let schedule : List (Action S.plan) :=
    .writer none :: List.replicate 7 (.closure ⟨0, by decide⟩) ++
      List.replicate 6 (.closure ⟨1, by decide⟩) ++ List.replicate 7 (.closure ⟨2, by decide⟩) ++
      List.replicate 6 (.writer none) ++ List.replicate 3 .main
  have reached : Reached S.plan _ :=
    reachable_of_run (fun _ _ => trivial) (rfl : run (step S.plan) schedule (.initial _) = some _)
  obtain ⟨run, setup, rows, errored⟩ : ∃ run : OkRun, run.setup = S ∧
      run.rows = [[.int64 1, .boolean true, .null], [.int64 7, .null, .null]] ∧
      run.metrics.rowsErrored = 1 :=
    ⟨⟨S, _, _, reached, rfl⟩, rfl, rfl, rfl⟩
  have subset : [second, first] ⊆ S.schema.fields := by
    simp [S]
  obtain ⟨exists_part, selects⟩ := selecting_commutes subset (List.cons_ne_nil _ _)
  obtain ⟨part, part_setup⟩ := exists_part ⟨run, setup⟩
  exact ⟨_, run, part, rfl, rows, errored, setup ▸ part_setup, selects run part setup part_setup⟩

end Parq.Pipeline
