import Parq.Parser.Exported
import Parq.Pipeline.Shards

/-!
# Converting the output again

The rows of a run, written as JSON lines and converted under the same schema, are the rows
that they were.  Whatever the first run coerced or dropped on the way is settled once: a
second conversion finds nothing to reject and nothing to change, if every line is read back
as what it was written from.  That is assumed, for `serde_json` without its feature
`float_roundtrip` reads some floats back as their neighbours.
-/

namespace Parq.Pipeline

open Parq.Chunk
open Parq.Data
open Parq.Flatten
open Parq.Parser
open Parq.Transition

/-- The input of `T` lists the rows of `run` as JSON objects, one on each line that is not
blank, in any order; `T` has the schema of `run` and no limit.  Each listed row is read back
exactly: of integers, truth values and texts `serde_json` promises this, of floats not. -/
structure Rereads (run : OkRun) (print : Map → Bytes) (T : Setup) : Prop where
  json : T.json = run.setup.json
  schema : T.schema = run.setup.schema
  unlimited : T.config.limit = none
  lines : (nonBlankLines T.input).Perm
    (run.rows.map fun row => print (rowObject run.setup.schema.fields row))
  reads : ∀ row ∈ run.rows,
    T.json.fromSlice (print (rowObject run.setup.schema.fields row)) =
      .ok (.object (rowObject run.setup.schema.fields row))

/-- Each row of a run is that of a record that can be stored. -/
theorem OkRun.row_of_record (run : OkRun) {row : Row} (mem : row ∈ run.rows) :
    ∃ obj, row = rowOf run.setup.json run.setup.schema obj ∧
      Writable run.setup.json run.setup.schema obj := by
  rcases List.mem_map.mp (run.delivered.rows.mem_iff.mp mem) with ⟨obj, accepted, rfl⟩
  exact ⟨obj, rfl, run.writable accepted⟩

section Rereads

variable {run : OkRun} {print : Map → Bytes} {T : Setup} (rereads : Rereads run print T)

include rereads

/-- A row is on a line of its own, from which it is read as the object it was written
as, with flattening or without. -/
theorem Rereads.classify_eq {row : Row} (mem : row ∈ run.rows) (flattenJson : Bool) :
    classify T.json flattenJson (print (rowObject run.setup.schema.fields row)) =
      .record (rowObject run.setup.schema.fields row) := by
  have listed : print (rowObject run.setup.schema.fields row) ∈ nonBlankLines T.input :=
    rereads.lines.mem_iff.mpr (List.mem_map_of_mem mem)
  rcases List.mem_filterMap.mp listed with ⟨line, _, trimmed⟩
  have flat : dispatched T.json flattenJson (rowObject run.setup.schema.fields row) =
      rowObject run.setup.schema.fields row := by
    unfold dispatched
    split
    · exact flattenObject_eq_self (sorted_rowObject _ row) (allScalar_rowObject _ row)
    · rfl
  rw [classify, trimmed?_text trimmed]
  simp only [rereads.reads row mem, flat]

/-- The records of the texts are the rows as objects, with flattening or without. -/
theorem Rereads.recordsOf_perm (flattenJson : Bool) :
    (recordsOf T.json flattenJson (nonBlankLines T.input)).Perm
      (run.rows.map (rowObject run.setup.schema.fields)) := by
  refine (rereads.lines.filterMap _).trans ?_
  rw [List.filterMap_map]
  apply List.Perm.of_eq
  rw [← List.filterMap_eq_map]
  apply List.filterMap_congr
  intro row mem
  rw [Function.comp_apply, record?, rereads.classify_eq mem]
  rfl

theorem Rereads.records_perm :
    T.records.Perm (run.rows.map (rowObject run.setup.schema.fields)) := by
  rw [(Setup.ReadsAlike.refl rereads.unlimited).records]
  exact rereads.recordsOf_perm T.config.flatten

theorem Rereads.rejected_eq_nil : T.rejected = [] := by
  rw [(Setup.ReadsAlike.refl rereads.unlimited).rejected, rejectedOf,
    List.filterMap_eq_nil_iff]
  intro text listed
  rcases List.mem_map.mp (rereads.lines.mem_iff.mp listed) with ⟨row, mem, rfl⟩
  rw [rejected?, rereads.classify_eq mem]

variable (distinct : (run.setup.schema.fields.map Field.name).Nodup)

include distinct

theorem Rereads.row_eq {row : Row} (mem : row ∈ run.rows) :
    T.row (rowObject run.setup.schema.fields row) = row := by
  rcases run.row_of_record mem with ⟨obj, rfl, _⟩
  rw [Setup.row, rereads.json, rereads.schema]
  exact rowOf_rowObject distinct obj

theorem Rereads.allParsed : T.plan.AllParsed := by
  rw [(Setup.ReadsAlike.refl rereads.unlimited).allParsed_iff]
  intro text listed
  rcases List.mem_map.mp (rereads.lines.mem_iff.mp listed) with ⟨row, mem, rfl⟩
  rcases run.row_of_record mem with ⟨obj, rfl, writable⟩
  have read := rereads.classify_eq mem T.options.flattenJson
  constructor
  · unfold lineError
    rw [read]
    split
    · rfl
    · dsimp only
      rw [Setup.options, rereads.schema, firstMismatch_rowObject distinct obj]
      rfl
  · intro record found
    rw [record?, read, Option.some.injEq] at found
    subst found
    rw [Setup.options, rereads.json, rereads.schema]
    exact writable_rowObject distinct obj writable

end Rereads

/-- The rows of a run, written as JSON lines that are read back exactly, are converted to
themselves: under the same schema and without a limit, in strict or lenient mode, with
flattening or without and whatever the chunks, batches and threads, some run on them returns
`Ok`, and each one that does writes the same rows and rejects nothing. -/
theorem output_reconverts {run : OkRun} {print : Map → Bytes} {T : Setup}
    (rereads : Rereads run print T)
    (distinct : (run.setup.schema.fields.map Field.name).Nodup) :
    (∃ again : OkRun, again.setup = T) ∧
      ∀ again : OkRun, again.setup = T →
        again.rows.Perm run.rows ∧
          again.metrics.rowsProcessed = run.metrics.rowsProcessed ∧
          again.metrics.rowsErrored = 0 := by
  constructor
  · exact (exists_okRun_iff T).mpr (rereads.allParsed distinct)
  · rintro again rfl
    have rows : again.rows.Perm run.rows := by
      refine (again.rows_perm rereads.unlimited).trans ((rereads.records_perm.map _).trans ?_)
      rw [List.map_map]
      apply List.Perm.of_eq
      conv_rhs => rw [← List.map_id run.rows]
      exact List.map_congr_left fun row mem => rereads.row_eq distinct mem
    refine ⟨rows, ?_, ?_⟩
    · have written := again.rows_perm rereads.unlimited
      rw [again.processed_eq rereads.unlimited, run.delivered.processed]
      have counted := run.delivered.rows.length_eq
      rw [List.length_map] at counted
      rw [← counted, ← List.length_map (f := again.setup.row), ← written.length_eq]
      exact rows.length_eq
    · rw [again.errored_eq rereads.unlimited, rereads.rejected_eq_nil, List.length_nil]

/-- Of a record the text `"7"` became an integer, and comes back as one, before the other
record and beside a blank line. -/
theorem output_reconverts_two_rows :
    ∃ run again : OkRun, run.rows = [[.int64 1, .boolean true], [.int64 7, .null]] ∧
      again.setup.input = ascii "\x7b\"a\":7\x7d\n\n\x7b\"a\":1,\"b\":true\x7d" ∧
      again.rows.Perm run.rows ∧ again.metrics.rowsErrored = 0 := by
  let ofInput (input : Bytes) : Setup :=
    { Setup.sample .default input with
      json := .twoKeys
      schema := ⟨[⟨"a", .int64, true⟩, ⟨"b", .boolean, true⟩]⟩ }
  let S := ofInput (ascii "\x7b\"a\":1,\"b\":true\x7d\n\x7b\"a\":\"7\"\x7d")
  let T := ofInput (ascii "\x7b\"a\":7\x7d\n\n\x7b\"a\":1,\"b\":true\x7d")
  let schedule : List (Action S.plan) :=
    .writer none :: List.replicate 7 (.closure ⟨0, by decide⟩) ++
      List.replicate 7 (.closure ⟨1, by decide⟩) ++ List.replicate 6 (.writer none) ++
      List.replicate 3 .main
  have reached : Reached S.plan _ :=
    reachable_of_run (fun _ _ => trivial) (rfl : run (step S.plan) schedule (.initial _) = some _)
  obtain ⟨first, setup, rows⟩ : ∃ first : OkRun, first.setup = S ∧
      first.rows = [[.int64 1, .boolean true], [.int64 7, .null]] :=
    ⟨⟨S, _, _, reached, rfl⟩, rfl, rfl⟩
  let print (written : Map) : Bytes :=
    if (written.get "b").isSome then ascii "\x7b\"a\":1,\"b\":true\x7d" else ascii "\x7b\"a\":7\x7d"
  have rereads : Rereads first print T := by
    constructor
    case json | schema =>
      rw [setup]
    case unlimited => rfl
    case lines =>
      rw [setup, rows]
      decide
    case reads =>
      rw [setup, rows]
      rintro row (_ | ⟨_, _ | ⟨_, ⟨⟩⟩⟩) <;> rfl
  have distinct : (first.setup.schema.fields.map Field.name).Nodup := by
    rw [setup]
    decide
  obtain ⟨again, same⟩ := (output_reconverts rereads distinct).1
  obtain ⟨again_rows, _, errored⟩ := (output_reconverts rereads distinct).2 again same
  exact ⟨first, again, rows, same ▸ rfl, again_rows, errored⟩

end Parq.Pipeline
