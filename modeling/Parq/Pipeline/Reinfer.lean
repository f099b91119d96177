import Parq.Pipeline.Reconvert
import Parq.Pipeline.Reorder

/-!
# Inferring the schema of the output

The rows of a run, written as JSON lines that are read back exactly, can be converted without
the schema that they were converted under.  Inference finds the columns in which some row has
a value, each with the type that it had, and the rows are the rows that they were without the
columns that hold nothing but nulls.
-/

namespace Parq.Pipeline

open Parq.Data
open Parq.Parser
open Parq.Schema
open Parq.Sequence
open Parq.Transition

/-! ## The types of written values -/

/-- A written value has the type of the column that holds its cell. -/
theorem valueType_cellValue {built : DataType} {cell : Cell} {value : Value}
    (held : HeldBy built cell) (finite : ∀ f, cell = .float64 f → f.isFinite = true)
    (written : cellValue cell = some value) : valueType value = built := by
  cases held with
  | null => cases written
  | boolean b | utf8 s =>
      cases written
      rfl
  | int64 n =>
      cases written
      rw [valueType, if_pos (isI64_ofI64 n)]
  | float64 f =>
      cases written
      rw [floatValue_of_finite (finite f rfl)]
      rfl

/-! ## Columns with a value -/

/-- The columns are as inference makes them. -/
structure Inferable (fields : List Field) : Prop where
  distinct : (fields.map Field.name).Nodup
  nullable : ∀ field ∈ fields, field.nullable = true
  native : ∀ field ∈ fields, field.dataType ∈ nativeTypes

/-- The cell of a row for a field. -/
def cellAt (fields : List Field) (field : Field) (row : Row) : Cell :=
  row.getD (fields.idxOf field) .null

/-- Some row has a cell other than null for the field. -/
def OkRun.HasValue (run : OkRun) (field : Field) : Prop :=
  ∃ row ∈ run.rows, cellAt run.setup.schema.fields field row ≠ .null

/-- The cells of a run that are floats are finite. -/
def OkRun.Finite (run : OkRun) : Prop :=
  ∀ row ∈ run.rows, ∀ f, Cell.float64 f ∈ row → f.isFinite = true

section Cells

variable {run : OkRun} {field : Field} {row : Row}

theorem OkRun.cellAt_eq {obj : Map} (mem : field ∈ run.setup.schema.fields) :
    cellAt run.setup.schema.fields field (rowOf run.setup.json run.setup.schema obj) =
      cellOf run.setup.json field obj :=
  getD_rowOf mem obj

/-- A row is written with the cell of each of its fields. -/
theorem OkRun.get_rowObject (distinct : (run.setup.schema.fields.map Field.name).Nodup)
    (row_mem : row ∈ run.rows) (mem : field ∈ run.setup.schema.fields) :
    (rowObject run.setup.schema.fields row).get field.name =
      cellValue (cellAt run.setup.schema.fields field row) := by
  obtain ⟨obj, rfl, _⟩ := run.row_of_record row_mem
  rw [run.cellAt_eq mem]
  exact Parser.get_rowObject distinct (fun field => cellOf run.setup.json field obj) mem

/-- A written cell has the type of its column. -/
theorem OkRun.valueType_eq (finite : run.Finite) (row_mem : row ∈ run.rows)
    (mem : field ∈ run.setup.schema.fields) (native : field.dataType ∈ nativeTypes) {value : Value}
    (written : cellValue (cellAt run.setup.schema.fields field row) = some value) :
    valueType value = field.dataType := by
  have each := finite row row_mem
  obtain ⟨obj, rfl, _⟩ := run.row_of_record row_mem
  rw [run.cellAt_eq mem] at written
  rw [← builtType_of_mem_nativeTypes native]
  refine valueType_cellValue (heldBy_storedCell _ _ _) ?_ written
  intro f cell_eq
  apply each f
  rw [← cell_eq]
  exact List.mem_map_of_mem mem

end Cells

/-! ## The inferred columns -/

/-- The input lists the rows of `run` as JSON objects, one on each line that is not blank, in
any order, and the lines behind the first 10,000 are blank.  Each listed row is read back
exactly, which `serde_json` does not promise of every float. -/
structure Relists (run : OkRun) (print : Map → Bytes) (input : Bytes) : Prop where
  lines : (nonBlankLines input).Perm
    (run.rows.map fun row => print (rowObject run.setup.schema.fields row))
  reads : ∀ row ∈ run.rows,
    run.setup.json.fromSlice (print (rowObject run.setup.schema.fields row)) =
      .ok (.object (rowObject run.setup.schema.fields row))
  within : ∀ line ∈ (splitLines input).drop 10000, trimmed? line = none

section Relists

variable {run : OkRun} {print : Map → Bytes} {input : Bytes} (relists : Relists run print input)

include relists

theorem Relists.readable :
    ∀ text ∈ nonBlankLines input, ∃ value, run.setup.json.fromSlice text = .ok value := by
  intro text mem
  rcases List.mem_map.mp (relists.lines.mem_iff.mp mem) with ⟨row, row_mem, rfl⟩
  exact ⟨_, relists.reads row row_mem⟩

theorem Relists.seenWhole : SeenWhole input where
  unmarked := by
    intro marked
    have same := stripBom_eq_self relists.readable
    rw [stripBom, if_pos (List.isPrefixOf_iff_prefix.mpr marked)] at same
    have shorter := congrArg List.length same
    have long := marked.length_le
    have three : byteOrderMark.length = 3 := rfl
    rw [List.length_drop] at shorter
    omega
  within := relists.within

/-- With the schema of `run`, a run on the input without a limit reads the rows again. -/
theorem Relists.rereads {T : Setup} (json : T.json = run.setup.json)
    (input_eq : T.input = input) (unlimited : T.config.limit = none) :
    Rereads run print (T.selecting run.setup.schema.fields) := by
  subst input_eq
  refine ⟨json, rfl, unlimited, relists.lines, ?_⟩
  intro row mem
  exact (congrArg (fun J : SerdeJson => J.fromSlice _) json).trans (relists.reads row mem)

end Relists

section Columns

variable {run : OkRun} {print : Map → Bytes} {T : Setup} (rereads : Rereads run print T)
  (inferable : Inferable run.setup.schema.fields) (finite : run.Finite)

include rereads inferable

/-- The members of the input are the written cells of the rows. -/
theorem Rereads.mem_membersOf_iff {key : String} {value : Value} :
    (key, value) ∈ membersOf T.json (nonBlankLines T.input) ↔
      ∃ field ∈ run.setup.schema.fields, field.name = key ∧ ∃ row ∈ run.rows,
        cellValue (cellAt run.setup.schema.fields field row) = some value := by
  rw [Schema.mem_membersOf_iff]
  constructor
  · rintro ⟨record, mem, found⟩
    rcases List.mem_map.mp ((rereads.recordsOf_perm false).mem_iff.mp mem) with ⟨row, row_mem, rfl⟩
    by_cases declared : key ∈ run.setup.schema.fields.map Field.name
    · rcases List.mem_map.mp declared with ⟨field, field_mem, rfl⟩
      rw [OkRun.get_rowObject inferable.distinct row_mem field_mem] at found
      exact ⟨field, field_mem, rfl, row, row_mem, found⟩
    · rw [get_rowObject_of_not_mem declared] at found
      cases found
  · rintro ⟨field, field_mem, rfl, row, row_mem, written⟩
    refine ⟨_, (rereads.recordsOf_perm false).mem_iff.mpr (List.mem_map_of_mem row_mem), ?_⟩
    rw [OkRun.get_rowObject inferable.distinct row_mem field_mem, written]

theorem Rereads.columnRung_ne_bot_iff {key : String} :
    columnRung (membersOf T.json (nonBlankLines T.input)) key ≠ ⊥ ↔
      ∃ field ∈ run.setup.schema.fields, field.name = key ∧ run.HasValue field := by
  rw [Schema.columnRung_ne_bot_iff]
  constructor
  · rintro ⟨value, mem, _⟩
    obtain ⟨field, field_mem, named, row, row_mem, written⟩ :=
      (rereads.mem_membersOf_iff inferable).mp mem
    refine ⟨field, field_mem, named, row, row_mem, ?_⟩
    rw [Ne, ← cellValue_eq_none_iff, written]
    exact Option.some_ne_none value
  · rintro ⟨field, field_mem, named, row, row_mem, valued⟩
    rw [Ne, ← cellValue_eq_none_iff, ← Ne, Option.ne_none_iff_exists'] at valued
    obtain ⟨value, written⟩ := valued
    refine ⟨value, ?_, cellValue_ne_null written⟩
    exact (rereads.mem_membersOf_iff inferable).mpr
      ⟨field, field_mem, named, row, row_mem, written⟩

include finite

/-- Inference gives a column with a value its type. -/
theorem Rereads.dataType_columnRung {field : Field} (mem : field ∈ run.setup.schema.fields)
    (valued : run.HasValue field) :
    (columnRung (membersOf T.json (nonBlankLines T.input)) field.name).dataType =
      field.dataType := by
  have typed := (rereads.columnRung_ne_bot_iff inferable).mpr ⟨field, mem, rfl, valued⟩
  obtain ⟨value, member, rung⟩ := exists_rungOf_eq typed
  obtain ⟨other, other_mem, named, row, row_mem, written⟩ :=
    (rereads.mem_membersOf_iff inferable).mp member
  obtain rfl := List.inj_on_of_nodup_map inferable.distinct other_mem mem named
  rw [← rung, ← valueType_eq]
  exact OkRun.valueType_eq finite row_mem mem (inferable.native other mem) written

/-- The inferred columns are those with a value, as they were. -/
theorem Rereads.mem_inferred_iff {schema : Schema}
    (determines : Determines T.json (nonBlankLines T.input) schema) (field : Field) :
    field ∈ schema.fields ↔ field ∈ run.setup.schema.fields ∧ run.HasValue field := by
  have same : ∀ other ∈ run.setup.schema.fields, run.HasValue other →
      (⟨other.name, (columnRung (membersOf T.json (nonBlankLines T.input)) other.name).dataType,
        true⟩ : Field) = other := by
    intro other mem valued
    rw [rereads.dataType_columnRung inferable finite mem valued, ← inferable.nullable other mem]
  rw [determines.mem_fields_iff, rereads.columnRung_ne_bot_iff inferable]
  constructor
  · rintro ⟨⟨other, mem, named, valued⟩, field_eq⟩
    rw [← named, same other mem valued] at field_eq
    subst field_eq
    exact ⟨mem, valued⟩
  · rintro ⟨mem, valued⟩
    exact ⟨⟨field, mem, rfl, valued⟩, (same field mem valued).symm⟩

end Columns

/-! ## Converting the output without its schema -/

/-- A run on the output of another has the columns of the other in which some row has a
value, and the rows without the columns in which none has. -/
structure Reinfers (run again : OkRun) : Prop where
  columns : ∀ field, field ∈ again.setup.schema.fields ↔
    field ∈ run.setup.schema.fields ∧ run.HasValue field
  rows : again.rows.Perm
    (run.rows.map (selectColumns run.setup.schema.fields again.setup.schema.fields))
  errored : again.metrics.rowsErrored = 0

section Reinfers

variable {run again : OkRun} {print : Map → Bytes} {host : Host} {config : PipelineConfig}
  {input : Bytes} {T : Setup}

/-- What a prepared run on the output has. -/
theorem Relists.prepared (relists : Relists run print input)
    (opened : host.openInput config.inputPath = .ok input) (inferred : config.schemaPath = none)
    (unlimited : config.limit = none)
    (prepared : prepare run.setup.json host config = .ok T) :
    Rereads run print (T.selecting run.setup.schema.fields) ∧
      Determines T.json (nonBlankLines T.input) T.schema := by
  obtain ⟨json, own, input_eq, schema⟩ := prepare_eq_ok inferred prepared
  obtain rfl := Except.ok.inj (opened.symm.trans input_eq)
  have limit : T.config.limit = none := by rw [own, unlimited]
  rw [← json] at schema
  exact ⟨relists.rereads json rfl limit, relists.seenWhole.determines schema⟩

theorem Rereads.reinfers
    (rereads : Rereads run print (again.setup.selecting run.setup.schema.fields))
    (inferable : Inferable run.setup.schema.fields) (finite : run.Finite)
    (determines : Determines again.setup.json (nonBlankLines again.setup.input)
      again.setup.schema) : Reinfers run again := by
  have columns := rereads.mem_inferred_iff inferable finite determines
  have subset : again.setup.schema.fields ⊆ run.setup.schema.fields :=
    fun field mem => ((columns field).mp mem).1
  have unlimited : again.setup.config.limit = none := rereads.unlimited
  refine ⟨columns, ?_, ?_⟩
  · have records : again.setup.records.Perm
        (run.rows.map (rowObject run.setup.schema.fields)) := rereads.records_perm
    refine (again.rows_perm unlimited).trans ((records.map _).trans ?_)
    rw [List.map_map]
    apply List.Perm.of_eq
    apply List.map_congr_left
    intro row mem
    have same := rereads.row_eq inferable.distinct mem
    calc
      again.setup.row (rowObject run.setup.schema.fields row)
          = selectColumns run.setup.schema.fields again.setup.schema.fields
              ((again.setup.selecting run.setup.schema.fields).row
                (rowObject run.setup.schema.fields row)) := rowOf_selected subset _
      _ = selectColumns run.setup.schema.fields again.setup.schema.fields row := by rw [same]
  · have rejected : again.setup.rejected = [] := rereads.rejected_eq_nil
    rw [again.errored_eq unlimited, rejected, List.length_nil]

/-- A run on the output needs a column. -/
theorem Rereads.fields_ne_nil
    (rereads : Rereads run print (again.setup.selecting run.setup.schema.fields))
    (nonempty : nonBlankLines again.setup.input ≠ []) : again.setup.schema.fields ≠ [] := by
  obtain ⟨text, mem⟩ := List.exists_mem_of_ne_nil _ nonempty
  rcases List.mem_map.mp (rereads.lines.mem_iff.mp mem) with ⟨row, row_mem, rfl⟩
  have all := again.completed.parsed
  have unlimited : again.setup.config.limit = none := rereads.unlimited
  rw [(Setup.ReadsAlike.refl unlimited).allParsed_iff] at all
  have read : classify again.setup.json again.setup.options.flattenJson
      (print (rowObject run.setup.schema.fields row)) =
        .record (rowObject run.setup.schema.fields row) := rereads.classify_eq row_mem _
  have writable := (all _ mem).2 (rowObject run.setup.schema.fields row) (by rw [record?, read])
  exact writable.1

end Reinfers

/-- The output of a run, written as JSON lines that are read back exactly, can be converted
without the schema and without a limit exactly when some row has a value.  The columns with a
value come back with their types, in some order, the rows with their cells, and none is
rejected, in strict or lenient mode, with flattening or without and whatever the chunks,
batches and threads. -/
theorem output_reinfers {run : OkRun} {print : Map → Bytes} {host : Host} {config : PipelineConfig}
    {input : Bytes} (relists : Relists run print input)
    (inferable : Inferable run.setup.schema.fields) (finite : run.Finite)
    (opened : host.openInput config.inputPath = .ok input) (inferred : config.schemaPath = none)
    (unlimited : config.limit = none) :
    ((∃ again : OkRun, prepare run.setup.json host config = .ok again.setup) ↔
        ∃ field ∈ run.setup.schema.fields, run.HasValue field) ∧
      ∀ again : OkRun, prepare run.setup.json host config = .ok again.setup →
        Reinfers run again := by
  constructor
  · constructor
    · rintro ⟨again, prepared⟩
      obtain ⟨rereads, determines⟩ := relists.prepared opened inferred unlimited prepared
      have known := (prepare_isOk_iff inferred opened).mp ⟨_, prepared⟩
      have nonempty := (relists.seenWhole.inferSchema_isOk_iff.mp known).2
      have input_eq := Except.ok.inj (opened.symm.trans (prepare_setup prepared).2.2.1)
      rw [input_eq] at nonempty
      obtain ⟨field, mem⟩ := List.exists_mem_of_ne_nil _ (rereads.fields_ne_nil nonempty)
      exact ⟨field, (rereads.mem_inferred_iff inferable finite determines field).mp mem⟩
    · rintro ⟨field, mem, row, row_mem, valued⟩
      have nonempty : nonBlankLines input ≠ [] :=
        List.ne_nil_of_mem (relists.lines.mem_iff.mpr (List.mem_map_of_mem row_mem))
      obtain ⟨T, prepared⟩ := (prepare_isOk_iff inferred opened).mpr
        (relists.seenWhole.inferSchema_isOk_iff.mpr ⟨relists.readable, nonempty⟩)
      obtain ⟨rereads, determines⟩ := relists.prepared opened inferred unlimited prepared
      have columns := rereads.mem_inferred_iff inferable finite determines
      have listed := (columns field).mpr ⟨mem, row, row_mem, valued⟩
      have parsed : T.plan.AllParsed :=
        (T.selecting run.setup.schema.fields).allParsed_selecting
          (fun other inside => ((columns other).mp inside).1) (List.ne_nil_of_mem listed)
          (rereads.allParsed inferable.distinct)
      obtain ⟨again, rfl⟩ := (exists_okRun_iff T).mpr parsed
      exact ⟨again, prepared⟩
  · intro again prepared
    obtain ⟨rereads, determines⟩ := relists.prepared opened inferred unlimited prepared
    exact rereads.reinfers inferable finite determines

/-- Of three columns the third has no value in either row and is not found again. -/
theorem output_reinfers_two_rows :
    ∃ run again : OkRun,
      run.rows = [[.int64 1, .boolean true, .null], [.int64 7, .null, .null]] ∧
        ⟨"c", .utf8, true⟩ ∉ again.setup.schema.fields ∧ Reinfers run again := by
  let S : Setup :=
    { Setup.sample .default (ascii "\x7b\"a\":1,\"b\":true\x7d\n\x7b\"a\":\"7\"\x7d") with
      json := .twoKeys
      schema := ⟨[⟨"a", .int64, true⟩, ⟨"b", .boolean, true⟩, ⟨"c", .utf8, true⟩]⟩ }
  let output := ascii "\x7b\"a\":7\x7d\n\n\x7b\"a\":1,\"b\":true\x7d"
  let schedule : List (Action S.plan) :=
    .writer none :: List.replicate 7 (.closure ⟨0, by decide⟩) ++
      List.replicate 7 (.closure ⟨1, by decide⟩) ++ List.replicate 6 (.writer none) ++
      List.replicate 3 .main
  have reached : Reached S.plan _ :=
    reachable_of_run (fun _ _ => trivial) (rfl : run (step S.plan) schedule (.initial _) = some _)
  obtain ⟨first, setup, rows⟩ : ∃ first : OkRun, first.setup = S ∧
      first.rows = [[.int64 1, .boolean true, .null], [.int64 7, .null, .null]] :=
    ⟨⟨S, _, _, reached, rfl⟩, rfl, rfl⟩
  let print (written : Map) : Bytes :=
    if (written.get "b").isSome then ascii "\x7b\"a\":1,\"b\":true\x7d" else ascii "\x7b\"a\":7\x7d"
  have relists : Relists first print output := by
    constructor
    case lines =>
      rw [setup, rows]
      decide
    case reads =>
      rw [setup, rows]
      rintro row (_ | ⟨_, _ | ⟨_, ⟨⟩⟩⟩) <;> rfl
    case within => decide
  have inferable : Inferable first.setup.schema.fields := by
    rw [setup]
    exact ⟨by decide, by decide, by decide⟩
  have finite : first.Finite := by
    rw [OkRun.Finite, rows]
    rintro row (_ | ⟨_, _ | ⟨_, ⟨⟩⟩⟩) f mem <;> simp at mem
  have valued : first.HasValue ⟨"a", .int64, true⟩ := by
    rw [OkRun.HasValue, rows, setup]
    exact ⟨_, List.mem_cons_self, nofun⟩
  have valueless : ¬ first.HasValue ⟨"c", .utf8, true⟩ := by
    rw [OkRun.HasValue, rows, setup]
    rintro ⟨row, _ | ⟨_, _ | ⟨_, ⟨⟩⟩⟩, value⟩ <;> exact value rfl
  have opened : (Host.sample output).openInput PipelineConfig.default.inputPath = .ok output := rfl
  have reinfers := output_reinfers relists inferable finite opened rfl rfl
  have listed : ⟨"a", .int64, true⟩ ∈ first.setup.schema.fields := by
    rw [setup]
    exact List.mem_cons_self
  obtain ⟨again, prepared⟩ := reinfers.1.mpr ⟨_, listed, valued⟩
  have found := reinfers.2 again prepared
  exact ⟨first, again, rows, fun mem => valueless ((found.columns _).mp mem).2, found⟩

end Parq.Pipeline
