import Parq.Parser.Quarantine
import Mathlib.Algebra.BigOperators.Fin

/-!
# The chunk parser as a map over lines

What a call without a row limit returns is a function of its lines alone: the rows
are those of the lines that are records, cut into batches of `batch_size`, and the
counters count the non-blank lines.  In lenient mode a call returns so for all bytes,
provided the columns are nullable and of the types that the builders make.
-/

namespace Parq.Parser

open Parq.Data
open Parq.Sequence

/-! ## The batches of a call -/

/-- All finished batches are batches of the schema. -/
def Conforms (schema : Schema) (s : ChunkState) : Prop :=
  ∀ batch ∈ s.batches, batch.schema = schema

/-- The state in which the body of the loop ends. -/
def Flow.state : Flow → ChunkState
  | .next s | .stop s | .fail s _ => s

section Conforms

variable {J : SerdeJson} {o : ParseOptions} {s : ChunkState}

theorem schema_of_flush {schema : Schema} {builders fresh : List ColBuilder} {batch : RecordBatch}
    (formed : flush schema builders = .ok (batch, fresh)) : batch.schema = schema := by
  unfold flush at formed
  split at formed
  · rename_i accepted
    cases formed
    exact ((RecordBatch.tryNew_eq_ok_iff _ _ batch).mp accepted).1
  · cases formed

theorem Conforms.concat {schema : Schema} (conforms : Conforms schema s) {batch : RecordBatch}
    (same : batch.schema = schema) : ∀ other ∈ s.batches ++ [batch], other.schema = schema := by
  intro other mem
  rcases List.mem_append.mp mem with old | new
  · exact conforms other old
  · rw [List.mem_singleton.mp new, same]

theorem Conforms.storeRecord (conforms : Conforms o.schema s) (obj : Map) :
    Conforms o.schema (storeRecord J o s obj).state := by
  unfold Parser.storeRecord
  split
  · exact conforms
  · dsimp only
    split
    · split
      · exact conforms
      · rename_i formed
        exact conforms.concat (schema_of_flush formed)
    · exact conforms

theorem Conforms.lineStep (conforms : Conforms o.schema s) (limit : Option Nat) (line : Bytes) :
    Conforms o.schema (lineStep J o limit s line).state := by
  rw [lineStep_eq]
  split
  · exact conforms
  · split
    · exact conforms
    · split <;> exact conforms
    · exact Conforms.storeRecord (s := { s with lineNo := s.lineNo + 1 }) conforms _

theorem Conforms.parseLines (conforms : Conforms o.schema s) (limit : Option Nat)
    (lines : List Bytes) : Conforms o.schema (parseLines J o limit lines s).1 := by
  induction lines generalizing s with
  | nil => exact conforms
  | cons line lines ih =>
      have stepped := conforms.lineStep (J := J) limit line
      rw [Parser.parseLines]
      split
      · rename_i went
        rw [went] at stepped
        exact ih stepped
      · rename_i stopped
        rwa [stopped] at stepped
      · rename_i failed
        rwa [failed] at stepped

theorem Conforms.finishChunk {schema : Schema} (conforms : Conforms schema s) {parsed : Parsed}
    (finished : finishChunk schema s = .ok parsed) :
    ∀ batch ∈ parsed.batches, batch.schema = schema := by
  unfold Parser.finishChunk at finished
  split at finished
  · split at finished
    · cases finished
    · rename_i formed
      cases finished
      exact conforms.concat (schema_of_flush formed)
  · cases finished
    exact conforms

/-- Every batch that a call returns is a batch of its schema. -/
theorem schema_of_mem_batches {limit : Option Nat} {data : Bytes} {parsed : Parsed}
    (succeeded : (parseChunk J o limit data).result = .ok parsed) :
    ∀ batch ∈ parsed.batches, batch.schema = o.schema := by
  have initially : Conforms o.schema (.initial o.schema) := List.forall_mem_nil _
  have conforms := initially.parseLines (J := J) limit (splitLines data)
  unfold parseChunk at succeeded
  generalize Parser.parseLines J o limit (splitLines data) (.initial o.schema) = last at *
  rcases last with ⟨s, _ | e⟩
  · exact conforms.finishChunk succeeded
  · cases succeeded

end Conforms

/-! ## The line map -/

/-- The rows of the lines that are records, in order. -/
def lineMap (J : SerdeJson) (o : ParseOptions) (data : Bytes) : List Row :=
  (splitLines data).filterMap fun line => (record? J o.flattenJson line).map (rowOf J o.schema)

theorem lineMap_eq (J : SerdeJson) (o : ParseOptions) (data : Bytes) :
    lineMap J o data = (recordsOf J o.flattenJson (splitLines data)).map (rowOf J o.schema) := by
  rw [lineMap, recordsOf, List.map_filterMap]

/-- The size of the batches has no part in whether a line is acceptable. -/
theorem lineOk_batchSize (J : SerdeJson) (o : ParseOptions) (batchSize : Nat) (line : Bytes) :
    LineOk J { o with batchSize } line ↔ LineOk J o line :=
  Iff.rfl

/-- In strict mode an acceptable line is not rejected. -/
theorem rejected?_of_lineOk {J : SerdeJson} {o : ParseOptions} (strict : o.ignoreErrors = false)
    {line : Bytes} (ok : LineOk J o line) : rejected? J line = none := by
  have harmless := ok.1
  rw [rejected?_eq J o.flattenJson]
  cases read : classify J o.flattenJson line with
  | rejected text source => simp [lineError, strict, read] at harmless
  | _ => rfl

/-- In lenient mode a rejected line is acceptable. -/
theorem lineOk_of_rejected? {J : SerdeJson} {o : ParseOptions} (lenient : o.ignoreErrors = true)
    {line text : Bytes} (rejected : rejected? J line = some text) : LineOk J o line := by
  constructor
  · rw [lineError]
    exact if_pos lenient
  · intro record read
    rw [record?_of_rejected? o.flattenJson rejected] at read
    cases read

/-- The batches of a call add up to its rows. -/
theorem Delivers.sum_numRows {J : SerdeJson} {o : ParseOptions} {lines : List Bytes}
    {parsed : Parsed} (delivers : Delivers J o lines parsed) :
    (parsed.batches.map RecordBatch.numRows).sum = parsed.rowsOk := by
  have lengths := congrArg List.length delivers.rows
  rw [List.length_flatMap, List.length_map, ← delivers.rowsOk] at lengths
  simpa only [RecordBatch.length_rows] using lengths

/-- A call without a row limit that succeeds returns the rows of its lines in order, in
full batches but for the last one, with columns of equal length; it counts its rows, and
with the skipped lines, of which strict mode has none, all non-blank lines.  With another
batch size it succeeds as well and returns the same rows. -/
theorem parseChunk_refines_lineMap (J : SerdeJson) (o : ParseOptions) (data : Bytes)
    {parsed : Parsed} (succeeded : (parseChunk J o none data).result = .ok parsed) :
    parsed.batches.flatMap RecordBatch.rows = lineMap J o data ∧
      (∀ batch ∈ parsed.batches, ∀ column ∈ batch.columns, column.len = batch.numRows) ∧
      (∀ batch ∈ parsed.batches.dropLast, batch.numRows = max o.batchSize 1) ∧
      (∀ batch ∈ parsed.batches, 1 ≤ batch.numRows ∧ batch.numRows ≤ max o.batchSize 1) ∧
      parsed.rowsOk = (parsed.batches.map RecordBatch.numRows).sum ∧
      parsed.rowsOk + parsed.rowsSkipped = (nonBlankLines data).length ∧
      (o.ignoreErrors = false → parsed.rowsSkipped = 0) ∧
      ∀ batchSize, ∃ other, (parseChunk J { o with batchSize } none data).result = .ok other ∧
        other.batches.flatMap RecordBatch.rows = parsed.batches.flatMap RecordBatch.rows := by
  have lineOk := parseChunk_isOk_iff.mp ⟨parsed, succeeded⟩
  obtain ⟨delivers, _⟩ := parseChunk_eq_ok succeeded
  rw [considered_none] at lineOk delivers
  have rows := delivers.rows
  rw [← lineMap_eq] at rows
  refine ⟨rows, ?_, delivers.full, delivers.sizes, delivers.sum_numRows.symm, ?_, ?_, ?_⟩
  · exact fun batch _ => batch.lengths
  · rw [delivers.rowsOk, delivers.rowsSkipped]
    exact length_recordsOf_add_rejectedOf J o.flattenJson (splitLines data)
  · intro strict
    rw [delivers.rowsSkipped, List.length_eq_zero_iff, rejectedOf, List.filterMap_eq_nil_iff]
    exact fun line mem => rejected?_of_lineOk strict (lineOk line mem)
  · intro batchSize
    have lineOk' : ∀ line ∈ considered J o.flattenJson none 0 (splitLines data),
        LineOk J { o with batchSize } line := by
      simpa only [considered_none, lineOk_batchSize] using lineOk
    obtain ⟨other, succeeded'⟩ :=
      (@parseChunk_isOk_iff J { o with batchSize } none data).mpr lineOk'
    obtain ⟨delivers', _⟩ := parseChunk_eq_ok succeeded'
    rw [considered_none] at delivers'
    exact ⟨other, succeeded', by rw [delivers'.rows, delivers.rows]⟩

theorem parseChunk_refines_lineMap_two_lines :
    ∃ parsed,
      (parseChunk .sample (.oneColumn .int64 false) none
        (ascii "\x7b\"a\":1\x7d\n\x7b\"a\":1\x7d")).result = .ok parsed ∧
      parsed.batches.length = 2 ∧ lineMap .sample (.oneColumn .int64 false)
        (ascii "\x7b\"a\":1\x7d\n\x7b\"a\":1\x7d") = parsed.batches.flatMap RecordBatch.rows :=
  ⟨_, rfl, rfl, (parseChunk_refines_lineMap .sample (.oneColumn .int64 false)
    (ascii "\x7b\"a\":1\x7d\n\x7b\"a\":1\x7d") rfl).1.symm⟩

/-! ## Lenient calls -/

/-- In lenient mode no builder refuses a value. -/
theorem append_lenient (J : SerdeJson) (builder : ColBuilder) (val : Option Value) (line : Nat) :
    ∃ next, builder.append J val line true = .ok next := by
  obtain ⟨next, appended, _⟩ := append_eq_ok J builder val line true (.inr rfl)
  exact ⟨next, appended⟩

/-- The conditions of `RecordBatch::try_new` on the columns for a schema. -/
structure Formed (schema : Schema) (columns : List ArrayRef) (numRows : Nat) : Prop where
  nonempty : columns ≠ []
  count : columns.length = schema.fields.length
  lengths : ∀ column ∈ columns, column.len = numRows
  types : ∀ pair ∈ schema.fields.zip columns, pair.2.dataType = pair.1.dataType
  admitted : ∀ pair ∈ schema.fields.zip columns, pair.1.nullable = false → pair.2.nullCount = 0

theorem formed_batch (batch : RecordBatch) : Formed batch.schema batch.columns batch.numRows where
  nonempty := batch.nonempty
  count := batch.count
  lengths := batch.lengths
  types pair mem := by simpa [mistyped] using batch.types pair mem
  admitted pair mem required := by simpa [forbiddenNull, required] using batch.admitted pair mem

/-- A lenient call returns for all bytes: over nullable columns of native types no value
is refused, and every batch is formed. -/
theorem lenient_parseChunk_isOk (J : SerdeJson) {o : ParseOptions} (limit : Option Nat)
    (data : Bytes) (lenient : o.ignoreErrors = true) (declared : o.schema.fields ≠ [])
    (nullable : ∀ field ∈ o.schema.fields, field.nullable = true)
    (native : ∀ field ∈ o.schema.fields,
      field.dataType = .boolean ∨ field.dataType = .int64 ∨ field.dataType = .float64 ∨
        field.dataType = .utf8) :
    (∀ (builder : ColBuilder) val line,
        ∃ next, builder.append J val line o.ignoreErrors = .ok next) ∧
      ∃ parsed, (parseChunk J o limit data).result = .ok parsed ∧
        ∀ batch ∈ parsed.batches, Formed o.schema batch.columns batch.numRows := by
  have native_types : ∀ field ∈ o.schema.fields, field.dataType ∈ nativeTypes := by
    simpa [nativeTypes] using native
  constructor
  · intro builder val line
    rw [lenient]
    exact append_lenient J builder val line
  · have acceptable : ∀ line ∈ considered J o.flattenJson limit 0 (splitLines data),
        LineOk J o line := by
      intro line _
      constructor
      · simp [lineError, lenient]
      · exact fun record _ => writable_of_native J declared nullable native_types record
    obtain ⟨parsed, succeeded⟩ := parseChunk_isOk_iff.mpr acceptable
    refine ⟨parsed, succeeded, ?_⟩
    intro batch mem
    rw [← schema_of_mem_batches succeeded batch mem]
    exact formed_batch batch

theorem lenient_parseChunk_isOk_malformed :
    ∃ parsed, (parseChunk .sample (.oneColumn .boolean true) none
      (ascii "\x7b\"a\":1\x7d\nx")).result = .ok parsed := by
  obtain ⟨_, parsed, succeeded, _⟩ :=
    lenient_parseChunk_isOk .sample (o := .oneColumn .boolean true) none
      (ascii "\x7b\"a\":1\x7d\nx") rfl (by decide) (by decide) (by decide)
  exact ⟨parsed, succeeded⟩

end Parq.Parser
