import Parq.Data.Numeral
import Mathlib.Data.List.Basic

/-!
# Arrow schemas, arrays and record batches

The part of Arrow that the parser builds and the writer receives.  A
`RecordBatch` carries the conditions under which `RecordBatch::try_new` accepts
its columns, so a batch that disagrees with its schema cannot be formed.
-/

namespace Parq.Data

/-- `arrow::datatypes::TimeUnit`. -/
inductive TimeUnit
  | second
  | millisecond
  | microsecond
  | nanosecond
  deriving DecidableEq

/-- `arrow::datatypes::DataType`.  `other` stands for the types that the code
never names and only its catch-all branches see. -/
inductive DataType
  | null
  | boolean
  | int8
  | int16
  | int32
  | int64
  | uint8
  | uint16
  | uint32
  | uint64
  | float32
  | float64
  | date32
  | timestamp (unit : TimeUnit) (timezone : Option String)
  | utf8
  | other (name : String)
  deriving DecidableEq

/-- `arrow::datatypes::Field`. -/
structure Field where
  name : String
  dataType : DataType
  nullable : Bool
  deriving DecidableEq

/-- `arrow::datatypes::Schema`. -/
structure Schema where
  fields : List Field
  deriving DecidableEq

/-- One entry of a column. -/
inductive Cell
  | null
  | boolean (b : Bool)
  | int64 (n : Int64)
  | float64 (f : F64)
  | utf8 (s : String)
  deriving DecidableEq

/-- The cells of one record, in schema order. -/
abbrev Row := List Cell

/-! ## Arrays -/

/-- The arrays that the column builders finish into. -/
inductive ArrayRef
  | null (len : Nat)
  | boolean (values : List (Option Bool))
  | int64 (values : List (Option Int64))
  | float64 (values : List (Option F64))
  | utf8 (values : List (Option String))
  deriving DecidableEq

/-- The cell of an optional array entry. -/
def Cell.ofOption {α : Type} (wrap : α → Cell) : Option α → Cell
  | none => .null
  | some a => wrap a

namespace ArrayRef

/-- `Array::data_type`. -/
def dataType : ArrayRef → DataType
  | .null _ => .null
  | .boolean _ => .boolean
  | .int64 _ => .int64
  | .float64 _ => .float64
  | .utf8 _ => .utf8

/-- The entries of an array as cells. -/
def cells : ArrayRef → List Cell
  | .null len => List.replicate len .null
  | .boolean values => values.map (Cell.ofOption .boolean)
  | .int64 values => values.map (Cell.ofOption .int64)
  | .float64 values => values.map (Cell.ofOption .float64)
  | .utf8 values => values.map (Cell.ofOption .utf8)

/-- `Array::len`. -/
def len (array : ArrayRef) : Nat :=
  array.cells.length

/-- `Array::null_count`, the number of nulls in the validity buffer.  A
`NullArray` has no validity buffer and counts none. -/
def nullCount (array : ArrayRef) : Nat :=
  match array with
  | .null _ => 0
  | _ => array.cells.count .null

end ArrayRef

/-! ## Record batches -/

/-- The reasons for which `RecordBatch::try_new` refuses its columns. -/
inductive ArrowError
  | columnCount (columns fields : Nat)
  | noColumns
  | nullInNonNullable (field : String)
  | lengthMismatch
  | typeMismatch (expected found : DataType)
  deriving DecidableEq

/-- A column contains a null that its field does not admit. -/
def forbiddenNull (pair : Field × ArrayRef) : Bool :=
  !pair.1.nullable && decide (0 < pair.2.nullCount)

/-- A column is not of the type its field declares. -/
def mistyped (pair : Field × ArrayRef) : Bool :=
  pair.2.dataType ≠ pair.1.dataType

/-- `arrow::record_batch::RecordBatch`: at least one column, one for each field
and of its type, all of one length, with nulls only where the field admits
them. -/
structure RecordBatch where
  schema : Schema
  columns : List ArrayRef
  numRows : Nat
  nonempty : columns ≠ []
  count : columns.length = schema.fields.length
  admitted : ∀ pair ∈ schema.fields.zip columns, forbiddenNull pair = false
  lengths : ∀ column ∈ columns, column.len = numRows
  types : ∀ pair ∈ schema.fields.zip columns, mistyped pair = false
  deriving DecidableEq

namespace RecordBatch

/-- `RecordBatch::try_new`, with its checks in their order. -/
def tryNew (schema : Schema) (columns : List ArrayRef) : Except ArrowError RecordBatch :=
  if count : columns.length = schema.fields.length then
    if nonempty : columns = [] then .error .noColumns
    else
      match admitted : (schema.fields.zip columns).find? forbiddenNull with
      | some (field, _) => .error (.nullInNonNullable field.name)
      | none =>
          if lengths : ∀ column ∈ columns, column.len = (columns.head nonempty).len then
            match types : (schema.fields.zip columns).find? mistyped with
            | some (field, column) => .error (.typeMismatch field.dataType column.dataType)
            | none =>
                .ok {
                  schema, columns, nonempty, count, lengths
                  numRows := (columns.head nonempty).len
                  admitted := by simpa using admitted
                  types := by simpa using types }
          else .error .lengthMismatch
  else .error (.columnCount columns.length schema.fields.length)

/-- A batch is accepted exactly for the schema and the columns it holds. -/
theorem tryNew_eq_ok_iff (schema : Schema) (columns : List ArrayRef) (batch : RecordBatch) :
    tryNew schema columns = .ok batch ↔ batch.schema = schema ∧ batch.columns = columns := by
  constructor
  · intro accepted
    unfold tryNew at accepted
    split at accepted
    · split at accepted
      · contradiction
      · split at accepted
        · contradiction
        · split at accepted
          · split at accepted
            · contradiction
            · cases accepted
              exact ⟨rfl, rfl⟩
          · contradiction
    · contradiction
  · rintro ⟨rfl, rfl⟩
    rcases batch with ⟨schema, columns, numRows, nonempty, count, admitted, lengths, types⟩
    have head_len : (columns.head nonempty).len = numRows :=
      lengths _ (List.head_mem nonempty)
    have no_null : (schema.fields.zip columns).find? forbiddenNull = none := by
      simpa using admitted
    have no_mistype : (schema.fields.zip columns).find? mistyped = none := by
      simpa using types
    unfold tryNew
    rw [dif_pos count, dif_neg nonempty]
    split
    · rename_i found
      rw [no_null] at found
      contradiction
    · rw [dif_pos (by rwa [head_len])]
      split
      · rename_i found
        rw [no_mistype] at found
        contradiction
      · simp [head_len]

/-- The rows of a batch: one cell of each column. -/
def rows (batch : RecordBatch) : List Row :=
  (List.range batch.numRows).map fun i => batch.columns.map fun column =>
    column.cells.getD i .null

@[simp]
theorem length_rows (batch : RecordBatch) : batch.rows.length = batch.numRows := by
  simp [rows]

/-- Columns that list one cell for each item give a row for each item. -/
theorem rows_eq_map {ι α : Type} {batch : RecordBatch} {keys : List ι} {items : List α}
    {cell : ι → α → Cell}
    (cells : batch.columns.map ArrayRef.cells = keys.map fun key => items.map (cell key)) :
    batch.numRows = items.length ∧
      batch.rows = items.map fun item => keys.map fun key => cell key item := by
  have row_at : ∀ i, batch.columns.map (fun column => column.cells.getD i .null) =
      keys.map fun key => (items.map (cell key)).getD i .null := by
    intro i
    have mapped := congrArg (List.map fun entries => entries.getD i Cell.null) cells
    simpa only [List.map_map, Function.comp_def] using mapped
  have count : batch.numRows = items.length := by
    have mem := List.head_mem batch.nonempty
    have listed := List.mem_map_of_mem (f := ArrayRef.cells) mem
    rw [cells, List.mem_map] at listed
    rcases listed with ⟨key, _, key_cells⟩
    rw [← batch.lengths _ mem, ArrayRef.len, ← key_cells, List.length_map]
  refine ⟨count, ?_⟩
  apply List.ext_getElem
  · simp [count]
  · intro i _ bound
    have inside : i < items.length := by simpa using bound
    rw [List.getElem_map]
    simp only [rows, List.getElem_map, List.getElem_range, row_at]
    simp [inside]

end RecordBatch

end Parq.Data
