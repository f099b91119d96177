import Parq.Data.Error
import Mathlib.Logic.Function.Basic

/-!
# Schema inference and explicit schemas

`infer_schema` scans the first lines of the input and promotes the type of each
key by the values it meets; the order of the fields is the order in which the
keys first had a value.  `load_schema_from_file` reads the fields from a JSON
array instead.
-/

namespace Parq.Schema

open Parq.Data

/-- `strip_bom`. -/
def stripBom (data : Bytes) : Bytes :=
  if byteOrderMark.isPrefixOf data then data.drop byteOrderMark.length else data

/-! ## Type helpers -/

/-- `value_type`. -/
def valueType : Value → DataType
  | .null => .null
  | .bool _ => .boolean
  | .number n => if n.isI64 then .int64 else .float64
  | _ => .utf8

/-- `merge`. -/
def merge (a b : DataType) : DataType :=
  if a = b then a
  else
    match a, b with
    | .null, x => x
    | x, .null => x
    | .boolean, .int64 | .int64, .boolean => .int64
    | .boolean, .float64 | .float64, .boolean => .float64
    | .int64, .float64 | .float64, .int64 => .float64
    | .utf8, _ | _, .utf8 => .utf8
    | _, _ => .utf8

/-- `promote`. -/
def promote (current : DataType) (value : Value) : DataType :=
  merge current (valueType value)

/-- `str_to_datatype`. -/
def strToDatatype : String → DataType
  | "Boolean" => .boolean
  | "Int8" => .int8
  | "Int16" => .int16
  | "Int32" => .int32
  | "Int64" => .int64
  | "UInt8" => .uint8
  | "UInt16" => .uint16
  | "UInt32" => .uint32
  | "UInt64" => .uint64
  | "Float32" => .float32
  | "Float64" => .float64
  | "Date32" => .date32
  | "Timestamp" => .timestamp .microsecond none
  | _ => .utf8

/-! ## Inference -/

/-- The local variables of `infer_schema`.  The hash map is a partial function. -/
structure InferState where
  fieldTypes : String → Option DataType
  fieldOrder : List String
  rowsSeen : Nat

namespace InferState

/-- The state before the first line. -/
def initial : InferState where
  fieldTypes := fun _ => none
  fieldOrder := []
  rowsSeen := 0

/-- The body of the loop over the members of an object. -/
def member (s : InferState) (entry : String × Value) : InferState :=
  let (key, val) := entry
  let current := (s.fieldTypes key).getD .null
  let promoted := promote current val
  { s with
    fieldTypes := Function.update s.fieldTypes key (some promoted)
    fieldOrder :=
      if current = .null ∧ promoted ≠ .null then s.fieldOrder ++ [key] else s.fieldOrder }

/-- The loop over the members of a sampled value; a value that is not an object
has none. -/
def sampled (s : InferState) : Value → InferState
  | .object obj => obj.foldl member s
  | _ => s

end InferState

/-- The body of the loop over the lines. -/
def inferLine (J : SerdeJson) (s : InferState) (line : Bytes) : Except Error InferState :=
  let trimmed := trimAscii line
  if trimmed.isEmpty then
    .ok s
  else
    match J.fromSlice trimmed with
    | .error e => .error (.jsonParse (s.rowsSeen + 1) e)
    | .ok value => .ok { s.sampled value with rowsSeen := s.rowsSeen + 1 }

/-- The loop over the lines. -/
def inferLines (J : SerdeJson) : List Bytes → InferState → Except Error InferState
  | [], s => .ok s
  | line :: lines, s =>
      match inferLine J s line with
      | .error e => .error e
      | .ok s => inferLines J lines s

/-- The lines that `infer_schema` looks at. -/
def sampleLines (data : Bytes) (sampleSize : Nat) : List Bytes :=
  (splitLines (stripBom data)).take sampleSize

/-- `infer_schema`. -/
def inferSchema (J : SerdeJson) (data : Bytes) (sampleSize : Nat) : Except Error Schema :=
  match inferLines J (sampleLines data sampleSize) .initial with
  | .error e => .error e
  | .ok s =>
      if s.rowsSeen = 0 then
        .error (.insufficientData 0)
      else
        .ok ⟨s.fieldOrder.map fun name => ⟨name, (s.fieldTypes name).getD .utf8, true⟩⟩

/-! ## Explicit schemas -/

/-- `content.strip_prefix("\u{feff}").unwrap_or(&content)`. -/
def stripMark (content : String) : String :=
  match content.toList with
  | '\uFEFF' :: rest => .ofList rest
  | _ => content

/-- The field that an entry of the schema file describes. -/
def fieldOfEntry (entry : Value) : Field where
  name := ((entry.index "name").asStr).getD "unknown"
  dataType := strToDatatype (((entry.index "type").asStr).getD "Utf8")
  nullable := ((entry.index "nullable").asBool).getD true

/-- `load_schema_from_file`, with the outcome of `read_to_string` on its path. -/
def loadSchemaFromFile (J : SerdeJson) (content : Except String String) : Except Error Schema :=
  match content with
  | .error message => .error (.io message)
  | .ok content =>
      match J.fromStrVec (stripMark content) with
      | .error e => .error (.json e)
      | .ok entries => .ok ⟨entries.map fieldOfEntry⟩

/-- A loaded schema declares only types that have a name in the format. -/
theorem exists_name_of_mem_loaded {J : SerdeJson} {content : Except String String} {schema : Schema}
    (loaded : loadSchemaFromFile J content = .ok schema) {field : Field}
    (mem : field ∈ schema.fields) :
    ∃ name, field.dataType = strToDatatype name := by
  unfold loadSchemaFromFile at loaded
  split at loaded
  · cases loaded
  · split at loaded
    · cases loaded
    · cases loaded
      rcases List.mem_map.mp mem with ⟨entry, _, rfl⟩
      exact ⟨_, rfl⟩

end Parq.Schema
