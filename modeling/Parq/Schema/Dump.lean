import Parq.Schema.Inference

/-!
# Printing a schema

`schema_to_json_string` writes a schema in the format that `load_schema_from_file`
reads.  The two tables of type names are no inverses of each other, but on the types
that inference produces reading undoes printing.  The printer of `serde_json` is a
parameter.
-/

namespace Parq.Schema

open Parq.Data
open Parq.Parser

/-- `datatype_to_str`. -/
def datatypeToStr : DataType → String
  | .boolean => "Boolean"
  | .int8 => "Int8"
  | .int16 => "Int16"
  | .int32 => "Int32"
  | .int64 => "Int64"
  | .uint8 => "UInt8"
  | .uint16 => "UInt16"
  | .uint32 => "UInt32"
  | .uint64 => "UInt64"
  | .float32 => "Float32"
  | .float64 => "Float64"
  | .date32 => "Date32"
  | _ => "Utf8"

/-- The `json!` entry of a field, with its members inserted in the order of the
source. -/
def entryOfField (field : Field) : Value :=
  let members := Map.insert [] "name" (.string field.name)
  let members := members.insert "type" (.string (datatypeToStr field.dataType))
  .object (members.insert "nullable" (.bool field.nullable))

/-- `schema_to_json_string`, where `pretty` is `serde_json::to_string_pretty` on a
vector of values. -/
def schemaToJsonString (pretty : List Value → Except JsonError String) (schema : Schema) :
    Except Error String :=
  match pretty (schema.fields.map entryOfField) with
  | .error e => .error (.json e)
  | .ok text => .ok text

/-- `serde_json` prints an array from its bracket on and parses back what it printed,
also with a newline behind it. -/
structure ParsesBack (J : SerdeJson) (pretty : List Value → Except JsonError String)
    (values : List Value) (text : String) : Prop where
  printed : pretty values = .ok text
  parsed : J.fromStrVec text = .ok values
  parsedLine : J.fromStrVec (text ++ "\n") = .ok values
  bracket : ∃ rest, text.toList = '[' :: rest

/-! ## Reading back -/

/-- The types whose name is read back as the type: all that have a name of their own,
and `Utf8`. -/
theorem strToDatatype_datatypeToStr_iff (declared : DataType) :
    strToDatatype (datatypeToStr declared) = declared ↔
      declared = .utf8 ∨ datatypeToStr declared ≠ "Utf8" := by
  cases declared <;> simp [datatypeToStr, strToDatatype]

theorem strToDatatype_datatypeToStr {declared : DataType} (native : declared ∈ nativeTypes) :
    strToDatatype (datatypeToStr declared) = declared := by
  rw [strToDatatype_datatypeToStr_iff]
  simp only [nativeTypes, List.mem_cons, List.not_mem_nil, or_false] at native
  rcases native with rfl | rfl | rfl | rfl <;> decide

/-- A field is read back with its name and nullability, whatever its type. -/
theorem fieldOfEntry_entryOfField (field : Field) :
    fieldOfEntry (entryOfField field) =
      { field with dataType := strToDatatype (datatypeToStr field.dataType) } := by
  simp [fieldOfEntry, entryOfField, Value.index, Map.get_insert, Value.asStr, Value.asBool]

/-- A field is read back as it was when its type is. -/
theorem fieldOfEntry_entryOfField_eq_self_iff (field : Field) :
    fieldOfEntry (entryOfField field) = field ↔
      strToDatatype (datatypeToStr field.dataType) = field.dataType := by
  rw [fieldOfEntry_entryOfField]
  constructor
  · exact fun same => congrArg Field.dataType same
  · intro same
    rw [same]

/-- A text that opens with a bracket has no byte order mark to strip. -/
theorem stripMark_of_bracket {content : String} (bracket : ∃ rest, content.toList = '[' :: rest) :
    stripMark content = content := by
  rcases bracket with ⟨rest, opened⟩
  unfold stripMark
  split
  · rename_i marked
    rw [opened, List.cons.injEq] at marked
    exact absurd marked.1 (by decide)
  · rfl

/-- Loading the entries of a schema reads its fields back one by one. -/
theorem loadSchemaFromFile_entries {J : SerdeJson} {schema : Schema} {content : String}
    (bracket : ∃ rest, content.toList = '[' :: rest)
    (parsed : J.fromStrVec content = .ok (schema.fields.map entryOfField)) :
    loadSchemaFromFile J (.ok content) =
      .ok ⟨schema.fields.map fun field => fieldOfEntry (entryOfField field)⟩ := by
  simp only [loadSchemaFromFile, stripMark_of_bracket bracket, parsed, List.map_map,
    Function.comp_def]

/-- Loading the entries of a schema gives the schema exactly when every type is read back. -/
theorem loadSchemaFromFile_eq_ok_iff {J : SerdeJson} {schema : Schema} {content : String}
    (bracket : ∃ rest, content.toList = '[' :: rest)
    (parsed : J.fromStrVec content = .ok (schema.fields.map entryOfField)) :
    loadSchemaFromFile J (.ok content) = .ok schema ↔
      ∀ field ∈ schema.fields, strToDatatype (datatypeToStr field.dataType) = field.dataType := by
  rcases schema with ⟨fields⟩
  rw [loadSchemaFromFile_entries bracket parsed, Except.ok.injEq, Schema.mk.injEq]
  conv_lhs => rhs; rw [← List.map_id fields]
  rw [List.map_inj_left]
  simp only [id_eq, fieldOfEntry_entryOfField_eq_self_iff]

/-- Loading the entries of a schema of native types gives the schema. -/
theorem loadSchemaFromFile_eq_ok {J : SerdeJson} {schema : Schema} {content : String}
    (native : ∀ field ∈ schema.fields, field.dataType ∈ nativeTypes)
    (bracket : ∃ rest, content.toList = '[' :: rest)
    (parsed : J.fromStrVec content = .ok (schema.fields.map entryOfField)) :
    loadSchemaFromFile J (.ok content) = .ok schema := by
  apply (loadSchemaFromFile_eq_ok_iff bracket parsed).mpr
  exact fun field mem => strToDatatype_datatypeToStr (native field mem)

/-! ## Round trips of loaded schemas -/

/-- Printing the schema and loading the printed text gives the schema back. -/
def RoundTrips (J : SerdeJson) (pretty : List Value → Except JsonError String) (schema : Schema) :
    Prop :=
  ∃ text, schemaToJsonString pretty schema = .ok text ∧
    loadSchemaFromFile J (.ok text) = .ok schema

/-- The types that a schema file can name. -/
def namedTypes : List DataType :=
  [.boolean, .int8, .int16, .int32, .int64, .uint8, .uint16, .uint32, .uint64, .float32, .float64,
    .date32, .timestamp .microsecond none, .utf8]

theorem strToDatatype_mem_namedTypes (name : String) : strToDatatype name ∈ namedTypes := by
  unfold strToDatatype
  split <;> decide

/-- Of the types that a schema file can name only the timestamp has no name of its own in
print. -/
theorem strToDatatype_datatypeToStr_of_named : ∀ declared ∈ namedTypes,
    strToDatatype (datatypeToStr declared) = declared ↔
      declared ≠ .timestamp .microsecond none := by
  decide

/-- A loaded schema is printed and loaded back as it is exactly when it has no timestamp
column. -/
theorem roundTrips_iff {J : SerdeJson} {pretty : List Value → Except JsonError String}
    {content : Except String String} {schema : Schema} {text : String}
    (loaded : loadSchemaFromFile J content = .ok schema)
    (parsesBack : ParsesBack J pretty (schema.fields.map entryOfField) text) :
    RoundTrips J pretty schema ↔
      ∀ field ∈ schema.fields, field.dataType ≠ .timestamp .microsecond none := by
  have printed : schemaToJsonString pretty schema = .ok text := by
    rw [schemaToJsonString, parsesBack.printed]
  have reads : RoundTrips J pretty schema ↔ loadSchemaFromFile J (.ok text) = .ok schema := by
    constructor
    · rintro ⟨other, printed', reloaded⟩
      obtain rfl : text = other := Except.ok.inj (printed.symm.trans printed')
      exact reloaded
    · exact fun reloaded => ⟨text, printed, reloaded⟩
  rw [reads, loadSchemaFromFile_eq_ok_iff parsesBack.bracket parsesBack.parsed]
  apply forall_congr'
  intro field
  apply forall_congr'
  intro mem
  rcases exists_name_of_mem_loaded loaded mem with ⟨name, declared⟩
  exact strToDatatype_datatypeToStr_of_named _ (declared ▸ strToDatatype_mem_namedTypes name)

/-- A column `a` as it is printed under a type name. -/
def printedAs (typeName : String) : String :=
  "[\n  \x7b\n    \"name\": \"a\",\n    \"nullable\": true,\n    \"type\": \"" ++ typeName ++
    "\"\n  \x7d\n]"

/-- A reader that knows a schema file with a column `a` of a type, and the file that is
printed for the schema. -/
def columnReader (typeName printedName : String) : SerdeJson :=
  let entry (name : String) : Value :=
    .object [("name", .string "a"), ("nullable", .bool true), ("type", .string name)]
  .ofTable []
    [("[\x7b\"name\":\"a\",\"type\":\"" ++ typeName ++ "\"\x7d]",
      [.object [("name", .string "a"), ("type", .string typeName)]]),
      (printedAs printedName, [entry printedName]),
      (printedAs printedName ++ "\n", [entry printedName])]
    ⟨"expected value at line 1 column 1"⟩ (fun _ => "") (fun _ => "") (by simp)

theorem roundTrips_int32 :
    RoundTrips (columnReader "Int32" "Int32") (fun _ => .ok (printedAs "Int32"))
      ⟨[⟨"a", .int32, true⟩]⟩ :=
  (roundTrips_iff
    (show loadSchemaFromFile (columnReader "Int32" "Int32")
        (.ok "[\x7b\"name\":\"a\",\"type\":\"Int32\"\x7d]") = .ok ⟨[⟨"a", .int32, true⟩]⟩ from rfl)
    ⟨rfl, rfl, rfl, _, rfl⟩).mpr (by decide)

/-- A timestamp column of a schema file is printed as a text column. -/
theorem timestamp_printed_as_utf8 :
    loadSchemaFromFile (columnReader "Timestamp" "Utf8")
        (.ok "[\x7b\"name\":\"a\",\"type\":\"Timestamp\"\x7d]") =
          .ok ⟨[⟨"a", .timestamp .microsecond none, true⟩]⟩ ∧
      ParsesBack (columnReader "Timestamp" "Utf8") (fun _ => .ok (printedAs "Utf8"))
        [entryOfField ⟨"a", .timestamp .microsecond none, true⟩] (printedAs "Utf8") ∧
      loadSchemaFromFile (columnReader "Timestamp" "Utf8") (.ok (printedAs "Utf8")) =
        .ok ⟨[⟨"a", .utf8, true⟩]⟩ ∧
      ¬ RoundTrips (columnReader "Timestamp" "Utf8") (fun _ => .ok (printedAs "Utf8"))
        ⟨[⟨"a", .timestamp .microsecond none, true⟩]⟩ := by
  have reloaded : loadSchemaFromFile (columnReader "Timestamp" "Utf8") (.ok (printedAs "Utf8")) =
      .ok ⟨[⟨"a", .utf8, true⟩]⟩ := by
    rfl
  refine ⟨rfl, ⟨rfl, rfl, rfl, _, rfl⟩, reloaded, ?_⟩
  rintro ⟨text, printed, same⟩
  cases printed
  cases reloaded.symm.trans same

end Parq.Schema
