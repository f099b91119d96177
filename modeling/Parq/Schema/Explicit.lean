import Parq.Parser.Correctness
import Parq.Schema.Core

/-!
# Explicit schemas and the columns built for them

Three tables meet here: the type names that `str_to_datatype` admits, the builder
that `ColBuilder::new` picks for a type, and the type of the array that the
builder finishes into.  They agree on four types only.
-/

namespace Parq.Schema

open Parq.Data
open Parq.Parser

/-- The column that the builder for a declared type makes of a sequence of
values. -/
def buildColumn (J : SerdeJson) (declared : DataType) (vals : List (Option Value)) (line : Nat)
    (ignoreErrors : Bool) : Except Error ArrayRef :=
  ColBuilder.finish <$>
    vals.foldlM (fun builder val => builder.append J val line ignoreErrors)
      (ColBuilder.new declared)

/-- Appending never changes the type that a builder finishes into. -/
theorem append_dataType {J : SerdeJson} {builder next : ColBuilder} {val : Option Value}
    {line : Nat}
    {ignoreErrors : Bool} (appended : builder.append J val line ignoreErrors = .ok next) :
    next.dataType = builder.dataType := by
  by_cases admitted : mismatch? builder.dataType val = none ∨ ignoreErrors = true
  · obtain ⟨other, appended', same, _⟩ := append_eq_ok J builder val line ignoreErrors admitted
    rw [appended] at appended'
    cases appended'
    exact same
  · simp only [not_or, Option.ne_none_iff_exists', Bool.not_eq_true] at admitted
    rcases admitted with ⟨⟨found, refused⟩, rfl⟩
    rw [append_eq_error J builder line refused] at appended
    cases appended

theorem foldlM_append_dataType {J : SerdeJson} {vals : List (Option Value)} {line : Nat}
    {ignoreErrors : Bool} {builder last : ColBuilder}
    (appended : vals.foldlM (fun builder val => builder.append J val line ignoreErrors) builder =
      .ok last) : last.dataType = builder.dataType := by
  induction vals generalizing builder with
  | nil =>
      cases appended
      rfl
  | cons val vals ih =>
      rw [List.foldlM_cons] at appended
      cases first : builder.append J val line ignoreErrors with
      | error e =>
          rw [first] at appended
          cases appended
      | ok next =>
          rw [first] at appended
          rw [ih appended, append_dataType first]

/-- Every column built for a declared type has the type `builtType` of it. -/
theorem buildColumn_dataType {J : SerdeJson} {declared : DataType} {vals : List (Option Value)}
    {line : Nat} {ignoreErrors : Bool} {array : ArrayRef}
    (built : buildColumn J declared vals line ignoreErrors = .ok array) :
    array.dataType = builtType declared := by
  unfold buildColumn at built
  cases appended : vals.foldlM (fun builder val => builder.append J val line ignoreErrors)
      (ColBuilder.new declared) with
  | error e =>
      rw [appended] at built
      cases built
  | ok last =>
      rw [appended] at built
      cases built
      exact foldlM_append_dataType appended

/-- Among the types that a schema file can name, only the native ones are built as
declared. -/
theorem mem_nativeTypes_of_builtType {name : String}
    (same : builtType (strToDatatype name) = strToDatatype name) :
    strToDatatype name ∈ nativeTypes := by
  unfold strToDatatype at same ⊢
  split at same <;> first | exact absurd same (by decide) | decide

/-- Every column built for a field of the schema has the declared type, and no
call with the schema returns an Arrow error. -/
def ColumnsWritable (J : SerdeJson) (schema : Schema) : Prop :=
  (∀ field ∈ schema.fields, ∀ vals line ignoreErrors array,
      buildColumn J field.dataType vals line ignoreErrors = .ok array →
        array.dataType = field.dataType) ∧
    ∀ (o : ParseOptions) limit data reason, o.schema = schema →
      (parseChunk J o limit data).result ≠ .error (.arrow reason)

/-- A loaded schema of nullable columns can be written exactly when it declares
only native types. -/
theorem columnsWritable_iff {J : SerdeJson} {content : Except String String} {schema : Schema}
    (loaded : loadSchemaFromFile J content = .ok schema) (nonempty : schema.fields ≠ [])
    (nullable : ∀ field ∈ schema.fields, field.nullable = true) :
    ColumnsWritable J schema ↔
      ∀ field ∈ schema.fields,
        field.dataType = .boolean ∨ field.dataType = .int64 ∨ field.dataType = .float64 ∨
          field.dataType = .utf8 := by
  have native_iff : ∀ field : Field,
      (field.dataType = .boolean ∨ field.dataType = .int64 ∨ field.dataType = .float64 ∨
        field.dataType = .utf8) ↔ field.dataType ∈ nativeTypes := by
    intro field
    simp [nativeTypes]
  simp only [native_iff]
  constructor
  · intro writable field mem
    rcases exists_name_of_mem_loaded loaded mem with ⟨name, declared⟩
    have same : builtType field.dataType = field.dataType :=
      writable.1 field mem [] 0 false _ rfl
    rw [declared] at same ⊢
    exact mem_nativeTypes_of_builtType same
  · intro native
    constructor
    · intro field mem vals line ignoreErrors array built
      rw [buildColumn_dataType built, builtType_of_mem_nativeTypes (native field mem)]
    · rintro o limit data reason rfl failed
      obtain ⟨_, _, record, _, unwritable⟩ := unwritable_of_parseChunk_eq_arrow failed
      exact unwritable (writable_of_native J nonempty nullable native record)

/-- A schema file with a column of floats and one of texts. -/
def floatsAndTexts : String :=
  "[\x7b\"name\":\"a\",\"type\":\"Float64\"\x7d,\x7b\"name\":\"b\",\"type\":\"Utf8\"\x7d]"

/-- A reader for this file and for a record of its columns. -/
def floatsAndTextsReader : SerdeJson :=
  .ofTable [(ascii "\x7b\"a\":1,\"b\":\"x\"\x7d",
      .object [("a", .number (.posInt 1)), ("b", .string "x")])]
    [(floatsAndTexts,
      [.object [("name", .string "a"), ("type", .string "Float64")],
        .object [("name", .string "b"), ("type", .string "Utf8")]])]
    ⟨"expected value at line 1 column 1"⟩ (fun _ => "") (fun _ => "") (by decide)

theorem floatsAndTexts_writable :
    ColumnsWritable floatsAndTextsReader ⟨[⟨"a", .float64, true⟩, ⟨"b", .utf8, true⟩]⟩ := by
  have loaded : loadSchemaFromFile floatsAndTextsReader (.ok floatsAndTexts) =
      .ok ⟨[⟨"a", .float64, true⟩, ⟨"b", .utf8, true⟩]⟩ := by
    rfl
  exact (columnsWritable_iff loaded (by decide) (by decide)).mpr (by decide)

/-- A schema file that declares an `Int32` column is loaded, and the first record
then fails in `flush`. -/
theorem int32_column_not_writable :
    loadSchemaFromFile .sample (.ok "[\x7b\"name\":\"a\",\"type\":\"Int32\"\x7d]") =
        .ok (ParseOptions.oneColumn .int32 true).schema ∧
      (parseChunk .sample (.oneColumn .int32 true) none (ascii "\x7b\"a\":1\x7d")).result =
        .error (.arrow (.typeMismatch .int32 .int64)) ∧
      ¬ ColumnsWritable .sample (ParseOptions.oneColumn .int32 true).schema := by
  have failed : (parseChunk .sample (.oneColumn .int32 true) none
      (ascii "\x7b\"a\":1\x7d")).result = .error (.arrow (.typeMismatch .int32 .int64)) := by
    rfl
  exact ⟨rfl, failed, fun writable => writable.2 _ _ _ _ rfl failed⟩

end Parq.Schema
