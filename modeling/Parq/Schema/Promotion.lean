import Parq.Chunk.Core
import Parq.Parser.Limit
import Parq.Parser.Strict
import Parq.Schema.Inference
import Parq.Schema.Mark

/-!
# Promoted columns and the values they were computed from

Inference promotes a Boolean key that also has numbers to a numeric type, and the
numeric builders store null for a Boolean.  Every other value of a sample has a
cell in the column that its key was given.
-/

namespace Parq.Schema

open Parq.Chunk
open Parq.Data
open Parq.Parser
open Parq.Sequence

/-! ## Members and columns -/

/-- The sample has a number at the key, and no string, array or object. -/
def NumericKey (J : SerdeJson) (sample : List Bytes) (key : String) : Prop :=
  (∃ record ∈ recordsOf J false sample, ∃ n, Map.get record key = some (.number n)) ∧
    ∀ record ∈ recordsOf J false sample, ∀ value, Map.get record key = some value →
      value = .null ∨ (∃ b, value = .bool b) ∨ ∃ n, value = .number n

theorem rungOf_le_boolean_iff (value : Value) :
    rungOf value ≤ .boolean ↔ value = .null ∨ ∃ b, value = .bool b := by
  cases value with
  | number n =>
      simp only [rungOf]
      split <;> simp [Rung.le_iff_height, Rung.height]
  | _ => simp [rungOf, Rung.le_iff_height, Rung.height]

theorem rungOf_le_float64_iff (value : Value) :
    rungOf value ≤ .float64 ↔ value = .null ∨ (∃ b, value = .bool b) ∨ ∃ n, value = .number n := by
  cases value with
  | number n =>
      simp only [rungOf]
      split <;> simp [Rung.le_iff_height, Rung.height]
  | _ => simp [rungOf, Rung.le_iff_height, Rung.height]

theorem numeric_rung_iff (rung : Rung) :
    rung = .int64 ∨ rung = .float64 ↔ ¬ rung ≤ .boolean ∧ rung ≤ .float64 := by
  cases rung <;> decide

/-- A value of the sample is never refused by the column of its key. -/
theorem Determines.firstMismatch_eq_none {J : SerdeJson} {sample : List Bytes} {schema : Schema}
    (determines : Determines J sample schema) {record : Map}
    (mem : record ∈ recordsOf J false sample) :
    firstMismatch schema record = none := by
  rw [firstMismatch_eq_none_iff]
  intro field field_mem
  rw [builtType_of_mem_nativeTypes (determines.native field_mem).2,
    (determines.typed field field_mem).1]
  cases found : record.get field.name with
  | none =>
      cases columnRung (membersOf J sample) field.name <;> rfl
  | some value =>
      have below := rungOf_le_columnRung (mem_membersOf_iff.mpr ⟨record, mem, found⟩)
      cases rung : columnRung (membersOf J sample) field.name with
      | boolean =>
          rw [rung] at below
          rcases (rungOf_le_boolean_iff value).mp below with rfl | ⟨b, rfl⟩ <;> rfl
      | _ => rfl

/-- The numeric columns are those of the keys with a number and nothing wider. -/
theorem numericKey_iff {J : SerdeJson} {sample : List Bytes} {key : String} :
    columnRung (membersOf J sample) key = .int64 ∨ columnRung (membersOf J sample) key = .float64 ↔
      NumericKey J sample key := by
  rw [numeric_rung_iff, columnRung_le_iff, columnRung_le_iff]
  simp only [mem_membersOf_iff, rungOf_le_boolean_iff, rungOf_le_float64_iff]
  constructor
  · rintro ⟨wider, bounded⟩
    have below : ∀ record ∈ recordsOf J false sample, ∀ value, Map.get record key = some value →
        value = .null ∨ (∃ b, value = .bool b) ∨ ∃ n, value = .number n :=
      fun record mem value found => bounded value ⟨record, mem, found⟩
    refine ⟨?_, below⟩
    simp only [not_forall] at wider
    rcases wider with ⟨value, ⟨record, mem, found⟩, not_boolean⟩
    rcases below record mem value found with null | boolean | ⟨n, rfl⟩
    · exact absurd (.inl null) not_boolean
    · exact absurd (.inr boolean) not_boolean
    · exact ⟨record, mem, n, found⟩
  · rintro ⟨⟨record, mem, n, found⟩, below⟩
    constructor
    · intro all_boolean
      simpa using all_boolean (.number n) ⟨record, mem, found⟩
    · rintro value ⟨other, other_mem, other_found⟩
      exact below other other_mem value other_found

/-- In a column that is wide enough for a value, the value has no cell exactly
when it is a Boolean and the column is numeric. -/
theorem no_cell_iff (J : SerdeJson) {value : Value} {rung : Rung} (below : rungOf value ≤ rung)
    (valued : rung ≠ ⊥) (present : value ≠ .null) :
    storedCell J rung.dataType (some value) = .null ↔
      (∃ b, value = .bool b) ∧ (rung = .int64 ∨ rung = .float64) := by
  have native : rung.dataType ∈ nativeTypes := by
    cases rung with
    | null => exact absurd rfl valued
    | _ => simp [Rung.dataType, nativeTypes]
  rw [storedCell_eq_null_iff J native]
  cases value with
  | null => exact absurd rfl present
  | number n =>
      have wider : ¬ rung ≤ .boolean := by
        intro narrow
        simpa using (rungOf_le_boolean_iff _).mp (below.trans narrow)
      cases rung <;> first
        | exact absurd (by decide) wider
        | simp [Present, Nulled, mismatch?, Rung.dataType]
  | bool b => cases rung <;> simp [Present, Nulled, mismatch?, Rung.dataType] at valued ⊢
  | string s | array items | object members =>
      have widest : Rung.utf8 ≤ rung := below
      have top : rung = .utf8 := by
        revert widest
        cases rung <;> decide
      simp [top, Present, Nulled, mismatch?, Rung.dataType]

/-! ## Safety of promotion -/

/-- A row has a cell for each present value of its record. -/
def KeepsPresent (fields : List Field) (record : Map) (row : Row) : Prop :=
  List.Forall₂ (fun field cell => Present (record.get field.name) → cell ≠ .null) fields row

/-- No call over the data with the schema, in either mode, nulls a present value of
a record that it accepts. -/
def PromotionSafe (J : SerdeJson) (data : Bytes) (schema : Schema) : Prop :=
  ∀ (o : ParseOptions) limit parsed, o.schema = schema → o.flattenJson = false →
    (parseChunk J o limit data).result = .ok parsed →
      List.Forall₂ (KeepsPresent schema.fields)
        (recordsOf J false (considered J false limit 0 (splitLines data)))
        (parsed.batches.flatMap RecordBatch.rows)

/-- A lenient call that does not flatten. -/
def lenientCall (schema : Schema) : ParseOptions where
  schema := schema
  batchSize := 1
  ignoreErrors := true
  flattenJson := false
  deadLetterTx := false

theorem keepsPresent_rows_iff {J : SerdeJson} {schema : Schema} {records : List Map} :
    List.Forall₂ (KeepsPresent schema.fields) records (records.map (rowOf J schema)) ↔
      ∀ record ∈ records, ∀ field ∈ schema.fields,
        Present (Map.get record field.name) → cellOf J field record ≠ .null := by
  rw [List.forall₂_map_right_iff, List.forall₂_same]
  apply forall₂_congr
  intro record _
  rw [KeepsPresent, rowOf, List.forall₂_map_right_iff, List.forall₂_same]

/-- A sampled value has no cell in its column exactly when it is a Boolean at a
numeric key. -/
theorem cellOf_eq_null_iff {J : SerdeJson} {sample : List Bytes} {schema : Schema}
    (determines : Determines J sample schema) {field : Field} (field_mem : field ∈ schema.fields)
    {record : Map} {value : Value} (found : Map.get record field.name = some value)
    (below : rungOf value ≤ columnRung (membersOf J sample) field.name) (present : value ≠ .null) :
    cellOf J field record = .null ↔ (∃ b, value = .bool b) ∧ NumericKey J sample field.name := by
  have valued := (determines.named field.name).mp (List.mem_map_of_mem field_mem)
  rw [cellOf, found, builtType_of_mem_nativeTypes (determines.native field_mem).2,
    (determines.typed field field_mem).1, no_cell_iff J below valued present, numericKey_iff]

section Sampled

variable {J : SerdeJson} {data : Bytes} {sampleSize : Nat} {schema : Schema}
  (determines : Determines J (sampleLines data sampleSize) schema)
  (sampled : ∀ record ∈ recordsOf J false (splitLines data), ∀ key value,
    Map.get record key = some value →
      rungOf value ≤ columnRung (membersOf J (sampleLines data sampleSize)) key)

include determines sampled

/-- A Boolean at a numeric key is nulled by a lenient call. -/
theorem PromotionSafe.separate (safe : PromotionSafe J data schema) {record : Map}
    (mem : record ∈ recordsOf J false (splitLines data)) {key : String} {b : Bool}
    (found : Map.get record key = some (.bool b)) :
    ¬ NumericKey J (sampleLines data sampleSize) key := by
  intro numeric
  have named : key ∈ schema.fields.map Field.name := by
    apply (determines.named key).mpr
    rcases numericKey_iff.mpr numeric with rung | rung <;> simp [rung, Rung.bot_eq]
  rcases List.mem_map.mp named with ⟨field, field_mem, rfl⟩
  have declared : schema.fields ≠ [] := List.ne_nil_of_mem field_mem
  have succeeds : ∃ parsed, (parseChunk J (lenientCall schema) none data).result = .ok parsed :=
    parseChunk_isOk_iff.mpr fun line _ =>
      determines.lineOk (o := lenientCall schema) rfl declared line
  rcases succeeds with ⟨parsed, succeeded⟩
  have kept := safe (lenientCall schema) none parsed rfl rfl succeeded
  rw [(parseChunk_eq_ok succeeded).1.rows] at kept
  apply keepsPresent_rows_iff.mp kept record (by rwa [considered_none]) field field_mem
  · rw [found]
    trivial
  · apply (cellOf_eq_null_iff determines field_mem found (sampled record mem _ _ found) ?_).mpr
    · exact ⟨⟨b, rfl⟩, numeric⟩
    · simp

/-- Without Booleans at numeric keys every call keeps what is present. -/
theorem promotionSafe_of_separate
    (separate : ∀ record ∈ recordsOf J false (splitLines data), ∀ key b,
      Map.get record key = some (.bool b) → ¬ NumericKey J (sampleLines data sampleSize) key) :
    PromotionSafe J data schema := by
  intro o limit parsed schema_eq no_flatten succeeded
  subst schema_eq
  have delivers := (parseChunk_eq_ok succeeded).1
  rw [delivers.rows, no_flatten]
  apply keepsPresent_rows_iff.mpr
  intro record mem field field_mem present no_cell
  have accepted : record ∈ recordsOf J false (splitLines data) := by
    rcases List.mem_filterMap.mp mem with ⟨line, line_mem, read⟩
    exact List.mem_filterMap.mpr ⟨line, considered_subset J false limit 0 _ line_mem, read⟩
  cases found : Map.get record field.name with
  | none =>
      rw [found] at present
      exact present
  | some value =>
      have valued : value ≠ .null := by
        rintro rfl
        rw [found] at present
        exact present
      obtain ⟨⟨b, rfl⟩, numeric⟩ := (cellOf_eq_null_iff determines field_mem found
        (sampled record accepted _ _ found) valued).mp no_cell
      exact separate record accepted field.name b found numeric

end Sampled

/-- When all lines are sampled, promotion is safe exactly when no record that is
accepted has a Boolean at a key with a number and nothing wider in the sample. -/
theorem promotionSafe_iff {J : SerdeJson} {data : Bytes} {sampleSize : Nat} {schema : Schema}
    (within : (splitLines (stripBom data)).length ≤ sampleSize)
    (inferred : inferSchema J data sampleSize = .ok schema) :
    PromotionSafe J data schema ↔
      ∀ record ∈ recordsOf J false (splitLines data), ∀ key b,
        Map.get record key = some (.bool b) → ¬ NumericKey J (sampleLines data sampleSize) key := by
  have determines := determines_of_inferSchema inferred
  have sample : sampleLines data sampleSize = splitLines (stripBom data) :=
    List.take_of_length_le within
  have sampled : ∀ record ∈ recordsOf J false (splitLines data), ∀ key value,
      Map.get record key = some value →
        rungOf value ≤ columnRung (membersOf J (sampleLines data sampleSize)) key := by
    intro record mem key value found
    apply rungOf_le_columnRung
    rw [mem_membersOf_iff, sample]
    exact ⟨record, recordsOf_subset_stripBom J false data mem, found⟩
  constructor
  · intro safe record mem key b found
    exact safe.separate determines sampled mem found
  · exact promotionSafe_of_separate determines sampled

/-- A reader for a Boolean, a number and a string under one key. -/
def threeTypes : SerdeJson :=
  .ofTable
    [(ascii "\x7b\"a\":true\x7d", .object [("a", .bool true)]),
      (ascii "\x7b\"a\":1\x7d", .object [("a", .number (.posInt 1))]),
      (ascii "\x7b\"a\":\"x\"\x7d", .object [("a", .string "x")])]
    [] ⟨"expected value at line 1 column 1"⟩ (fun _ => "") (fun _ => "") (by decide)

/-- A Boolean and a number are both kept as text when there is a string under their key. -/
theorem promotionSafe_text :
    let data := ascii "\x7b\"a\":true\x7d\n\x7b\"a\":1\x7d\n\x7b\"a\":\"x\"\x7d"
    inferSchema threeTypes data 10000 = .ok (ParseOptions.oneColumn .utf8 true).schema ∧
      PromotionSafe threeTypes data (ParseOptions.oneColumn .utf8 true).schema := by
  intro data
  have records : recordsOf threeTypes false (splitLines data) =
      [[("a", .bool true)], [("a", .number (.posInt 1))], [("a", .string "x")]] := by
    rfl
  have sample : recordsOf threeTypes false (sampleLines data 10000) =
      [[("a", .bool true)], [("a", .number (.posInt 1))], [("a", .string "x")]] := by
    rfl
  have within : (splitLines (stripBom data)).length ≤ 10000 := by
    decide
  refine ⟨rfl, (promotionSafe_iff within rfl).mpr ?_⟩
  intro record mem key b found ⟨_, narrow⟩
  rw [records] at mem
  have only : key = "a" := by
    have entry := mem_of_lookup_eq_some found
    rcases mem with _ | ⟨_, _ | ⟨_, _ | ⟨_, ⟨⟩⟩⟩⟩
    · simp at entry
      exact entry.1
    · simp at entry
    · simp at entry
  subst only
  rw [sample] at narrow
  have text := narrow [("a", .string "x")] (by simp) (.string "x") rfl
  simp at text

/-- A key with a Boolean and then a number is inferred as `Int64`, and the Boolean
is stored as null. -/
theorem boolean_promoted_to_int64_nulled :
    inferSchema .sample (ascii "\x7b\"a\":true\x7d\n\x7b\"a\":1\x7d") 10000 =
        .ok (ParseOptions.oneColumn .int64 true).schema ∧
      (∃ parsed, (parseChunk .sample (.oneColumn .int64 true) none
          (ascii "\x7b\"a\":true\x7d\n\x7b\"a\":1\x7d")).result = .ok parsed ∧
        parsed.batches.flatMap RecordBatch.rows = [[.null], [.int64 1]]) ∧
      ¬ PromotionSafe .sample (ascii "\x7b\"a\":true\x7d\n\x7b\"a\":1\x7d")
        (ParseOptions.oneColumn .int64 true).schema := by
  refine ⟨rfl, ⟨_, rfl, rfl⟩, ?_⟩
  intro safe
  have rows := safe (.oneColumn .int64 true) none _ rfl rfl rfl
  have cells := (List.forall₂_cons.mp rows).1
  exact (List.forall₂_cons.mp cells).1 trivial rfl

/-! ## Calls on sampled lines -/

section Drawn

variable {J : SerdeJson} {data : Bytes} {sampleSize : Nat} {schema : Schema}

/-- No call on lines of the sample ends in a type mismatch. -/
theorem Determines.not_typeMismatch {sample : List Bytes} (determines : Determines J sample schema)
    {o : ParseOptions} (schema_eq : o.schema = schema) (no_flatten : o.flattenJson = false)
    {chunk : Bytes} (drawn : ∀ line ∈ splitLines chunk, line = [] ∨ line ∈ sample)
    (limit : Option Nat) (field expected found : String) (lineNo : Nat) :
    (parseChunk J o limit chunk).result ≠ .error (.typeMismatch field expected found lineNo) := by
  intro failed
  rcases refused_of_parseChunk_eq_typeMismatch failed with ⟨line, mem, record, read, refused⟩
  rw [no_flatten] at read
  rcases drawn line mem with rfl | sampled
  · cases read
  · apply refused
    rw [schema_eq]
    exact determines.firstMismatch_eq_none (List.mem_filterMap.mpr ⟨line, sampled, read⟩)

/-- The lines of a chunk are lines of the data, or empty. -/
theorem drawn_of_mem_fixedChunks {lines : List Bytes} (has : HasLines data lines)
    (chunkSize : Option Nat) :
    ∀ chunk ∈ fixedChunks data chunkSize, ∀ line ∈ splitLines chunk, line = [] ∨ line ∈ lines := by
  have own (line : Bytes) (mem : line ∈ splitLines data) : line = [] ∨ line ∈ lines :=
    has.mem line mem
  exact (forall_splitLines_fixedChunks_iff (.inl rfl) data chunkSize).mp own

end Drawn

/-- With an inferred schema no call ends in a type mismatch on data that consists of sampled
lines, read as a whole or chunk by chunk. -/
theorem inferred_never_mismatches {J : SerdeJson} {data : Bytes} {sampleSize : Nat}
    {schema : Schema} (inferred : inferSchema J data sampleSize = .ok schema) {lines : List Bytes}
    (drawn : ∀ line ∈ lines, line ∈ sampleLines data sampleSize) {drawnData : Bytes}
    (has : HasLines drawnData lines) {o : ParseOptions} (schema_eq : o.schema = schema)
    (no_flatten : o.flattenJson = false) (limit chunkSize : Option Nat) {chunk : Bytes}
    (cut : chunk = drawnData ∨ chunk ∈ fixedChunks drawnData chunkSize)
    (field expected found : String)
    (lineNo : Nat) :
    (parseChunk J o limit chunk).result ≠ .error (.typeMismatch field expected found lineNo) := by
  have determines := determines_of_inferSchema inferred
  apply determines.not_typeMismatch schema_eq no_flatten
  intro line mem
  have own : line = [] ∨ line ∈ lines := by
    rcases cut with rfl | chunk_mem
    · exact has.mem line mem
    · exact drawn_of_mem_fixedChunks has chunkSize chunk chunk_mem line mem
  exact own.imp_right (drawn line)

theorem inferred_never_mismatches_boolean :
    (parseChunk .sample (.oneColumn .boolean false) none
        (ascii "\x7b\"a\":true\x7d\n\x7b\"a\":true\x7d")).result ≠
      .error (.typeMismatch "bool_field" "Boolean" "" 1) := by
  have inferred : inferSchema .sample (ascii "\x7b\"a\":true\x7d") 1 =
      .ok (ParseOptions.oneColumn .boolean false).schema := by
    rfl
  have has : HasLines (ascii "\x7b\"a\":true\x7d\n\x7b\"a\":true\x7d")
      [ascii "\x7b\"a\":true\x7d", ascii "\x7b\"a\":true\x7d"] :=
    .inl (by decide)
  exact inferred_never_mismatches inferred (by decide) has rfl rfl none none (.inl rfl) _ _ _ _

end Parq.Schema
