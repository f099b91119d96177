import Parq.Parser.Correctness

/-!
# Required columns

A record may lack a value that a non-nullable column needs.  Lenient mode is there so
that one corrupt record does not cost the rest, and such a record could be set aside as
a rejected line is.  But the builders take the null, and the batch that holds it is
refused as a whole.
-/

namespace Parq.Parser

open Parq.Data

/-! ## Records with their required values -/

/-- The record has a cell for each non-nullable field. -/
def HasRequired (J : SerdeJson) (schema : Schema) (record : Map) : Prop :=
  ∀ field ∈ schema.fields, field.nullable = false →
    storedCell J field.dataType (record.get field.name) ≠ .null

instance (J : SerdeJson) (schema : Schema) (record : Map) :
    Decidable (HasRequired J schema record) :=
  inferInstanceAs (Decidable (∀ field ∈ schema.fields, _ → _))

/-- The trimmed text of a line that is rejected or whose record lacks a required value. -/
def bad? (J : SerdeJson) (o : ParseOptions) (line : Bytes) : Option Bytes :=
  match classify J o.flattenJson line with
  | .blank => none
  | .rejected text _ => some text
  | .record obj => if HasRequired J o.schema obj then none else trimmed? line

/-- The call succeeds, delivers the records that have their required values, and skips,
counts and quarantines the other lines. -/
def SetsAside (J : SerdeJson) (o : ParseOptions) (data : Bytes) : Prop :=
  ∃ parsed, (parseChunk J o none data).result = .ok parsed ∧
    parsed.batches.flatMap RecordBatch.rows =
      ((recordsOf J o.flattenJson (splitLines data)).filter fun record =>
        HasRequired J o.schema record).map (rowOf J o.schema) ∧
    parsed.rowsOk =
      ((recordsOf J o.flattenJson (splitLines data)).filter fun record =>
        HasRequired J o.schema record).length ∧
    parsed.rowsSkipped = ((splitLines data).filterMap (bad? J o)).length ∧
    (parseChunk J o none data).deadLetters =
      if o.deadLetterTx then (splitLines data).filterMap (bad? J o) else []

section Required

variable {J : SerdeJson} {o : ParseOptions}

/-- A batch can be formed with the row of a record exactly when the record has its
required values. -/
theorem writable_iff_hasRequired {schema : Schema} (declared : schema.fields ≠ [])
    (native : ∀ field ∈ schema.fields, field.dataType ∈ nativeTypes) (record : Map) :
    Writable J schema record ↔ HasRequired J schema record := by
  constructor
  · intro writable field mem required
    rcases writable.2 field mem with ⟨_, nullable | is_null | filled⟩
    · rw [required] at nullable
      cases nullable
    · have not_native := native field mem
      rw [is_null] at not_native
      simp [nativeTypes] at not_native
    · rwa [cellOf, builtType_of_mem_nativeTypes (native field mem)] at filled
  · intro has
    refine ⟨declared, ?_⟩
    intro field mem
    have built := builtType_of_mem_nativeTypes (native field mem)
    refine ⟨built, ?_⟩
    cases required : field.nullable with
    | true => exact .inl rfl
    | false =>
        right
        right
        rw [cellOf, built]
        exact has field mem required

/-- When no record lacks a required value, the bad lines are the rejected ones. -/
theorem bad?_eq_rejected? {line : Bytes}
    (has : ∀ record, record? J o.flattenJson line = some record → HasRequired J o.schema record) :
    bad? J o line = rejected? J line := by
  rw [rejected?_eq J o.flattenJson, bad?]
  cases read : classify J o.flattenJson line with
  | record obj =>
      have complete := has obj (by rw [record?, read])
      simp only [if_pos complete]
  | _ => rfl

/-- A lenient call ends in no line. -/
theorem lineOk_iff_of_lenient (lenient : o.ignoreErrors = true) (line : Bytes) :
    LineOk J o line ↔
      ∀ record, record? J o.flattenJson line = some record → Writable J o.schema record := by
  constructor
  · exact fun lineOk => lineOk.2
  · intro writable
    exact ⟨by rw [lineError, if_pos lenient], writable⟩

end Required

/-- A lenient call sets every bad record aside exactly when no record lacks a required
value. -/
theorem setsAside_iff {J : SerdeJson} {o : ParseOptions} (lenient : o.ignoreErrors = true)
    (native : ∀ field ∈ o.schema.fields, field.dataType ∈ nativeTypes)
    (required : ∃ field ∈ o.schema.fields, field.nullable = false) (data : Bytes) :
    SetsAside J o data ↔
      ∀ record ∈ recordsOf J o.flattenJson (splitLines data), HasRequired J o.schema record := by
  have declared : o.schema.fields ≠ [] := by
    rcases required with ⟨field, mem, _⟩
    exact List.ne_nil_of_mem mem
  constructor
  · rintro ⟨parsed, succeeded, _⟩ record mem
    have lineOk := parseChunk_isOk_iff.mp ⟨parsed, succeeded⟩
    rw [considered_none] at lineOk
    rcases List.mem_filterMap.mp mem with ⟨line, line_mem, read⟩
    exact (writable_iff_hasRequired declared native record).mp
      ((lineOk line line_mem).2 record read)
  · intro has
    have has_line : ∀ line ∈ splitLines data, ∀ record,
        record? J o.flattenJson line = some record → HasRequired J o.schema record := by
      intro line mem record read
      exact has record (List.mem_filterMap.mpr ⟨line, mem, read⟩)
    have lineOk : ∀ line ∈ considered J o.flattenJson none 0 (splitLines data),
        LineOk J o line := by
      intro line mem
      rw [considered_none] at mem
      rw [lineOk_iff_of_lenient lenient]
      intro record read
      exact (writable_iff_hasRequired declared native record).mpr (has_line line mem record read)
    rcases parseChunk_isOk_iff.mpr lineOk with ⟨parsed, succeeded⟩
    rcases parseChunk_eq_ok succeeded with ⟨delivers, letters⟩
    rw [considered_none] at delivers letters
    have all_kept : (recordsOf J o.flattenJson (splitLines data)).filter (fun record =>
        HasRequired J o.schema record) = recordsOf J o.flattenJson (splitLines data) := by
      simpa [List.filter_eq_self] using has
    have all_rejected : (splitLines data).filterMap (bad? J o) = rejectedOf J (splitLines data) :=
      List.filterMap_congr fun line mem => bad?_eq_rejected? (has_line line mem)
    refine ⟨parsed, succeeded, ?_, ?_, ?_, ?_⟩
    · rw [all_kept]
      exact delivers.rows
    · rw [all_kept]
      exact delivers.rowsOk
    · rw [all_rejected]
      exact delivers.rowsSkipped
    · rw [all_rejected]
      exact letters

/-- A lenient call that writes one required integer column in batches of two rows. -/
def ParseOptions.requiredColumn : ParseOptions where
  schema := ⟨[⟨"a", .int64, false⟩]⟩
  batchSize := 2
  ignoreErrors := true
  flattenJson := false
  deadLetterTx := true

/-- A malformed line between two records with a required value. -/
theorem setsAside_malformed_line :
    SetsAside .sample .requiredColumn (ascii "\x7b\"a\":1\x7d\nx\n\x7b\"a\":1\x7d") := by
  have records : recordsOf .sample false
      (splitLines (ascii "\x7b\"a\":1\x7d\nx\n\x7b\"a\":1\x7d")) =
        [[("a", .number (.posInt 1))], [("a", .number (.posInt 1))]] := by
    rfl
  apply (setsAside_iff rfl (by decide) ⟨_, List.mem_singleton_self _, rfl⟩ _).mpr
  change ∀ record ∈ recordsOf .sample false _, _
  rw [records]
  decide

/-- A Boolean in a required integer column fails the batch, and with it the good record in
front of it. -/
theorem bad_record_fails_batch :
    ParseOptions.requiredColumn.ignoreErrors = true ∧
      (∀ field ∈ ParseOptions.requiredColumn.schema.fields, field.dataType ∈ nativeTypes) ∧
      (∃ field ∈ ParseOptions.requiredColumn.schema.fields, field.nullable = false) ∧
      (parseChunk .sample .requiredColumn none
        (ascii "\x7b\"a\":1\x7d\n\x7b\"a\":true\x7d")).result =
          .error (.arrow (.nullInNonNullable "a")) ∧
      ¬ SetsAside .sample .requiredColumn (ascii "\x7b\"a\":1\x7d\n\x7b\"a\":true\x7d") := by
  have failed : (parseChunk .sample .requiredColumn none
      (ascii "\x7b\"a\":1\x7d\n\x7b\"a\":true\x7d")).result =
        .error (.arrow (.nullInNonNullable "a")) := by
    rfl
  refine ⟨rfl, by decide, ⟨_, List.mem_singleton_self _, rfl⟩, failed, ?_⟩
  rintro ⟨parsed, succeeded, _⟩
  cases failed.symm.trans succeeded

end Parq.Parser
