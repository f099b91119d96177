import Parq.Parser.Numbering

/-!
# Strict and lenient calls

The two modes differ only where a line is refused.  A strict and a lenient call on the
same data therefore go through the same states until the strict one ends at a line, and
what the lenient one does there shows in what it delivers.
-/

namespace Parq.Parser

open Parq.Data

namespace ParseOptions

/-- The call in strict mode. -/
def strict (o : ParseOptions) : ParseOptions :=
  { o with ignoreErrors := false }

/-- The call in lenient mode. -/
def lenient (o : ParseOptions) : ParseOptions :=
  { o with ignoreErrors := true }

@[simp]
theorem strict_schema (o : ParseOptions) : o.strict.schema = o.schema :=
  rfl

@[simp]
theorem lenient_schema (o : ParseOptions) : o.lenient.schema = o.schema :=
  rfl

@[simp]
theorem strict_flattenJson (o : ParseOptions) : o.strict.flattenJson = o.flattenJson :=
  rfl

@[simp]
theorem lenient_flattenJson (o : ParseOptions) : o.lenient.flattenJson = o.flattenJson :=
  rfl

end ParseOptions

/-! ## The two runs -/

section Lockstep

variable {J : SerdeJson} {o : ParseOptions} {limit : Option Nat}

theorem append_modes (builder : ColBuilder) (val : Option Value) (line : Nat) :
    builder.append J val line false = builder.append J val line true ∨
      ∃ e, builder.append J val line false = .error e ∧ (lineOfError e).isSome := by
  cases refused : mismatch? builder.dataType val with
  | some found => exact .inr ⟨_, append_eq_error J builder line refused, rfl⟩
  | none =>
      left
      cases builder with
      | bool values =>
          rcases val with _ | (_ | _ | _ | _ | _ | _)
          case none | some.null | some.bool => rfl
          all_goals cases refused
      | null | int64 | float64 | str => rfl

theorem appendRow_modes (obj : Map) (line : Nat) (fields : List Field)
    (builders : List ColBuilder) :
    appendRow J obj line false fields builders = appendRow J obj line true fields builders ∨
      ∃ e, appendRow J obj line false fields builders = .error e ∧ (lineOfError e).isSome := by
  induction fields generalizing builders with
  | nil => exact .inl rfl
  | cons field fields ih =>
      cases builders with
      | nil => exact .inl rfl
      | cons builder builders =>
          rw [appendRow, appendRow]
          rcases append_modes builder (obj.get field.name) line with same | ⟨e, refused, about⟩
          · rw [same]
            cases builder.append J (obj.get field.name) line true with
            | error e => exact .inl rfl
            | ok next =>
                rcases ih builders with rest | ⟨e, refused, about⟩
                · left
                  simp only [bind, Except.bind, rest]
                · right
                  refine ⟨e, ?_, about⟩
                  simp only [bind, Except.bind, refused]
          · right
            refine ⟨e, ?_, about⟩
            simp only [bind, Except.bind, refused]

/-- A pass of the strict loop is one of the lenient loop or ends the call at its line. -/
theorem lineStep_modes (s : ChunkState) (line : Bytes) :
    lineStep J o.strict limit s line = lineStep J o.lenient limit s line ∨
      ∃ s' e, lineStep J o.strict limit s line = .fail s' e ∧ (lineOfError e).isSome := by
  rw [lineStep_eq, lineStep_eq]
  split
  · exact .inl rfl
  · simp only [ParseOptions.strict, ParseOptions.lenient]
    cases classify J o.flattenJson line with
    | blank => exact .inl rfl
    | rejected text source => exact .inr ⟨_, _, rfl, rfl⟩
    | record obj =>
        simp only [storeRecord]
        rcases appendRow_modes obj (s.lineNo + 1) o.schema.fields s.builders with
          same | ⟨e, refused, about⟩
        · rw [same]
          exact .inl rfl
        · right
          rw [refused]
          exact ⟨_, e, rfl, about⟩

theorem parseLines_modes (J : SerdeJson) (o : ParseOptions) (limit : Option Nat)
    (lines : List Bytes) (s : ChunkState) :
    parseLines J o.strict limit lines s = parseLines J o.lenient limit lines s ∨
      ∃ s' e, parseLines J o.strict limit lines s = (s', some e) ∧ (lineOfError e).isSome := by
  induction lines generalizing s with
  | nil => exact .inl rfl
  | cons line lines ih =>
      rw [parseLines, parseLines]
      rcases lineStep_modes s line with same | ⟨s', e, failed, about⟩
      · rw [same]
        cases lineStep J o.lenient limit s line with
        | next s' => exact ih s'
        | stop s' => exact .inl rfl
        | fail s' e => exact .inl rfl
      · right
        rw [failed]
        exact ⟨s', e, rfl, about⟩

/-- The two calls return the same unless the strict one ends at a line. -/
theorem parseChunk_modes (data : Bytes) :
    parseChunk J o.strict limit data = parseChunk J o.lenient limit data ∨
      ∃ e, (parseChunk J o.strict limit data).result = .error e ∧ (lineOfError e).isSome := by
  rcases parseLines_modes J o limit (splitLines data) (.initial o.schema)
    with same | ⟨s, e, failed, about⟩
  · left
    simp only [parseChunk, ParseOptions.strict_schema, ParseOptions.lenient_schema, same]
  · right
    refine ⟨e, ?_, about⟩
    simp only [parseChunk, ParseOptions.strict_schema, failed]

end Lockstep

/-! ## Where the runs part -/

/-- A Boolean column of the row holds null where the record has a value that is neither
null nor a Boolean. -/
def NullsNonBoolean (schema : Schema) (record : Map) (row : Row) : Prop :=
  ∃ (j : Nat) (field : Field) (value : Value),
    schema.fields[j]? = some field ∧ field.dataType = .boolean ∧
      record.get field.name = some value ∧ value ≠ .null ∧ (∀ b, value ≠ .bool b) ∧
      row[j]? = some Cell.null

section Parting

variable {J : SerdeJson} {o : ParseOptions} {limit : Option Nat} {data : Bytes}

theorem mismatch?_eq_some {declared : DataType} {val : Option Value} {found : Value}
    (refused : mismatch? (builtType declared) val = some found) :
    declared = .boolean ∧ val = some found ∧ found ≠ .null ∧ ∀ b, found ≠ .bool b := by
  cases declared with
  | boolean =>
      rcases val with _ | (_ | _ | _ | _ | _ | _)
      case none | some.null | some.bool => cases refused
      all_goals
        cases refused
        simp
  | _ => cases refused

/-- A refused value is stored as null. -/
theorem nullsNonBoolean_of_firstMismatch {schema : Schema} {record : Map} {found : Value}
    (refused : firstMismatch schema record = some found) :
    NullsNonBoolean schema record (rowOf J schema record) := by
  rcases List.exists_of_findSome?_eq_some refused with ⟨field, mem, here⟩
  rcases mismatch?_eq_some here with ⟨is_boolean, get, not_null, not_boolean⟩
  rcases List.mem_iff_getElem?.mp mem with ⟨j, at_j⟩
  refine ⟨j, field, found, at_j, is_boolean, get, not_null, not_boolean, ?_⟩
  rw [rowOf, List.getElem?_map, at_j, Option.map_some, cellOf, is_boolean, get]
  cases found with
  | bool b => exact absurd rfl (not_boolean b)
  | _ => rfl

/-- A line that ends a call is rejected, or has a value that a Boolean column refuses. -/
theorem rejected_or_mismatch {lineNo : Nat} {line : Bytes} {e : Error}
    (refused : lineError J o lineNo line = some e) :
    (∃ text, rejected? J line = some text) ∨
      ∃ record found, record? J o.flattenJson line = some record ∧
        firstMismatch o.schema record = some found := by
  rw [rejected?_eq J o.flattenJson, record?]
  rcases lineError_cases refused with ⟨text, source, read, _⟩ | ⟨record, found, read, mismatch, _⟩
  · left
    rw [read]
    exact ⟨text, rfl⟩
  · right
    rw [read]
    exact ⟨record, found, rfl, mismatch⟩

/-- A strict call that succeeds rejects no line. -/
theorem rejectedOf_of_strict {parsed : Parsed}
    (succeeded : (parseChunk J o.strict limit data).result = .ok parsed) :
    rejectedOf J (considered J o.flattenJson limit 0 (splitLines data)) = [] := by
  have lineOk := parseChunk_isOk_iff.mp ⟨parsed, succeeded⟩
  apply List.filterMap_eq_nil_iff.mpr
  intro line mem
  have harmless := (lineOk line mem).1
  rw [rejected?_eq J o.flattenJson]
  simp only [lineError, ParseOptions.strict, Bool.false_eq_true, if_false] at harmless
  cases read : classify J o.flattenJson line with
  | rejected text source => simp [read] at harmless
  | _ => rfl

/-- What the lenient call delivers shows where the strict one ended. -/
theorem skipped_or_nulled {e : Error} {k : Nat}
    (failed : (parseChunk J o.strict limit data).result = .error e) (about : lineOfError e = some k)
    {parsed : Parsed} (succeeded : (parseChunk J o.lenient limit data).result = .ok parsed) :
    1 ≤ parsed.rowsSkipped ∨
      ∃ record row, (record, row) ∈
          (recordsOf J o.flattenJson (considered J o.flattenJson limit 0 (splitLines data))).zip
            (parsed.batches.flatMap RecordBatch.rows) ∧
        NullsNonBoolean o.schema record row := by
  rcases parseChunk_eq_ok succeeded with ⟨delivers, _⟩
  rcases endsAt_of_parseChunk_eq_error failed about with ⟨before, line, ends, refused⟩
  rcases ends.split with ⟨after, split⟩
  have line_mem : line ∈ considered J o.flattenJson limit 0 (splitLines data) := by
    rw [show considered J o.flattenJson limit 0 (splitLines data) = _ from split]
    simp
  rcases rejected_or_mismatch refused with ⟨text, rejected⟩ | ⟨record, found, read, mismatch⟩
  · left
    rw [delivers.rowsSkipped]
    exact List.length_pos_of_mem (List.mem_filterMap.mpr ⟨line, line_mem, rejected⟩)
  · right
    have record_mem : record ∈
        recordsOf J o.flattenJson (considered J o.flattenJson limit 0 (splitLines data)) :=
      List.mem_filterMap.mpr ⟨line, line_mem, read⟩
    rcases List.mem_iff_getElem?.mp record_mem with ⟨i, at_i⟩
    refine ⟨record, rowOf J o.schema record, ?_, nullsNonBoolean_of_firstMismatch mismatch⟩
    apply List.mem_of_getElem?
    apply List.getElem?_zip_eq_some.mpr
    refine ⟨at_i, ?_⟩
    rw [delivers.rows, List.getElem?_map, ParseOptions.lenient_flattenJson, at_i]
    rfl

end Parting

/-- Lenient mode is conservative over strict mode: a strict call that succeeds returns
what the lenient one does, which then skips nothing; where a line ends the strict call,
the lenient one, if it succeeds, has skipped a line or nulled a value; and both fail alike
when a batch cannot be formed. -/
theorem lenient_conservative (J : SerdeJson) (o : ParseOptions) (limit : Option Nat)
    (data : Bytes) :
    (∀ parsed, (parseChunk J o.strict limit data).result = .ok parsed →
      (parseChunk J o.lenient limit data).result = .ok parsed ∧ parsed.rowsSkipped = 0 ∧
        (parseChunk J o.lenient limit data).deadLetters = []) ∧
    (∀ e line, (parseChunk J o.strict limit data).result = .error e → lineOfError e = some line →
      ∀ parsed, (parseChunk J o.lenient limit data).result = .ok parsed →
        1 ≤ parsed.rowsSkipped ∨
          ∃ record row, (record, row) ∈
              (recordsOf J o.flattenJson (considered J o.flattenJson limit 0 (splitLines data))).zip
                (parsed.batches.flatMap RecordBatch.rows) ∧
            NullsNonBoolean o.schema record row) ∧
    (∀ reason, (parseChunk J o.strict limit data).result = .error (.arrow reason) →
      (parseChunk J o.lenient limit data).result = .error (.arrow reason)) := by
  refine
    ⟨?_, fun e line failed about parsed succeeded => skipped_or_nulled failed about succeeded, ?_⟩
  · intro parsed succeeded
    have accepted := rejectedOf_of_strict succeeded
    rcases parseChunk_eq_ok succeeded with ⟨delivers, letters⟩
    rcases parseChunk_modes data with same | ⟨e, failed, _⟩
    · rw [← same]
      refine ⟨succeeded, ?_, ?_⟩
      · rw [delivers.rowsSkipped, ParseOptions.strict_flattenJson, accepted]
        rfl
      · rw [letters, ParseOptions.strict_flattenJson, accepted, ite_self]
    · cases succeeded.symm.trans failed
  · intro reason failed
    rcases parseChunk_modes data with same | ⟨e, other, about⟩
    · rw [← same]
      exact failed
    · cases failed.symm.trans other
      cases about

end Parq.Parser
