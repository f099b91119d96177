import Parq.Parser.Core

/-!
# Reading a chunk line by line

The abstract account of `parse_chunk`: each line on its own is blank, rejected or
a record; a record has one row; and what the call delivers is determined by the
lines it considers.  Nothing here mentions builders, batches or counters.
-/

namespace Parq.Parser

open Parq.Data

/-! ## One line -/

/-- What a line is to the parser. -/
inductive LineClass
  | blank
  | rejected (text : Bytes) (source : JsonError)
  | record (obj : Map)

/-- A non-blank line is a record when it reads as a JSON object and is rejected
otherwise. -/
def classify (J : SerdeJson) (flattenJson : Bool) (line : Bytes) : LineClass :=
  match trimmed? line with
  | none => .blank
  | some text =>
      match J.fromSlice text with
      | .error e => .rejected text e
      | .ok (.object members) => .record (dispatched J flattenJson members)
      | .ok _ => .rejected text J.bang

/-- The object of a line that is a record. -/
def record? (J : SerdeJson) (flattenJson : Bool) (line : Bytes) : Option Map :=
  match classify J flattenJson line with
  | .record obj => some obj
  | _ => none

/-- The trimmed text of a line that is rejected. -/
def rejected? (J : SerdeJson) (line : Bytes) : Option Bytes :=
  match classify J false line with
  | .rejected text _ => some text
  | _ => none

/-- The records among the lines. -/
def recordsOf (J : SerdeJson) (flattenJson : Bool) (lines : List Bytes) : List Map :=
  lines.filterMap (record? J flattenJson)

/-- The rejected lines, trimmed. -/
def rejectedOf (J : SerdeJson) (lines : List Bytes) : List Bytes :=
  lines.filterMap (rejected? J)

/-! ## One record -/

/-- The cell of a record in the column of a field. -/
def cellOf (J : SerdeJson) (field : Field) (obj : Map) : Cell :=
  storedCell J (builtType field.dataType) (obj.get field.name)

/-- The row of a record. -/
def rowOf (J : SerdeJson) (schema : Schema) (obj : Map) : Row :=
  schema.fields.map fun field => cellOf J field obj

/-- The first value of a record that a Boolean column refuses in strict mode. -/
def firstMismatch (schema : Schema) (obj : Map) : Option Value :=
  schema.fields.findSome? fun field =>
    mismatch? (builtType field.dataType) (obj.get field.name)

/-- A column declared as `field` may hold the cell in a record batch.  Null
columns count no nulls. -/
def AdmitsCell (field : Field) (cell : Cell) : Prop :=
  builtType field.dataType = field.dataType ∧
    (field.nullable = true ∨ field.dataType = .null ∨ cell ≠ .null)

/-- A batch can be formed with the row of a record. -/
def Writable (J : SerdeJson) (schema : Schema) (obj : Map) : Prop :=
  schema.fields ≠ [] ∧ ∀ field ∈ schema.fields, AdmitsCell field (cellOf J field obj)

/-! ## The lines of a call -/

/-- The error that ends the call at a line, if any. -/
def lineError (J : SerdeJson) (o : ParseOptions) (lineNo : Nat) (line : Bytes) : Option Error :=
  if o.ignoreErrors then
    none
  else
    match classify J o.flattenJson line with
    | .blank => none
    | .rejected _ source => some (.jsonParse lineNo source)
    | .record obj =>
        (firstMismatch o.schema obj).map fun found =>
          .typeMismatch "bool_field" "Boolean" (J.debug found) lineNo

/-- A line that neither ends the call nor spoils a batch. -/
def LineOk (J : SerdeJson) (o : ParseOptions) (line : Bytes) : Prop :=
  lineError J o 0 line = none ∧
    ∀ obj, record? J o.flattenJson line = some obj → Writable J o.schema obj

/-- The lines that a call reads before the row limit stops it, when `accepted`
records have been read before. -/
def considered (J : SerdeJson) (flattenJson : Bool) (limit : Option Nat) :
    (accepted : Nat) → List Bytes → List Bytes
  | _, [] => []
  | accepted, line :: lines =>
      if limitReached limit accepted then
        []
      else
        line :: considered J flattenJson limit
          (accepted + (record? J flattenJson line).toList.length) lines

/-- What a successful call over the lines delivers. -/
structure Delivers (J : SerdeJson) (o : ParseOptions) (lines : List Bytes) (parsed : Parsed) :
    Prop where
  rows : parsed.batches.flatMap RecordBatch.rows =
    (recordsOf J o.flattenJson lines).map (rowOf J o.schema)
  rowsOk : parsed.rowsOk = (recordsOf J o.flattenJson lines).length
  rowsSkipped : parsed.rowsSkipped = (rejectedOf J lines).length
  full : ∀ batch ∈ parsed.batches.dropLast, batch.numRows = max o.batchSize 1
  sizes : ∀ batch ∈ parsed.batches, 1 ≤ batch.numRows ∧ batch.numRows ≤ max o.batchSize 1

/-! ## Basic facts -/

section Blank

variable {J : SerdeJson} {line : Bytes}

theorem classify_of_blank (flattenJson : Bool) (blank : trimmed? line = none) :
    classify J flattenJson line = .blank := by
  rw [classify, blank]

theorem record?_of_blank (flattenJson : Bool) (blank : trimmed? line = none) :
    record? J flattenJson line = none := by
  rw [record?, classify_of_blank flattenJson blank]

theorem rejected?_of_blank (blank : trimmed? line = none) : rejected? J line = none := by
  rw [rejected?, classify_of_blank false blank]

theorem lineOk_of_blank {o : ParseOptions} (blank : trimmed? line = none) : LineOk J o line := by
  simp [LineOk, lineError, record?, classify_of_blank o.flattenJson blank]

end Blank

@[simp]
theorem record?_nil (J : SerdeJson) (flattenJson : Bool) : record? J flattenJson [] = none :=
  rfl

@[simp]
theorem rejected?_nil (J : SerdeJson) : rejected? J [] = none :=
  rfl

@[simp]
theorem recordsOf_cons (J : SerdeJson) (flattenJson : Bool) (line : Bytes) (lines : List Bytes) :
    recordsOf J flattenJson (line :: lines) =
      (record? J flattenJson line).toList ++ recordsOf J flattenJson lines := by
  cases read : record? J flattenJson line <;> simp [recordsOf, read]

@[simp]
theorem rejectedOf_cons (J : SerdeJson) (line : Bytes) (lines : List Bytes) :
    rejectedOf J (line :: lines) = (rejected? J line).toList ++ rejectedOf J lines := by
  cases read : rejected? J line <;> simp [rejectedOf, read]

/-- A record is what dispatching makes of the JSON object on the line. -/
theorem record?_eq (J : SerdeJson) (flattenJson : Bool) (line : Bytes) :
    record? J flattenJson line =
      ((trimmed? line).bind J.object?).map (dispatched J flattenJson) := by
  unfold record? classify
  cases trimmed? line with
  | none => rfl
  | some text =>
      unfold SerdeJson.object?
      cases read : J.fromSlice text with
      | error e => simp [read]
      | ok value => cases value <;> simp [read]

theorem record?_false_eq_some_iff (J : SerdeJson) (line : Bytes) (obj : Map) :
    record? J false line = some obj ↔
      ∃ text, trimmed? line = some text ∧ J.fromSlice text = .ok (.object obj) := by
  simp [record?_eq, dispatched, Option.bind_eq_some_iff, SerdeJson.object?_eq_some_iff]

@[simp]
theorem recordsOf_append (J : SerdeJson) (flattenJson : Bool) (lines more : List Bytes) :
    recordsOf J flattenJson (lines ++ more) =
      recordsOf J flattenJson lines ++ recordsOf J flattenJson more :=
  List.filterMap_append

@[simp]
theorem rejectedOf_append (J : SerdeJson) (lines more : List Bytes) :
    rejectedOf J (lines ++ more) = rejectedOf J lines ++ rejectedOf J more :=
  List.filterMap_append

@[simp]
theorem recordsOf_nil (J : SerdeJson) (flattenJson : Bool) : recordsOf J flattenJson [] = [] :=
  rfl

@[simp]
theorem rejectedOf_nil (J : SerdeJson) : rejectedOf J [] = [] :=
  rfl

/-- Whether a line is rejected does not depend on flattening. -/
theorem rejected?_eq (J : SerdeJson) (flattenJson : Bool) (line : Bytes) :
    rejected? J line =
      match classify J flattenJson line with
      | .rejected text _ => some text
      | _ => none := by
  unfold rejected? classify
  cases trimmed? line with
  | none => rfl
  | some text =>
      cases read : J.fromSlice text with
      | error e => simp [read]
      | ok value => cases value <;> simp [read]

/-- The line number only enters the error. -/
theorem lineError_eq_none_iff (J : SerdeJson) (o : ParseOptions) (lineNo : Nat) (line : Bytes) :
    lineError J o lineNo line = none ↔ lineError J o 0 line = none := by
  unfold lineError
  split
  · rfl
  · split <;> simp

/-- Only in strict mode does a line end a call, by being rejected or by a record with a
refused value. -/
theorem lineError_cases {J : SerdeJson} {o : ParseOptions} {lineNo : Nat} {line : Bytes}
    {e : Error} (refused : lineError J o lineNo line = some e) :
    (∃ text source, classify J o.flattenJson line = .rejected text source ∧
        e = .jsonParse lineNo source) ∨
      ∃ record found, classify J o.flattenJson line = .record record ∧
        firstMismatch o.schema record = some found ∧
        e = .typeMismatch "bool_field" "Boolean" (J.debug found) lineNo := by
  unfold lineError at refused
  split at refused
  · cases refused
  · cases read : classify J o.flattenJson line with
    | blank => simp [read] at refused
    | rejected text source =>
        left
        simp only [read, Option.some.injEq] at refused
        exact ⟨text, source, rfl, refused.symm⟩
    | record record =>
        right
        simp only [read, Option.map_eq_some_iff] at refused
        rcases refused with ⟨found, mismatch, same⟩
        exact ⟨record, found, rfl, mismatch, same.symm⟩

@[simp]
theorem considered_none (J : SerdeJson) (flattenJson : Bool) (accepted : Nat)
    (lines : List Bytes) : considered J flattenJson none accepted lines = lines := by
  induction lines generalizing accepted with
  | nil => rfl
  | cons line lines ih => simp [considered, limitReached, ih]

/-- The more records have been read before, the sooner the row limit stops the call. -/
theorem considered_prefix_of_le (J : SerdeJson) (flattenJson : Bool) (limit : Option Nat)
    {fewer more : Nat} (le : fewer ≤ more) (lines : List Bytes) :
    considered J flattenJson limit more lines <+: considered J flattenJson limit fewer lines := by
  induction lines generalizing fewer more with
  | nil => exact List.prefix_refl _
  | cons line lines ih =>
      cases reached : limitReached limit more with
      | true =>
          rw [considered, if_pos reached]
          exact List.nil_prefix
      | false =>
          have within : limitReached limit fewer = false := by
            cases limit with
            | none => rfl
            | some n =>
                rw [limitReached, decide_eq_false_iff_not] at reached ⊢
                omega
          rw [considered, considered, reached, within, if_neg Bool.false_ne_true,
            if_neg Bool.false_ne_true, List.prefix_cons_inj]
          exact ih (Nat.add_le_add_right le _)

/-- The row limit leaves the first records. -/
theorem recordsOf_considered (J : SerdeJson) (flattenJson : Bool) (n accepted : Nat)
    (lines : List Bytes) :
    recordsOf J flattenJson (considered J flattenJson (some n) accepted lines) =
      (recordsOf J flattenJson lines).take (n - accepted) := by
  induction lines generalizing accepted with
  | nil => simp [considered]
  | cons line lines ih =>
      by_cases reached : n ≤ accepted
      · simp [considered, limitReached, reached]
      · cases read : record? J flattenJson line with
        | none => simp [considered, limitReached, reached, read, ih]
        | some obj =>
            have left : n - accepted = n - (accepted + 1) + 1 := by omega
            rw [left]
            simp [considered, limitReached, reached, read, ih]

/-- In a non-empty schema of nullable native columns every record can be
stored. -/
theorem writable_of_native (J : SerdeJson) {schema : Schema} (nonempty : schema.fields ≠ [])
    (nullable : ∀ field ∈ schema.fields, field.nullable = true)
    (native : ∀ field ∈ schema.fields, field.dataType ∈ nativeTypes) (obj : Map) :
    Writable J schema obj := by
  refine ⟨nonempty, ?_⟩
  intro field mem
  exact ⟨builtType_of_mem_nativeTypes (native field mem), .inl (nullable field mem)⟩

/-- The lines a call reads are the first lines of its data. -/
theorem considered_prefix_self (J : SerdeJson) (flattenJson : Bool) (limit : Option Nat)
    (accepted : Nat) (lines : List Bytes) :
    considered J flattenJson limit accepted lines <+: lines := by
  induction lines generalizing accepted with
  | nil => exact List.prefix_refl _
  | cons line lines ih =>
      rw [considered]
      split
      · exact List.nil_prefix
      · exact (List.prefix_cons_inj line).mpr (ih _)

theorem considered_subset (J : SerdeJson) (flattenJson : Bool) (limit : Option Nat)
    (accepted : Nat) (lines : List Bytes) : considered J flattenJson limit accepted lines ⊆ lines :=
  (considered_prefix_self J flattenJson limit accepted lines).subset

end Parq.Parser
