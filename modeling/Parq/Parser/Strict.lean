import Parq.Binary.Truncate
import Parq.Parser.Correctness

/-!
# Strict mode and values that a column cannot hold

In strict mode a Boolean column refuses every value that is not a Boolean.  The
two numeric columns refuse nothing: what they have no cell for becomes null, and a
number that is not an integer of 64 bits becomes another one in an integer column.
The call therefore does what it should exactly when no record it reads has a value
in a numeric column that the type of the column cannot hold.
-/

namespace Parq.Parser

open Parq.Binary
open Parq.Data
open Parq.Sequence

/-! ## Values and the columns that hold them -/

/-- A value is present: it is not absent and not JSON null. -/
def Present : Option Value → Prop
  | none => False
  | some .null => False
  | some _ => True

theorem value_of_present {val : Option Value} (present : Present val) :
    ∃ value, val = some value ∧ value ≠ .null := by
  rcases val with _ | (_ | b | n | s | items | members) <;> first
    | exact present.elim
    | exact ⟨_, rfl, nofun⟩

/-- A numeric column has no cell for the value and stores null. -/
def Nulled : DataType → Option Value → Prop
  | .int64, some (.string s) => parseI64 s = none
  | .float64, some (.string s) => parseF64 s = none
  | .int64, some (.bool _) | .int64, some (.array _) | .int64, some (.object _) => True
  | .float64, some (.bool _) | .float64, some (.array _) | .float64, some (.object _) => True
  | _, _ => False

/-- The rational that a number stands for. -/
def numberValue : Number → ℚ
  | .posInt n => n.toNat
  | .negInt n _ => n.toInt
  | .float f _ => value f.unpack

/-- A type can hold a value other than null.  Integers of 64 bits are held whatever
literal they come from, any number is held as a float up to rounding, a numeric type
holds the texts that `str::parse` reads, and text holds every value as its JSON text. -/
def CanHold : DataType → Value → Prop
  | .boolean, .bool _ => True
  | .int64, .number n => ∃ k : Int64, numberValue n = k.toInt
  | .int64, .string s => parseI64 s ≠ none
  | .float64, .number _ => True
  | .float64, .string s => parseF64 s ≠ none
  | .utf8, _ => True
  | _, _ => False

theorem ofOption_eq_null_iff {α : Type} {wrap : α → Cell} (filled : ∀ a, wrap a ≠ .null)
    (value : Option α) : Cell.ofOption wrap value = .null ↔ value = none := by
  cases value with
  | none => simp [Cell.ofOption]
  | some a => simp [Cell.ofOption, filled]

/-- A native column that has no cell for a value is a numeric one that nulls it or
a Boolean one that refuses it. -/
theorem storedCell_eq_null_iff (J : SerdeJson) {declared : DataType}
    (native : declared ∈ nativeTypes)
    (val : Option Value) :
    storedCell J declared val = .null ↔
      ¬ Present val ∨ Nulled declared val ∨ (mismatch? declared val).isSome := by
  simp only [nativeTypes, List.mem_cons, List.not_mem_nil, or_false] at native
  rcases native with rfl | rfl | rfl | rfl
  case inr.inl | inr.inr.inl =>
    rcases val with _ | (_ | b | n | s | items | members) <;>
      simp [storedCell, Present, Nulled, mismatch?, ofOption_eq_null_iff]
  all_goals
    rcases val with _ | (_ | b | n | s | items | members) <;>
      simp [storedCell, Present, Nulled, mismatch?]

/-- A numeric column nulls nothing that its type can hold. -/
theorem not_nulled_of_canHold {declared : DataType} {value : Value}
    (held : CanHold declared value) : ¬ Nulled declared (some value) := by
  cases declared <;> cases value <;> first
    | exact id
    | exact held
    | exact fun _ => held

/-- A Boolean column refuses nothing that its type can hold. -/
theorem mismatch?_of_canHold {declared : DataType} {value : Value}
    (held : CanHold declared value) : mismatch? declared (some value) = none := by
  cases declared <;> cases value <;> first
    | rfl
    | exact held.elim

/-! ## Faithful calls -/

/-- A row stores each value of its record, with null for what is absent or JSON
null and for nothing else. -/
def Faithful (fields : List Field) (record : Map) (row : Row) : Prop :=
  List.Forall₂ (fun field cell => cell = .null ↔ ¬ Present (record.get field.name)) fields row

/-- The type of a field can hold what the record has for it, if that is not null. -/
def Held (field : Field) (record : Map) : Prop :=
  ∀ value, record.get field.name = some value → value ≠ .null → CanHold field.dataType value

/-- A record whose values can all be held by the types of their columns. -/
def Storable (schema : Schema) (record : Map) : Prop :=
  ∀ field ∈ schema.fields, Held field record

/-- A line that gives a strict call no reason to end: it is blank, or a record
whose values can all be held. -/
def LineStorable (J : SerdeJson) (o : ParseOptions) (line : Bytes) : Prop :=
  match classify J o.flattenJson line with
  | .blank => True
  | .rejected _ _ => False
  | .record obj => Storable o.schema obj

/-- All columns but the Boolean ones can hold the values of a record. -/
def HeldUnchecked (schema : Schema) (record : Map) : Prop :=
  ∀ field ∈ schema.fields, field.dataType ≠ .boolean → Held field record

/-- `HeldUnchecked` for the record of a line, if it has one. -/
def LineHeld (J : SerdeJson) (o : ParseOptions) (line : Bytes) : Prop :=
  ∀ record, record? J o.flattenJson line = some record → HeldUnchecked o.schema record

/-- A call never nulls a value silently: when it succeeds all rows are faithful,
and the first record with a value that the type of its column cannot hold ends the
call with a type mismatch at its line. -/
structure NeverNulls (J : SerdeJson) (o : ParseOptions) (limit : Option Nat) (data : Bytes) :
    Prop where
  faithful : ∀ parsed, (parseChunk J o limit data).result = .ok parsed →
    List.Forall₂ (Faithful o.schema.fields)
      (recordsOf J o.flattenJson (considered J o.flattenJson limit 0 (splitLines data)))
      (parsed.batches.flatMap RecordBatch.rows)
  mismatch : ∀ before line after record,
    considered J o.flattenJson limit 0 (splitLines data) = before ++ line :: after →
    (∀ other ∈ before, LineStorable J o other) →
    record? J o.flattenJson line = some record → ¬ Storable o.schema record →
    ∃ field expected found,
      (parseChunk J o limit data).result =
        .error (.typeMismatch field expected found (before.length + 1))

/-- The lines a strict call gets through: those it reads before the first line
that ends it. -/
def linesBeforeError (J : SerdeJson) (o : ParseOptions) (limit : Option Nat) (data : Bytes) :
    List Bytes :=
  (considered J o.flattenJson limit 0 (splitLines data)).takeWhile fun line =>
    (lineError J o 0 line).isNone

section Strict

variable {J : SerdeJson} {o : ParseOptions} {limit : Option Nat} {data : Bytes}

theorem lineError_of_record (strict : o.ignoreErrors = false) {line : Bytes} {record : Map}
    (read : record? J o.flattenJson line = some record) (lineNo : Nat) :
    lineError J o lineNo line =
      (firstMismatch o.schema record).map fun found =>
        .typeMismatch "bool_field" "Boolean" (J.debug found) lineNo := by
  unfold record? at read
  split at read
  · rename_i obj is_record
    cases read
    simp [lineError, strict, is_record]
  · cases read

/-- A record has a refused value exactly when it has one that a Boolean column
has no cell for. -/
theorem firstMismatch_eq_none_iff (schema : Schema) (record : Map) :
    firstMismatch schema record = none ↔
      ∀ field ∈ schema.fields,
        mismatch? (builtType field.dataType) (record.get field.name) = none :=
  List.findSome?_eq_none_iff

/-- A Boolean column refuses exactly what its type cannot hold. -/
theorem mismatch?_eq_none_iff {field : Field} (boolean : field.dataType = .boolean)
    (record : Map) :
    mismatch? field.dataType (record.get field.name) = none ↔ Held field record := by
  rw [Held, boolean]
  rcases record.get field.name with _ | (_ | b | n | s | items | members) <;>
    simp [mismatch?, CanHold]

theorem mismatch?_of_ne_boolean {declared : DataType} (other : declared ≠ .boolean)
    (val : Option Value) : mismatch? declared val = none := by
  cases declared <;> first
    | exact absurd rfl other
    | rfl

/-- In native columns all values of a record can be held exactly when the columns that
refuse nothing can hold theirs and no Boolean column refuses one. -/
theorem storable_iff {schema : Schema}
    (native : ∀ field ∈ schema.fields, field.dataType ∈ nativeTypes) (record : Map) :
    Storable schema record ↔
      HeldUnchecked schema record ∧ firstMismatch schema record = none := by
  rw [firstMismatch_eq_none_iff]
  constructor
  · intro storable
    refine ⟨fun field mem _ => storable field mem, ?_⟩
    intro field mem
    rw [builtType_of_mem_nativeTypes (native field mem)]
    by_cases boolean : field.dataType = .boolean
    · exact (mismatch?_eq_none_iff boolean record).mpr (storable field mem)
    · exact mismatch?_of_ne_boolean boolean _
  · rintro ⟨held, admitted⟩ field mem
    by_cases boolean : field.dataType = .boolean
    · have none_refused := admitted field mem
      rw [builtType_of_mem_nativeTypes (native field mem)] at none_refused
      exact (mismatch?_eq_none_iff boolean record).mp none_refused
    · exact held field mem boolean

/-- A line is storable exactly when it does not end the call and the columns that refuse
nothing can hold the values of its record. -/
theorem lineStorable_iff (strict : o.ignoreErrors = false)
    (native : ∀ field ∈ o.schema.fields, field.dataType ∈ nativeTypes) (line : Bytes) :
    LineStorable J o line ↔ lineError J o 0 line = none ∧ LineHeld J o line := by
  unfold LineStorable lineError LineHeld record?
  rw [strict]
  cases classify J o.flattenJson line with
  | blank => simp
  | rejected text source => simp
  | record obj => simp [storable_iff native, and_comm]

/-- The row of a storable record is faithful to it. -/
theorem faithful_rowOf {schema : Schema}
    (native : ∀ field ∈ schema.fields, field.dataType ∈ nativeTypes)
    {record : Map} (storable : Storable schema record) :
    Faithful schema.fields record (rowOf J schema record) := by
  apply List.forall₂_map_right_iff.mpr
  apply List.forall₂_same.mpr
  intro field mem
  rw [cellOf, builtType_of_mem_nativeTypes (native field mem),
    storedCell_eq_null_iff J (native field mem)]
  constructor
  · rintro (absent | lossy) present
    · exact absent present
    · rcases value_of_present present with ⟨value, found, nonnull⟩
      have held := storable field mem value found nonnull
      rw [found] at lossy
      rcases lossy with nulled | refused
      · exact not_nulled_of_canHold held nulled
      · simp [mismatch?_of_canHold held] at refused
  · exact .inl

/-- The error of a line that ends a strict call at a record is a type mismatch. -/
theorem typeMismatch_of_lineError (strict : o.ignoreErrors = false) {line : Bytes} {record : Map}
    (read : record? J o.flattenJson line = some record) {lineNo : Nat} {e : Error}
    (refused : lineError J o lineNo line = some e) :
    ∃ field expected found, e = .typeMismatch field expected found lineNo := by
  rw [lineError_of_record strict read, Option.map_eq_some_iff] at refused
  rcases refused with ⟨found, _, rfl⟩
  exact ⟨_, _, _, rfl⟩

/-- A type mismatch names the line that caused it. -/
theorem lineNo_of_typeMismatch {line : Bytes} {lineNo named : Nat} {field expected found : String}
    (refused : lineError J o lineNo line = some (.typeMismatch field expected found named)) :
    named = lineNo := by
  rcases lineError_cases refused with ⟨_, _, _, same⟩ | ⟨_, _, _, _, same⟩
  · cases same
  · cases same
    rfl

/-- A type mismatch comes from a record with a refused value. -/
theorem refused_of_parseChunk_eq_typeMismatch {named : Nat} {field expected found : String}
    (failed : (parseChunk J o limit data).result =
      .error (.typeMismatch field expected found named)) :
    ∃ line ∈ splitLines data, ∃ record, record? J o.flattenJson line = some record ∧
      firstMismatch o.schema record ≠ none := by
  have outcome := parseChunk_outcome J o limit data
  generalize parseChunk J o limit data = call at outcome failed
  cases outcome with
  | ok => cases failed
  | spoil => cases failed
  | @reject before after line _ split accepted refused =>
      cases failed
      have mem : line ∈ splitLines data := by
        apply considered_subset J o.flattenJson limit 0
        simp [split]
      refine ⟨line, mem, ?_⟩
      rcases lineError_cases refused with ⟨_, _, _, same⟩ | ⟨record, _, read, mismatch, _⟩
      · cases same
      · exact ⟨record, by rw [record?, read], by simp [mismatch]⟩

theorem lineError_of_mem_linesBeforeError {line : Bytes}
    (mem : line ∈ linesBeforeError J o limit data) : lineError J o 0 line = none := by
  simpa using List.mem_takeWhile_imp mem

/-- Lines without an error that come first are before the first error. -/
theorem mem_linesBeforeError {before after : List Bytes}
    (split : considered J o.flattenJson limit 0 (splitLines data) = before ++ after)
    (accepted : ∀ other ∈ before, lineError J o 0 other = none) {line : Bytes}
    (mem : line ∈ before) : line ∈ linesBeforeError J o limit data := by
  rw [linesBeforeError, split, List.takeWhile_append_of_pos (by simpa using accepted)]
  exact List.mem_append_left _ mem

/-- In a call that never nulls silently, the first line with a value that a column could
not hold would have to end the call. -/
theorem NeverNulls.held (never : NeverNulls J o limit data) (strict : o.ignoreErrors = false)
    (native : ∀ field ∈ o.schema.fields, field.dataType ∈ nativeTypes) :
    ∀ line ∈ linesBeforeError J o limit data, LineHeld J o line := by
  by_contra some_lossy
  simp only [not_forall, exists_prop] at some_lossy
  rcases exists_first_bad some_lossy with ⟨before, first, after, split, all_held, lossy⟩
  have harmless : ∀ other ∈ before ++ first :: after, lineError J o 0 other = none := by
    rw [← split]
    exact fun other => lineError_of_mem_linesBeforeError
  have storable : ∀ other ∈ before, LineStorable J o other := by
    intro other other_mem
    apply (lineStorable_iff strict native other).mpr
    exact ⟨harmless other (List.mem_append_left _ other_mem), all_held other other_mem⟩
  have lines_split : considered J o.flattenJson limit 0 (splitLines data) =
      linesBeforeError J o limit data ++ _ :=
    List.takeWhile_append_dropWhile.symm
  rw [split, List.append_assoc, List.cons_append] at lines_split
  simp only [LineHeld, not_forall] at lossy
  rcases lossy with ⟨culprit, culprit_read, not_held⟩
  obtain ⟨_, _, _, failed⟩ :=
    never.mismatch before first _ culprit lines_split storable culprit_read
    (fun stored => not_held ((storable_iff native culprit).mp stored).1)
  have outcome := parseChunk_outcome J o limit data
  generalize parseChunk J o limit data = call at outcome failed
  cases outcome with
  | ok => cases failed
  | spoil => cases failed
  | reject split' _ refused =>
      cases failed
      have lengths := lineNo_of_typeMismatch refused
      rcases List.append_inj (lines_split.symm.trans split') (by omega) with ⟨_, tails⟩
      rw [List.cons.injEq] at tails
      rw [← tails.1, (lineError_eq_none_iff J o _ first).mpr (harmless first (by simp))] at refused
      cases refused

section Held

variable (held : ∀ record ∈ recordsOf J o.flattenJson (linesBeforeError J o limit data),
  HeldUnchecked o.schema record)

include held

/-- A record before the first error is storable when nothing refuses it. -/
theorem storable_of_held (strict : o.ignoreErrors = false)
    (native : ∀ field ∈ o.schema.fields, field.dataType ∈ nativeTypes) {line : Bytes}
    (before_error : line ∈ linesBeforeError J o limit data) {record : Map}
    (read : record? J o.flattenJson line = some record) : Storable o.schema record := by
  have harmless := lineError_of_mem_linesBeforeError before_error
  rw [lineError_of_record strict read, Option.map_eq_none_iff] at harmless
  apply (storable_iff native record).mpr
  exact ⟨held record (List.mem_filterMap.mpr ⟨line, before_error, read⟩), harmless⟩

/-- When all values before the first error are held, a call that succeeds is faithful. -/
theorem faithful_of_held (strict : o.ignoreErrors = false)
    (native : ∀ field ∈ o.schema.fields, field.dataType ∈ nativeTypes) {parsed : Parsed}
    (succeeded : (parseChunk J o limit data).result = .ok parsed) :
    List.Forall₂ (Faithful o.schema.fields)
      (recordsOf J o.flattenJson (considered J o.flattenJson limit 0 (splitLines data)))
      (parsed.batches.flatMap RecordBatch.rows) := by
  rcases parseChunk_eq_ok succeeded with ⟨delivers, _⟩
  have lineOk := parseChunk_isOk_iff.mp ⟨parsed, succeeded⟩
  rw [delivers.rows]
  apply List.forall₂_map_right_iff.mpr
  apply List.forall₂_same.mpr
  intro record mem
  rcases List.mem_filterMap.mp mem with ⟨line, line_mem, read⟩
  have before_error := mem_linesBeforeError (List.append_nil _).symm
    (fun other other_mem => (lineOk other other_mem).1) line_mem
  exact faithful_rowOf native (storable_of_held held strict native before_error read)

/-- When all values before the first error are held, the first record that cannot be
stored is the first error. -/
theorem mismatch_of_held (strict : o.ignoreErrors = false)
    (nullable : ∀ field ∈ o.schema.fields, field.nullable = true)
    (native : ∀ field ∈ o.schema.fields, field.dataType ∈ nativeTypes)
    {before after : List Bytes} {line : Bytes} {record : Map}
    (split : considered J o.flattenJson limit 0 (splitLines data) = before ++ line :: after)
    (storable : ∀ other ∈ before, LineStorable J o other)
    (read : record? J o.flattenJson line = some record)
    (unstorable : ¬ Storable o.schema record) :
    ∃ field expected found,
      (parseChunk J o limit data).result =
        .error (.typeMismatch field expected found (before.length + 1)) := by
  have accepted : ∀ other ∈ before, lineError J o 0 other = none := by
    intro other mem
    exact ((lineStorable_iff strict native other).mp (storable other mem)).1
  have declared : o.schema.fields ≠ [] := by
    intro none_declared
    apply unstorable
    intro field mem
    rw [none_declared] at mem
    cases mem
  have lineOk : ∀ other ∈ before, LineOk J o other := by
    apply lineOk_of_writable accepted
    exact fun other _ => writable_of_native J declared nullable native other
  cases refused : lineError J o (before.length + 1) line with
  | some e =>
      rcases typeMismatch_of_lineError strict read refused with ⟨field, expected, found, rfl⟩
      exact ⟨field, expected, found, parseChunk_eq_error split lineOk refused⟩
  | none =>
      have harmless := (lineError_eq_none_iff J o _ line).mp refused
      have before_error : line ∈ linesBeforeError J o limit data := by
        apply mem_linesBeforeError (split.trans (List.append_cons _ _ _))
        · simpa [or_imp, forall_and, harmless] using accepted
        · simp
      exact absurd (storable_of_held held strict native before_error read) unstorable

end Held

end Strict

/-- A strict call over nullable native columns never nulls a value silently exactly when
no record before the first error has, in a column that is not Boolean, a value that the
type of the column cannot hold. -/
theorem neverNulls_iff {J : SerdeJson} {o : ParseOptions} {limit : Option Nat} {data : Bytes}
    (strict : o.ignoreErrors = false)
    (nullable : ∀ field ∈ o.schema.fields, field.nullable = true)
    (native : ∀ field ∈ o.schema.fields, field.dataType ∈ nativeTypes) :
    NeverNulls J o limit data ↔
      ∀ record ∈ recordsOf J o.flattenJson (linesBeforeError J o limit data),
        HeldUnchecked o.schema record := by
  constructor
  · intro never record mem
    rcases List.mem_filterMap.mp mem with ⟨line, line_mem, read⟩
    exact never.held strict native line line_mem record read
  · intro held
    constructor
    · exact fun parsed succeeded => faithful_of_held held strict native succeeded
    · intro before line after record split storable read unstorable
      exact mismatch_of_held held strict nullable native split storable read unstorable

/-- The first two of three records are stored whole, and the third ends the call that
reads it with a type mismatch. -/
theorem neverNulls_up_to_mismatch :
    let o : ParseOptions :=
      ⟨⟨[⟨"a", .int64, true⟩, ⟨"b", .boolean, true⟩]⟩, 2, false, false, false⟩
    let data := ascii
      "\x7b\"a\":1,\"b\":true\x7d\n\n\x7b\"a\":\"7\"\x7d\n\x7b\"b\":5\x7d"
    (∃ parsed, (parseChunk .twoKeys o (some 2) data).result = .ok parsed) ∧
      (∃ e, (parseChunk .twoKeys o none data).result = .error e) ∧
      ∀ limit ∈ [some 2, none], NeverNulls .twoKeys o limit data := by
  intro o data
  refine ⟨⟨_, rfl⟩, ⟨_, rfl⟩, ?_⟩
  intro limit limit_mem
  apply (neverNulls_iff rfl (by decide) (by decide)).mpr
  have two : recordsOf .twoKeys false (linesBeforeError .twoKeys o limit data) =
      [[("a", .number (.posInt 1)), ("b", .bool true)], [("a", .string "7")]] := by
    rcases limit_mem with _ | ⟨_, _ | ⟨_, ⟨⟩⟩⟩ <;> rfl
  have number_held : CanHold .int64 (.number (.posInt 1)) := ⟨1, by decide⟩
  have text_held : CanHold .int64 (.string "7") := by
    change parseI64 "7" ≠ none
    decide
  intro record mem field field_mem unchecked value found _
  change record ∈ recordsOf .twoKeys false _ at mem
  rw [two] at mem
  obtain rfl : field = ⟨"a", .int64, true⟩ := by
    rcases field_mem with _ | ⟨_, _ | ⟨_, ⟨⟩⟩⟩
    · rfl
    · exact absurd rfl unchecked
  rcases mem with _ | ⟨_, _ | ⟨_, ⟨⟩⟩⟩
  · exact Option.some.inj found ▸ number_held
  · exact Option.some.inj found ▸ text_held

/-- In strict mode an `Int64` column stores null for a Boolean, and the call
succeeds. -/
theorem strict_int64_column_nulls_boolean :
    (∃ parsed, (parseChunk .sample (.oneColumn .int64 false) none
        (ascii "\x7b\"a\":true\x7d")).result = .ok parsed ∧
      parsed.batches.flatMap RecordBatch.rows = [[.null]]) ∧
    ¬ NeverNulls .sample (.oneColumn .int64 false) none (ascii "\x7b\"a\":true\x7d") := by
  refine ⟨⟨_, rfl, rfl⟩, ?_⟩
  intro never
  have rows := never.faithful _ rfl
  have cells := (List.forall₂_cons.mp rows).1
  have cell := (List.forall₂_cons.mp cells).1
  exact cell.mp rfl trivial

end Parq.Parser
