import Parq.Flatten.Names
import Parq.Parser.Exported

/-!
# What a row keeps of its record

A record that is written to a row and read back from it as an object is what it was without
its nulls exactly when each of its other members has a column of its kind.  A column of
truth values, of integers, of floats or of text is of the kind of just those values; a
column of floats also holds the texts of the floats that JSON has no numbers for.
-/

namespace Parq.Parser

open Parq.Data
open Parq.Flatten
open Parq.Sequence

/-! ## Values that are stored as they are -/

/-- A column built as `built` stores the value as it is. -/
inductive OfKind : DataType → Value → Prop
  | boolean (b : Bool) : OfKind .boolean (.bool b)
  | int64 {n : Number} (fits : n.isI64 = true) : OfKind .int64 (.number n)
  | float64 {f : F64} (finite : f.isFinite = true) : OfKind .float64 (.number (.float f finite))
  | infinite {f : F64} (infinite : f.isFinite = false) : OfKind .float64 (.string (infiniteText f))
  | utf8 (s : String) : OfKind .utf8 (.string s)

/-- A number that fits is the number of its integer. -/
theorem ofI64_of_asI64 {n : Number} {k : Int64} (fits : n.asI64 = some k) : Number.ofI64 k = n := by
  refine Number.integer?_injective (Number.integer?_ofI64 k) ?_
  cases n with
  | posInt n =>
      rw [Number.asI64] at fits
      split at fits
      · rename_i below
        rw [Option.some.injEq] at fits
        subst fits
        rw [Number.integer?, Int64.toInt_ofInt_of_le]
        · exact Int.le_trans (by decide) (Int.natCast_nonneg _)
        · omega
      · cases fits
  | negInt n negative =>
      cases fits
      rfl
  | float f finite => cases fits

theorem OfKind.cellValue_storedCell {built : DataType} {value : Value} (kind : OfKind built value)
    (J : SerdeJson) : cellValue (storedCell J built (some value)) = some value := by
  cases kind with
  | boolean | utf8 => rfl
  | int64 fits =>
      obtain ⟨k, found⟩ := Option.isSome_iff_exists.mp fits
      rw [storedCell, cellValue, ColBuilder.integerOf, found, Option.getD_some,
        ofI64_of_asI64 found]
  | float64 finite => exact congrArg some (floatValue_of_finite finite)
  | infinite infinite =>
      rw [storedCell, parseF64_infiniteText infinite, Cell.ofOption, cellValue,
        floatValue_of_infinite infinite]

/-- What a column writes is of its kind. -/
theorem ofKind_cellValue {built : DataType} {cell : Cell} {value : Value} (held : HeldBy built cell)
    (written : cellValue cell = some value) : OfKind built value := by
  cases held with
  | null => cases written
  | boolean b =>
      cases written
      exact .boolean b
  | int64 n =>
      cases written
      exact .int64 (isI64_ofI64 n)
  | float64 f =>
      cases written
      by_cases finite : f.isFinite = true
      · rw [floatValue_of_finite finite]
        exact .float64 finite
      · rw [floatValue_of_infinite (Bool.eq_false_iff.mpr finite)]
        exact .infinite (Bool.eq_false_iff.mpr finite)
  | utf8 s =>
      cases written
      exact .utf8 s

/-- Just the values of its kind come back from a column as they were. -/
theorem cellValue_storedCell_iff (J : SerdeJson) (built : DataType) (value : Value) :
    cellValue (storedCell J built (some value)) = some value ↔ OfKind built value := by
  constructor
  · exact ofKind_cellValue (heldBy_storedCell J built _)
  · exact fun kind => kind.cellValue_storedCell J

/-! ## Records without their nulls -/

/-- A value other than null. -/
def isValued : Value → Bool
  | .null => false
  | _ => true

theorem isValued_iff (value : Value) : isValued value = true ↔ value ≠ .null := by
  cases value <;> simp [isValued]

/-- The members of a record that are not null. -/
def dropNulls (record : Map) : Map :=
  record.filter fun member => isValued member.2

section Nulls

variable {record : Map} (sorted : record.Sorted)

include sorted

theorem sorted_dropNulls : (dropNulls record).Sorted :=
  sorted.sublist (List.filter_sublist.map Prod.fst)

theorem get_dropNulls (key : String) :
    (dropNulls record).get key = (record.get key).filter isValued := by
  apply Option.ext
  intro value
  rw [Map.get_eq_some_iff (sorted_dropNulls sorted), dropNulls, List.mem_filter,
    Option.filter_eq_some_iff, Map.get_eq_some_iff sorted]

/-- A column stores the same of a record without its nulls. -/
theorem cellOf_dropNulls (J : SerdeJson) (field : Field) :
    cellOf J field (dropNulls record) = cellOf J field record := by
  rw [cellOf, cellOf, get_dropNulls sorted]
  cases record.get field.name with
  | none => rfl
  | some value =>
      cases value with
      | null =>
          rw [Option.filter_some, isValued, storedCell_null, if_neg Bool.false_ne_true,
            storedCell_none]
      | _ => rfl

end Nulls

/-! ## Records that fit -/

/-- Each member that is not null has a column of its kind. -/
def Fits (fields : List Field) (record : Map) : Prop :=
  ∀ key value, record.get key = some value → value ≠ .null →
    ∃ field ∈ fields, field.name = key ∧ OfKind (builtType field.dataType) value

section Fits

variable {J : SerdeJson} {schema : Schema} {record : Map}
  (distinct : (schema.fields.map Field.name).Nodup) (sorted : record.Sorted)

include distinct

theorem get_rowObject_rowOf {field : Field} (mem : field ∈ schema.fields) :
    (rowObject schema.fields (rowOf J schema record)).get field.name =
      cellValue (cellOf J field record) :=
  get_rowObject distinct (fun field => cellOf J field record) mem

include sorted

/-- A row is written as its record without the nulls exactly when the record fits. -/
theorem rowObject_eq_dropNulls_iff :
    rowObject schema.fields (rowOf J schema record) = dropNulls record ↔
      Fits schema.fields record := by
  constructor
  · intro same key value found valued
    have kept : (rowObject schema.fields (rowOf J schema record)).get key = some value := by
      rw [same, get_dropNulls sorted, found, Option.filter_some,
        if_pos ((isValued_iff value).mpr valued)]
    by_cases declared : key ∈ schema.fields.map Field.name
    · rcases List.mem_map.mp declared with ⟨field, mem, rfl⟩
      rw [get_rowObject_rowOf distinct mem, cellOf, found, cellValue_storedCell_iff] at kept
      exact ⟨field, mem, rfl, kept⟩
    · rw [get_rowObject_of_not_mem declared] at kept
      cases kept
  · intro fits
    apply eq_of_lookup_eq (sorted_rowObject _ _) (sorted_dropNulls sorted)
    intro key
    change (rowObject _ _).get key = (dropNulls record).get key
    rw [get_dropNulls sorted]
    by_cases declared : key ∈ schema.fields.map Field.name
    · rcases List.mem_map.mp declared with ⟨field, mem, rfl⟩
      rw [get_rowObject_rowOf distinct mem, cellOf]
      cases found : record.get field.name with
      | none =>
          rw [storedCell_none]
          rfl
      | some value =>
          by_cases null : value = .null
          · subst null
            rw [storedCell_null]
            rfl
          · obtain ⟨other, other_mem, named, kind⟩ := fits field.name value found null
            obtain rfl := List.inj_on_of_nodup_map distinct other_mem mem named
            rw [kind.cellValue_storedCell J, Option.filter_some,
              if_pos ((isValued_iff value).mpr null)]
    · rw [get_rowObject_of_not_mem declared]
      cases found : record.get key with
      | none => rfl
      | some value =>
          by_cases null : value = .null
          · subst null
            rfl
          · obtain ⟨field, mem, named, _⟩ := fits key value found null
            exact absurd (List.mem_map.mpr ⟨field, mem, named⟩) declared

end Fits

/-- The records of lines have their members in key order. -/
theorem sorted_of_record? {J : SerdeJson} {flattenJson : Bool} {line : Bytes} {record : Map}
    (read : record? J flattenJson line = some record) : record.Sorted := by
  rw [record?_eq, Option.map_eq_some_iff] at read
  obtain ⟨members, found, rfl⟩ := read
  obtain ⟨text, _, object⟩ := Option.bind_eq_some_iff.mp found
  unfold dispatched
  split
  · exact sorted_flattenObject J "_" members
  · exact (J.fromSlice_sorted ((J.object?_eq_some_iff text members).mp object)).1

end Parq.Parser
