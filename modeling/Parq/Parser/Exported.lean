import Parq.Flatten.Flat
import Parq.Data.Borrowed
import Parq.Parser.Reading

/-!
# Rows as JSON objects

A row is written as the object that lists its cells under the names of their fields and
leaves out the nulls.  JSON has no number for infinity and NaN, so these are written as the
texts from which `str::parse` reads them.  A column that is given a value it wrote stores
the cell it had.
-/

namespace Parq.Data

open Float.Model

/-! ## Floats that are not finite -/

theorem toBitVec_ofBitVec (b : BitVec 1) : (UnpackedFloat.Sign.ofBitVec b).toBitVec = b := by
  revert b
  decide

/-- A bit pattern with the greatest exponent and no mantissa is made of its sign. -/
theorem bits_of_infinity {bits : BitVec 64} (exponent : bits.extractLsb 62 52 = -1#11)
    (mantissa : bits.extractLsb 51 0 = 0#52) :
    bits.extractLsb 63 63 ++ -1#11 ++ 0#52 = bits := by
  rw [← exponent, ← mantissa]
  grind

/-- A bit pattern without the greatest exponent unpacks to a finite float. -/
theorem isFinite_unpack {bits : BitVec 64}
    (exponent : @UnpackedFloat.unpackExponent Format.binary64 bits ≠ -1#11) :
    (UnpackedFloat.unpack Format.binary64 bits).isFinite = true := by
  by_cases least : @UnpackedFloat.unpackExponent Format.binary64 bits = 0#11
  · by_cases mantissa : @UnpackedFloat.unpackMantissa Format.binary64 bits = 0#52
    · have unpacked : UnpackedFloat.unpack Format.binary64 bits = .zero _ :=
        (if_neg exponent).trans ((if_pos least).trans (dif_pos mantissa))
      rw [unpacked]
      rfl
    · have unpacked : UnpackedFloat.unpack Format.binary64 bits = .finite _ _ _ _ :=
        (if_neg exponent).trans ((if_pos least).trans (dif_neg mantissa))
      rw [unpacked]
      rfl
  · have unpacked : UnpackedFloat.unpack Format.binary64 bits = .finite _ _ _ _ :=
      (if_neg exponent).trans (if_neg least)
    rw [unpacked]
    rfl

/-- An infinity and the one NaN are packed as they were unpacked. -/
theorem pack_unpack_of_infinite {f : F64} (infinite : f.isFinite = false) :
    Float.Model.pack f.unpack = f := by
  rcases f with ⟨⟨bits⟩, valid⟩
  have exponent : @UnpackedFloat.unpackExponent Format.binary64 bits = -1#11 := by
    by_contra other
    have finite : (UnpackedFloat.unpack Format.binary64 bits).isFinite = false := infinite
    rw [isFinite_unpack other] at finite
    cases finite
  have packed : UnpackedFloat.pack Format.binary64
      (UnpackedFloat.unpack Format.binary64 bits) = bits := by
    by_cases mantissa : @UnpackedFloat.unpackMantissa Format.binary64 bits = 0#52
    · have unpacked : UnpackedFloat.unpack Format.binary64 bits =
          .infinity (.ofBitVec (bits.extractLsb 63 63)) :=
        (if_pos exponent).trans (if_pos mantissa)
      have parts : ∀ sign, UnpackedFloat.pack Format.binary64 (.infinity sign) =
          sign.toBitVec ++ -1#11 ++ 0#52 := fun _ => rfl
      rw [unpacked, parts, toBitVec_ofBitVec]
      exact bits_of_infinity exponent mantissa
    · have unpacked : UnpackedFloat.unpack Format.binary64 bits = .notANumber :=
        (if_pos exponent).trans (if_neg mantissa)
      rw [unpacked]
      exact (valid.eq_packedNaN exponent mantissa).symm
  unfold Float.Model.pack
  congr 1
  exact congrArg UInt64.ofBitVec packed

/-- The text of an `f64` that is not finite. -/
def infiniteText (f : F64) : String :=
  match f.unpack with
  | .infinity .positive => "inf"
  | .infinity .negative => "-inf"
  | _ => "NaN"

theorem parseF64_infiniteText {f : F64} (infinite : f.isFinite = false) :
    parseF64 (infiniteText f) = some f := by
  have packed := pack_unpack_of_infinite infinite
  unfold infiniteText
  cases unpacked : f.unpack with
  | infinity sign =>
      rw [unpacked] at packed
      subst packed
      cases sign with
      | positive => decide
      | negative => decide +kernel
  | notANumber =>
      rw [unpacked] at packed
      subst packed
      decide
  | zero | finite =>
      rw [Float.Model.isFinite, unpacked] at infinite
      cases infinite

end Parq.Data

namespace Parq.Parser

open Parq.Data
open Parq.Flatten
open Parq.Sequence

/-! ## Cells -/

/-- The value that an `f64` is written as. -/
def floatValue (f : F64) : Value :=
  match Number.ofF64 f with
  | some n => .number n
  | none => .string (infiniteText f)

/-- The value that a cell is written as. -/
def cellValue : Cell → Option Value
  | .null => none
  | .boolean b => some (.bool b)
  | .int64 n => some (.number (.ofI64 n))
  | .float64 f => some (floatValue f)
  | .utf8 s => some (.string s)

theorem asI64_ofI64 (n : Int64) : (Number.ofI64 n).asI64 = some n := by
  unfold Number.ofI64
  split
  · rfl
  · rename_i nonnegative
    have bound : 0 ≤ n.toInt := by
      rw [Int64.lt_iff_toInt_lt] at nonnegative
      simpa using nonnegative
    have le := Int64.not_lt.mp nonnegative
    have same : (n.toUInt64.toNat : Int) = n.toInt := by
      rw [Int64.toNat_toUInt64_of_le le, ← Int64.toNat_toInt, Int.toNat_of_nonneg bound]
    have below : n.toUInt64.toNat < 9223372036854775808 := by
      have := n.toInt_lt
      omega
    rw [Number.asI64, if_pos below, same, Int64.ofInt_toInt]

theorem isI64_ofI64 (n : Int64) : (Number.ofI64 n).isI64 = true := by
  rw [Number.isI64, asI64_ofI64, Option.isSome_some]

theorem floatValue_of_finite {f : F64} (finite : f.isFinite = true) :
    floatValue f = .number (.float f finite) := by
  rw [floatValue, Number.ofF64, dif_pos finite]

theorem floatValue_of_infinite {f : F64} (infinite : f.isFinite = false) :
    floatValue f = .string (infiniteText f) := by
  rw [floatValue, Number.ofF64, dif_neg (Bool.eq_false_iff.mp infinite)]

theorem storedCell_none (J : SerdeJson) (built : DataType) : storedCell J built none = .null := by
  cases built <;> rfl

theorem storedCell_null (J : SerdeJson) (built : DataType) :
    storedCell J built (some .null) = .null := by
  cases built <;> rfl

theorem storedCell_floatValue (J : SerdeJson) (f : F64) :
    storedCell J .float64 (some (floatValue f)) = .float64 f := by
  by_cases finite : f.isFinite = true
  · rw [floatValue_of_finite finite]
    rfl
  · have infinite := Bool.eq_false_iff.mpr finite
    rw [floatValue_of_infinite infinite, storedCell, parseF64_infiniteText infinite]
    rfl

/-- A cell that a column built as `built` may hold. -/
inductive HeldBy : DataType → Cell → Prop
  | null {built : DataType} : HeldBy built .null
  | boolean (b : Bool) : HeldBy .boolean (.boolean b)
  | int64 (n : Int64) : HeldBy .int64 (.int64 n)
  | float64 (f : F64) : HeldBy .float64 (.float64 f)
  | utf8 (s : String) : HeldBy .utf8 (.utf8 s)

theorem heldBy_storedCell (J : SerdeJson) (built : DataType) (val : Option Value) :
    HeldBy built (storedCell J built val) := by
  unfold storedCell
  split
  case h_1 v => exact .boolean v
  case h_2 n => exact .int64 _
  case h_3 s =>
    cases parseI64 s with
    | none => exact .null
    | some n => exact .int64 n
  case h_4 n => exact .float64 _
  case h_5 s =>
    cases parseF64 s with
    | none => exact .null
    | some f => exact .float64 f
  case h_8 s => exact .utf8 s
  case h_9 other _ _ => exact .utf8 _
  all_goals exact .null

/-- A column stores a cell it holds from the value that it is written as, and does not
refuse that value. -/
theorem storedCell_cellValue (J : SerdeJson) {built : DataType} {cell : Cell}
    (held : HeldBy built cell) :
    storedCell J built (cellValue cell) = cell ∧ mismatch? built (cellValue cell) = none := by
  cases held with
  | null =>
      constructor
      · exact storedCell_none J built
      · cases built <;> rfl
  | boolean b => exact ⟨rfl, rfl⟩
  | int64 n =>
      refine ⟨?_, rfl⟩
      rw [cellValue, storedCell, ColBuilder.integerOf, asI64_ofI64, Option.getD_some]
  | float64 f => exact ⟨storedCell_floatValue J f, rfl⟩
  | utf8 s => exact ⟨rfl, rfl⟩

theorem isScalar_of_cellValue {cell : Cell} {value : Value}
    (written : cellValue cell = some value) : IsScalar value := by
  cases cell with
  | null => cases written
  | float64 f =>
      cases written
      unfold floatValue
      split <;> trivial
  | boolean b | int64 n | utf8 s =>
      cases written
      trivial

theorem cellValue_ne_null {cell : Cell} {value : Value} (written : cellValue cell = some value) :
    value ≠ .null := by
  rintro rfl
  cases cell with
  | float64 f =>
      rw [cellValue, Option.some.injEq] at written
      unfold floatValue at written
      split at written <;> cases written
  | _ => cases written

theorem cellValue_eq_none_iff (cell : Cell) : cellValue cell = none ↔ cell = .null := by
  cases cell <;> simp [cellValue]

/-! ## Rows -/

/-- The member that a cell is written as, under the name of its field. -/
def member? (pair : Field × Cell) : Option (String × Value) :=
  (cellValue pair.2).map fun value => (pair.1.name, value)

/-- The object that a row is written as. -/
def rowObject (fields : List Field) (row : Row) : Map :=
  Map.fromIter ((fields.zip row).filterMap member?)

theorem sorted_rowObject (fields : List Field) (row : Row) : (rowObject fields row).Sorted :=
  pairwise_collect _

theorem allScalar_rowObject (fields : List Field) (row : Row) :
    AllScalar (rowObject fields row) := by
  have collected : ∀ entries : List (String × Value), (∀ entry ∈ entries, IsScalar entry.2) →
      ∀ out : Map, AllScalar out →
        AllScalar (entries.foldl (fun map entry => insertKey entry.1 entry.2 map) out) := by
    intro entries
    induction entries with
    | nil => exact fun _ _ scalars => scalars
    | cons entry rest ih =>
        intro each out scalars
        exact ih (fun other mem => each other (List.mem_cons_of_mem _ mem)) _
          (scalars.insert entry.1 (each entry List.mem_cons_self))
  refine collected _ ?_ [] fun _ mem => absurd mem List.not_mem_nil
  intro entry mem
  rcases List.mem_filterMap.mp mem with ⟨⟨field, cell⟩, _, found⟩
  rcases Option.map_eq_some_iff.mp found with ⟨value, written, rfl⟩
  exact isScalar_of_cellValue written

/-- Under distinct names each cell is found under the name of its field. -/
theorem lookup_members {fields : List Field} (distinct : (fields.map Field.name).Nodup)
    (cell : Field → Cell) {field : Field} (mem : field ∈ fields) :
    ((fields.map fun field => (field, cell field)).filterMap member?).lookup field.name =
      cellValue (cell field) := by
  induction fields with
  | nil => cases mem
  | cons first rest ih =>
      rw [List.map_cons, List.nodup_cons] at distinct
      rw [List.map_cons, List.filterMap_cons]
      rcases List.mem_cons.mp mem with rfl | later
      · cases written : cellValue (cell field) with
        | none =>
            rw [member?, written, Option.map_none]
            rw [List.lookup_eq_none_iff]
            rintro ⟨name, value⟩ listed
            rcases List.mem_filterMap.mp listed with ⟨⟨other, _⟩, other_mem, found⟩
            rcases Option.map_eq_some_iff.mp found with ⟨_, _, same⟩
            rcases List.mem_map.mp other_mem with ⟨_, there, ⟨⟩⟩
            cases same
            rw [bne_iff_ne]
            intro equal
            exact distinct.1 (List.mem_map.mpr ⟨other, there, equal.symm⟩)
        | some value =>
            rw [member?, written, Option.map_some, List.lookup_cons_self]
      · have other : field.name ≠ first.name := by
          intro equal
          exact distinct.1 (List.mem_map.mpr ⟨field, later, equal⟩)
        rw [member?]
        cases cellValue (cell first) with
        | none => exact ih distinct.2 later
        | some value =>
            rw [Option.map_some]
            dsimp only
            rw [lookup_cons_ite, if_neg other]
            exact ih distinct.2 later

theorem get_rowObject {fields : List Field} (distinct : (fields.map Field.name).Nodup)
    (cell : Field → Cell) {field : Field} (mem : field ∈ fields) :
    (rowObject fields (fields.map cell)).get field.name = cellValue (cell field) := by
  have pairs : fields.zip (fields.map cell) = fields.map fun field => (field, cell field) := by
    rw [List.zip_map_right, List.zip_eq_zipWith, List.zipWith_self, List.map_map]
    rfl
  rw [rowObject, Map.get, Map.fromIter, lookup_collect, pairs, ← List.filterMap_reverse,
    ← List.map_reverse]
  apply lookup_members
  · rw [List.map_reverse]
    exact List.nodup_reverse.mpr distinct
  · exact List.mem_reverse.mpr mem

/-- A row is written without other names than those of its fields. -/
theorem get_rowObject_of_not_mem {fields : List Field} {row : Row} {key : String}
    (other : key ∉ fields.map Field.name) : (rowObject fields row).get key = none := by
  rw [rowObject, Map.get, Map.fromIter, lookup_collect, List.lookup_eq_none_iff]
  rintro ⟨name, value⟩ listed
  rcases List.mem_filterMap.mp (List.mem_reverse.mp listed) with ⟨⟨field, cell⟩, pair, found⟩
  rcases Option.map_eq_some_iff.mp found with ⟨_, _, same⟩
  cases same
  rw [bne_iff_ne]
  rintro rfl
  exact other (List.mem_map_of_mem (List.of_mem_zip pair).1)

section Records

variable {J : SerdeJson} {schema : Schema} (distinct : (schema.fields.map Field.name).Nodup)
  (obj : Map)

include distinct

theorem cellOf_rowObject {field : Field} (mem : field ∈ schema.fields) :
    cellOf J field (rowObject schema.fields (rowOf J schema obj)) = cellOf J field obj := by
  rw [cellOf, rowOf, get_rowObject distinct (fun field => cellOf J field obj) mem]
  exact (storedCell_cellValue J (heldBy_storedCell J _ _)).1

/-- Written as an object and read again, a row is what it was. -/
theorem rowOf_rowObject :
    rowOf J schema (rowObject schema.fields (rowOf J schema obj)) = rowOf J schema obj :=
  List.map_congr_left fun _ mem => cellOf_rowObject distinct obj mem

/-- No column refuses a value of a row that is read again. -/
theorem firstMismatch_rowObject :
    firstMismatch schema (rowObject schema.fields (rowOf J schema obj)) = none := by
  rw [firstMismatch, List.findSome?_eq_none_iff]
  intro field mem
  rw [rowOf, get_rowObject distinct (fun field => cellOf J field obj) mem]
  exact (storedCell_cellValue J (heldBy_storedCell J _ _)).2

theorem writable_rowObject (writable : Writable J schema obj) :
    Writable J schema (rowObject schema.fields (rowOf J schema obj)) := by
  refine ⟨writable.1, ?_⟩
  intro field mem
  rw [cellOf_rowObject distinct obj mem]
  exact writable.2 field mem

end Records

end Parq.Parser
