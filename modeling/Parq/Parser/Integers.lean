import Parq.Binary.Truncate
import Parq.Parser.Correctness

/-!
# Numbers in integer columns

An integer column stores a number as `as_i64` reads it, and any other number as its `f64`
cast to `i64`.  The cast drops a fraction and stops at the ends of the range, so the cell
need not be the number that the text of the record has.
-/

namespace Parq.Parser

open Parq.Data
open Parq.Binary

/-! ## Numbers and their texts -/

/-- `serde_json` reads the literal of a rational as a number.  An integer literal in the
range of `u64` or `i64` is kept as it is.  Any other literal becomes an `f64`, of which
nothing is assumed: how a decimal fraction is rounded is up to the reader. -/
inductive ReadAs : ℚ → Number → Prop
  | posInt (n : UInt64) : ReadAs n.toNat (.posInt n)
  | negInt (n : Int64) (negative : n < 0) : ReadAs n.toInt (.negInt n negative)
  | float (v : ℚ) (f : F64) (finite : f.isFinite = true) : ReadAs v (.float f finite)

/-- A rational that an integer column holds as it is: an integer of 64 bits, and one to
which its `f64` is sent when it is read as one. -/
def Survives (v : ℚ) : Number → Prop
  | .posInt _ | .negInt _ _ => ∃ k : Int64, v = k.toInt
  | .float f _ => ∃ k : Int64, v = k.toInt ∧ SentTo k (value f.unpack)

/-- When a call succeeds, the cell in a row and a column is the rational or null. -/
def StoredExactly (J : SerdeJson) (o : ParseOptions) (limit : Option Nat) (data : Bytes)
    (row column : Nat) (v : ℚ) : Prop :=
  ∀ parsed, (parseChunk J o limit data).result = .ok parsed →
    ∃ cells cell, (parsed.batches.flatMap RecordBatch.rows)[row]? = some cells ∧
      cells[column]? = some cell ∧ (cell = .null ∨ ∃ k : Int64, cell = .int64 k ∧ v = k.toInt)

/-! ## One cell -/

theorem toInt_integerOf_posInt {n : UInt64} (small : n.toNat < 9223372036854775808) :
    (ColBuilder.integerOf (.posInt n)).toInt = n.toNat := by
  rw [ColBuilder.integerOf, Number.asI64, if_pos small, Option.getD_some]
  exact Int64.toInt_ofInt_of_le (by omega) (by omega)

/-- The integer stored for a number is the rational of its text exactly when that
survives. -/
theorem eq_integerOf_iff {v : ℚ} {n : Number} (read : ReadAs v n) :
    v = (ColBuilder.integerOf n).toInt ↔ Survives v n := by
  cases read with
  | posInt n =>
      constructor
      · exact fun same => ⟨_, same⟩
      · rintro ⟨k, same⟩
        have integers : (n.toNat : Int) = k.toInt := by exact_mod_cast same
        have upper := k.toInt_lt
        rw [toInt_integerOf_posInt (by omega), Int.cast_natCast]
  | negInt n negative => exact ⟨fun same => ⟨_, same⟩, fun _ => rfl⟩
  | float v f finite =>
      have cast : ColBuilder.integerOf (.float f finite) = f.toInt64 := rfl
      rw [cast]
      constructor
      · exact fun same => ⟨_, same, (toInt64_eq_iff finite).mp rfl⟩
      · rintro ⟨k, same, sent⟩
        rw [same, (toInt64_eq_iff finite).mpr sent]

/-! ## Rows of a call -/

section Call

variable {J : SerdeJson} {o : ParseOptions} {limit : Option Nat} {data : Bytes}

/-- The cell of a call that succeeds, in the row of a record and the column of a field. -/
theorem cell_of_parseChunk_eq_ok {parsed : Parsed} {row column : Nat} {record : Map} {field : Field}
    (succeeded : (parseChunk J o limit data).result = .ok parsed)
    (at_row : (recordsOf J o.flattenJson
      (considered J o.flattenJson limit 0 (splitLines data)))[row]? = some record)
    (at_column : o.schema.fields[column]? = some field) :
    (parsed.batches.flatMap RecordBatch.rows)[row]? = some (rowOf J o.schema record) ∧
      (rowOf J o.schema record)[column]? = some (cellOf J field record) := by
  rcases parseChunk_eq_ok succeeded with ⟨delivers, _⟩
  constructor
  · rw [delivers.rows, List.getElem?_map, at_row, Option.map_some]
  · rw [rowOf, List.getElem?_map, at_column, Option.map_some]

/-- A call that stores an integer other than the rational does not store it exactly. -/
theorem not_storedExactly_of_other {k : Int64} {v : ℚ}
    (stored : ∃ parsed, (parseChunk J o limit data).result = .ok parsed ∧
      parsed.batches.flatMap RecordBatch.rows = [[.int64 k]]) (other : v ≠ k.toInt) :
    ¬ StoredExactly J o limit data 0 0 v := by
  intro exact
  rcases stored with ⟨parsed, succeeded, rows⟩
  rcases exact parsed succeeded with ⟨cells, cell, cells_eq, cell_eq, kept⟩
  rw [rows] at cells_eq
  cases cells_eq
  cases cell_eq
  rcases kept with no_cell | ⟨_, same, is_value⟩
  · cases no_cell
  · cases same
    exact other is_value

end Call

/-- A number that reaches an integer column is stored exactly when the call fails or the
number survives. -/
theorem storedExactly_iff {J : SerdeJson} {o : ParseOptions} {limit : Option Nat} {data : Bytes}
    {row column : Nat} {record : Map} {field : Field} {n : Number} {v : ℚ}
    (at_row : (recordsOf J o.flattenJson
      (considered J o.flattenJson limit 0 (splitLines data)))[row]? = some record)
    (at_column : o.schema.fields[column]? = some field)
    (integer : builtType field.dataType = .int64)
    (present : record.get field.name = some (.number n)) (read : ReadAs v n) :
    StoredExactly J o limit data row column v ↔
      (∃ line ∈ considered J o.flattenJson limit 0 (splitLines data), ¬ LineOk J o line) ∨
        Survives v n := by
  have stored : cellOf J field record = .int64 (ColBuilder.integerOf n) := by
    rw [cellOf, integer, present]
    rfl
  constructor
  · intro exact
    by_cases succeeds : ∃ parsed, (parseChunk J o limit data).result = .ok parsed
    · right
      rcases succeeds with ⟨parsed, succeeded⟩
      rcases cell_of_parseChunk_eq_ok succeeded at_row at_column with ⟨cells_eq, cell_eq⟩
      rcases exact parsed succeeded with ⟨cells, cell, cells_eq', cell_eq', kept⟩
      rw [cells_eq, Option.some.injEq] at cells_eq'
      subst cells_eq'
      rw [cell_eq, Option.some.injEq, stored] at cell_eq'
      subst cell_eq'
      rcases kept with no_cell | ⟨k, same, is_value⟩
      · cases no_cell
      · cases same
        exact (eq_integerOf_iff read).mp is_value
    · left
      rw [parseChunk_isOk_iff] at succeeds
      simpa only [not_forall, exists_prop] using succeeds
  · rintro (⟨line, mem, refused⟩ | survives) parsed succeeded
    · exact absurd (parseChunk_isOk_iff.mp ⟨parsed, succeeded⟩ line mem) refused
    · rcases cell_of_parseChunk_eq_ok succeeded at_row at_column with ⟨cells_eq, cell_eq⟩
      refine ⟨_, _, cells_eq, cell_eq, .inr ?_⟩
      exact ⟨_, stored, (eq_integerOf_iff read).mpr survives⟩

theorem storedExactly_one :
    StoredExactly .sample (.oneColumn .int64 false) none (ascii "\x7b\"a\":1\x7d") 0 0 1 :=
  (storedExactly_iff (n := .posInt 1) rfl rfl rfl rfl (by simpa using ReadAs.posInt 1)).mpr
    (.inr ⟨1, by decide⟩)

/-- A reader for a fraction and for the first integer beyond the range of `i64`. -/
def beyondIntegers : SerdeJson :=
  .ofTable
    [(ascii "\x7b\"a\":1.5\x7d",
        .object [("a", .number (.float (Float.Model.ofScientific 15 (-1)) (by decide +kernel)))]),
      (ascii "\x7b\"a\":9223372036854775808\x7d",
        .object [("a", .number (.posInt 9223372036854775808))])]
    [] ⟨"expected value at line 1 column 1"⟩ (fun _ => "") (fun _ => "") (by decide)

/-- In strict mode `1.5` is stored as `1`, and `9223372036854775808` as the integer before
it. -/
theorem integer_column_stores_other_numbers :
    ((∃ parsed, (parseChunk beyondIntegers (.oneColumn .int64 false) none
        (ascii "\x7b\"a\":1.5\x7d")).result = .ok parsed ∧
        parsed.batches.flatMap RecordBatch.rows = [[.int64 1]]) ∧
      ¬ StoredExactly beyondIntegers (.oneColumn .int64 false) none
        (ascii "\x7b\"a\":1.5\x7d") 0 0 (3 / 2)) ∧
    (∃ parsed, (parseChunk beyondIntegers (.oneColumn .int64 false) none
        (ascii "\x7b\"a\":9223372036854775808\x7d")).result = .ok parsed ∧
        parsed.batches.flatMap RecordBatch.rows = [[.int64 9223372036854775807]]) ∧
      ¬ StoredExactly beyondIntegers (.oneColumn .int64 false) none
        (ascii "\x7b\"a\":9223372036854775808\x7d") 0 0 9223372036854775808 := by
  have fraction : ∃ parsed, (parseChunk beyondIntegers (.oneColumn .int64 false) none
        (ascii "\x7b\"a\":1.5\x7d")).result = .ok parsed ∧
      parsed.batches.flatMap RecordBatch.rows = [[.int64 1]] := by
    refine ⟨_, rfl, ?_⟩
    decide +kernel
  have large : ∃ parsed, (parseChunk beyondIntegers (.oneColumn .int64 false) none
        (ascii "\x7b\"a\":9223372036854775808\x7d")).result = .ok parsed ∧
      parsed.batches.flatMap RecordBatch.rows = [[.int64 9223372036854775807]] := by
    refine ⟨_, rfl, ?_⟩
    decide +kernel
  exact ⟨⟨fraction, not_storedExactly_of_other fraction (by decide +kernel)⟩,
    large, not_storedExactly_of_other large (by decide +kernel)⟩

end Parq.Parser
