import Parq.Schema.Core
import Mathlib.Data.Multiset.Lattice
import Mathlib.Order.Nat

/-!
# The promotion ladder

The types that inference can give a column form a chain, from `Null` up to
`Utf8`.  On the chain `merge` is the least upper bound, so promoting a type by
one value after the other computes the supremum of their types in any order.
-/

namespace Parq.Schema

open Parq.Data

/-- A rung of the ladder `Null → Boolean → Int64 → Float64 → Utf8`. -/
inductive Rung
  | null
  | boolean
  | int64
  | float64
  | utf8
  deriving DecidableEq

namespace Rung

/-- The height of a rung. -/
def height : Rung → Nat
  | .null => 0
  | .boolean => 1
  | .int64 => 2
  | .float64 => 3
  | .utf8 => 4

theorem height_injective : Function.Injective height := by
  intro a b same
  cases a <;> cases b <;> first
    | rfl
    | cases same

instance : LinearOrder Rung :=
  LinearOrder.lift' height height_injective

theorem le_iff_height (a b : Rung) : a ≤ b ↔ a.height ≤ b.height :=
  Iff.rfl

instance : OrderBot Rung where
  bot := .null
  bot_le a := Nat.zero_le a.height

theorem bot_eq : (⊥ : Rung) = .null :=
  rfl

/-- The Arrow type of a rung. -/
def dataType : Rung → DataType
  | .null => .null
  | .boolean => .boolean
  | .int64 => .int64
  | .float64 => .float64
  | .utf8 => .utf8

@[simp]
theorem dataType_eq_null_iff (a : Rung) : a.dataType = .null ↔ a = ⊥ := by
  cases a <;> simp [dataType, bot_eq]

end Rung

/-- The rung of a value. -/
def rungOf : Value → Rung
  | .null => .null
  | .bool _ => .boolean
  | .number n => if n.isI64 then .int64 else .float64
  | _ => .utf8

theorem valueType_eq (value : Value) : valueType value = (rungOf value).dataType := by
  cases value with
  | number n =>
      simp only [valueType, rungOf]
      split <;> rfl
  | _ => rfl

/-- `merge` is the least upper bound. -/
theorem merge_dataType (a b : Rung) : merge a.dataType b.dataType = (a ⊔ b).dataType := by
  cases a <;> cases b <;> decide

/-- The supremum of the rungs of the values that a key has among the entries. -/
def columnRung (entries : List (String × Value)) (key : String) : Rung :=
  Multiset.sup ((entries.filter fun entry => entry.1 = key).map fun entry => rungOf entry.2)

@[simp]
theorem columnRung_nil (key : String) : columnRung [] key = ⊥ :=
  rfl

theorem columnRung_concat (entries : List (String × Value)) (entry : String × Value)
    (key : String) :
    columnRung (entries ++ [entry]) key =
      if entry.1 = key then columnRung entries key ⊔ rungOf entry.2
        else columnRung entries key := by
  unfold columnRung
  rw [List.filter_append, List.map_append, ← Multiset.coe_add, Multiset.sup_add]
  split <;> simp_all

/-- The rung of a column is the least that no value of its key exceeds. -/
theorem columnRung_le_iff {entries : List (String × Value)} {key : String} {bound : Rung} :
    columnRung entries key ≤ bound ↔ ∀ value, (key, value) ∈ entries → rungOf value ≤ bound := by
  unfold columnRung
  rw [Multiset.sup_le]
  constructor
  · intro below value mem
    apply below
    simp only [Multiset.mem_coe, List.mem_map, List.mem_filter, decide_eq_true_eq]
    exact ⟨(key, value), ⟨mem, rfl⟩, rfl⟩
  · intro below rung mem
    simp only [Multiset.mem_coe, List.mem_map, List.mem_filter, decide_eq_true_eq] at mem
    rcases mem with ⟨⟨other, value⟩, ⟨entry_mem, rfl⟩, rfl⟩
    exact below value entry_mem

theorem rungOf_le_columnRung {entries : List (String × Value)} {key : String} {value : Value}
    (mem : (key, value) ∈ entries) : rungOf value ≤ columnRung entries key :=
  columnRung_le_iff.mp le_rfl value mem

@[simp]
theorem rungOf_eq_bot_iff (value : Value) : rungOf value = ⊥ ↔ value = .null := by
  rw [← Rung.dataType_eq_null_iff]
  cases value with
  | number n =>
      simp only [rungOf]
      split <;> simp [Rung.dataType]
  | _ => simp [rungOf, Rung.dataType]

/-- A column has a type when its key has a value other than null. -/
theorem columnRung_ne_bot_iff {entries : List (String × Value)} {key : String} :
    columnRung entries key ≠ ⊥ ↔ ∃ value, (key, value) ∈ entries ∧ value ≠ .null := by
  rw [← not_iff_not, not_not, ← le_bot_iff, columnRung_le_iff]
  simp [le_bot_iff]

/-- The rung of a column with a type is that of one of its values. -/
theorem exists_rungOf_eq {entries : List (String × Value)} {key : String}
    (typed : columnRung entries key ≠ ⊥) :
    ∃ value, (key, value) ∈ entries ∧ rungOf value = columnRung entries key := by
  induction entries using List.reverseRecOn with
  | nil => exact absurd (columnRung_nil key) typed
  | append_singleton entries entry ih =>
      rw [columnRung_concat] at typed ⊢
      have earlier (kept : columnRung entries key ≠ ⊥) :
          ∃ value, (key, value) ∈ entries ++ [entry] ∧ rungOf value = columnRung entries key := by
        obtain ⟨value, mem, rung⟩ := ih kept
        exact ⟨value, List.mem_append_left _ mem, rung⟩
      split at typed
      · rename_i here
        rw [if_pos here]
        rcases max_choice (columnRung entries key) (rungOf entry.2) with left | right
        · rw [left] at typed ⊢
          exact earlier typed
        · exact ⟨entry.2, by simp [← here], right.symm⟩
      · rename_i elsewhere
        rw [if_neg elsewhere]
        exact earlier typed

end Parq.Schema
