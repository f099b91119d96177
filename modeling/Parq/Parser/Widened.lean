import Parq.Parser.Exported

/-!
# Wider columns

A column that is declared with a wider type is nowhere null where it was not.  The value may
be another one: integers may become floats, which rounds them, and anything may become text.
The one step of the ladder of inferred types that is not of this kind is that from truth
values to numbers.
-/

namespace Parq.Parser

open Parq.Data

/-! ## Wider types -/

/-- A column of the second type is nowhere null where one of the first is not. -/
inductive Widens : DataType → DataType → Prop
  | refl (built : DataType) : Widens built built
  | numeric : Widens .int64 .float64
  | text {built : DataType} (native : built ∈ nativeTypes) : Widens built .utf8

/-- The second field has the name of the first, a wider type, and allows nulls if the first
does. -/
structure WidenedTo (field wide : Field) : Prop where
  name : wide.name = field.name
  dataType : Widens field.dataType wide.dataType
  nullable : field.nullable = true → wide.nullable = true

section Widens

variable {J : SerdeJson} {built wide : DataType} {val : Option Value}

/-- Only a number, or a text that is read as one, is stored as an integer. -/
theorem storedCell_int64_cases (stored : storedCell J .int64 val ≠ .null) :
    (∃ n, val = some (.number n)) ∨ ∃ s n, val = some (.string s) ∧ parseI64 s = some n := by
  rcases val with _ | value
  · exact absurd (storedCell_none J .int64) stored
  · cases value with
    | number n => exact .inl ⟨n, rfl⟩
    | string s =>
        cases read : parseI64 s with
        | some n => exact .inr ⟨s, n, rfl, read⟩
        | none =>
            rw [storedCell, read] at stored
            exact absurd rfl stored
    | _ => exact absurd rfl stored

/-- Every value is stored as text. -/
theorem storedCell_utf8_ne_null {value : Value} (valued : value ≠ .null) :
    storedCell J .utf8 (some value) ≠ .null := by
  cases value with
  | null => exact absurd rfl valued
  | _ => rintro ⟨⟩

theorem Widens.storedCell_ne_null (widens : Widens built wide)
    (stored : storedCell J built val ≠ .null) : storedCell J wide val ≠ .null := by
  cases widens with
  | refl => exact stored
  | numeric =>
      rcases storedCell_int64_cases stored with ⟨n, rfl⟩ | ⟨s, n, rfl, read⟩
      · rintro ⟨⟩
      · obtain ⟨f, found⟩ := Option.isSome_iff_exists.mp (isSome_parseF64 read)
        rw [storedCell, found]
        rintro ⟨⟩
  | text =>
      rcases val with _ | value
      · exact absurd (storedCell_none J built) stored
      · apply storedCell_utf8_ne_null
        rintro rfl
        exact stored (storedCell_null J built)

/-- A wider column refuses no more values. -/
theorem Widens.mismatch?_eq_none (widens : Widens built wide)
    (admitted : mismatch? built val = none) : mismatch? wide val = none := by
  cases widens with
  | refl => exact admitted
  | numeric | text => rfl

theorem Widens.builtType_eq (widens : Widens built wide) (native : builtType built = built) :
    builtType wide = wide := by
  cases widens with
  | refl => exact native
  | numeric | text => rfl

/-- A column of nulls has no wider type. -/
theorem Widens.eq_null (widens : Widens .null wide) : wide = .null := by
  cases widens with
  | refl => rfl
  | text native => simp [nativeTypes] at native

end Widens

/-! ## Wider schemas -/

/-- The second cell has a value, of whatever kind, if the first has one. -/
def KeepsValue (cell wide : Cell) : Prop :=
  cell ≠ .null → wide ≠ .null

section Schemas

variable {J : SerdeJson} {o : ParseOptions} {fields wide : List Field}

theorem WidenedTo.keepsValue {field wide : Field} (widened : WidenedTo field wide)
    (native : builtType field.dataType = field.dataType) (obj : Map) :
    KeepsValue (cellOf J field obj) (cellOf J wide obj) := by
  intro stored
  unfold cellOf at stored ⊢
  rw [native] at stored
  rw [widened.dataType.builtType_eq native, widened.name]
  exact widened.dataType.storedCell_ne_null stored

theorem rowOf_widened (widened : List.Forall₂ WidenedTo fields wide)
    (native : ∀ field ∈ fields, builtType field.dataType = field.dataType) (obj : Map) :
    List.Forall₂ KeepsValue (rowOf J ⟨fields⟩ obj) (rowOf J ⟨wide⟩ obj) := by
  induction widened with
  | nil => exact .nil
  | cons first _ ih =>
      rw [List.forall_mem_cons] at native
      exact .cons (first.keepsValue native.1 obj) (ih native.2)

theorem exists_narrow (widened : List.Forall₂ WidenedTo fields wide) :
    ∀ field' ∈ wide, ∃ field ∈ fields, WidenedTo field field' := by
  induction widened with
  | nil => exact fun _ mem => absurd mem List.not_mem_nil
  | cons first _ ih =>
      intro field' mem
      rcases List.mem_cons.mp mem with rfl | later
      · exact ⟨_, List.mem_cons_self, first⟩
      · obtain ⟨field, field_mem, same⟩ := ih field' later
        exact ⟨field, List.mem_cons_of_mem _ field_mem, same⟩

/-- A record that can be written can be written to wider columns. -/
theorem writable_widened (widened : List.Forall₂ WidenedTo fields wide)
    {obj : Map} (writable : Writable J ⟨fields⟩ obj) : Writable J ⟨wide⟩ obj := by
  constructor
  · rintro rfl
    cases widened
    exact writable.1 rfl
  · intro field' mem
    obtain ⟨field, field_mem, narrow⟩ := exists_narrow widened field' mem
    obtain ⟨native, nulls⟩ := writable.2 field field_mem
    refine ⟨narrow.dataType.builtType_eq native, ?_⟩
    rcases nulls with nullable | null | stored
    · exact .inl (narrow.nullable nullable)
    · have widens := narrow.dataType
      rw [null] at widens
      exact .inr (.inl widens.eq_null)
    · exact .inr (.inr (narrow.keepsValue native obj stored))

theorem firstMismatch_widened (widened : List.Forall₂ WidenedTo fields wide) {obj : Map}
    (native : ∀ field ∈ fields, builtType field.dataType = field.dataType)
    (clear : firstMismatch ⟨fields⟩ obj = none) : firstMismatch ⟨wide⟩ obj = none := by
  rw [firstMismatch, List.findSome?_eq_none_iff] at clear ⊢
  intro field' mem
  obtain ⟨field, field_mem, narrow⟩ := exists_narrow widened field' mem
  have admitted := clear field field_mem
  rw [native field field_mem] at admitted
  rw [narrow.dataType.builtType_eq (native field field_mem), narrow.name]
  exact narrow.dataType.mismatch?_eq_none admitted

/-- A line that is acceptable for some columns is so for wider ones. -/
theorem lineOk_widened {line : Bytes} (schema : o.schema = ⟨fields⟩)
    (widened : List.Forall₂ WidenedTo fields wide) (ok : LineOk J o line) :
    LineOk J { o with schema := ⟨wide⟩ } line := by
  rcases ok with ⟨harmless, writable⟩
  rw [schema] at writable
  constructor
  · unfold lineError at harmless ⊢
    dsimp only at harmless ⊢
    split
    · rfl
    · rename_i strict
      rw [if_neg strict, schema] at harmless
      cases read : classify J o.flattenJson line with
      | blank => rfl
      | rejected text source =>
          rw [read] at harmless
          cases harmless
      | record obj =>
          have native := (writable obj (by rw [record?, read])).2
          simp only [read, Option.map_eq_none_iff] at harmless ⊢
          exact firstMismatch_widened widened (fun field mem => (native field mem).1) harmless
  · intro obj read
    exact writable_widened widened (writable obj read)

end Schemas

end Parq.Parser
