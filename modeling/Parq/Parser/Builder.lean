import Parq.Data.Error

/-!
# Column builders

`ColBuilder` accumulates one column.  Its `append` dispatches on the kind of the
builder and the constructor of the value; `finish` yields the array.  The kind
is chosen from the declared type by `new`, which merges all integer types, both
float types, and everything it does not name.

The second half states what a builder holds independently of its
representation: the type of the array it finishes into and the cells appended so
far.
-/

namespace Parq.Parser

open Parq.Data

/-- `ColBuilder`.  The capacities given to the Arrow builders have no effect on
what they hold; that memory for them can be had is assumed. -/
inductive ColBuilder
  | null (len : Nat)
  | bool (values : List (Option Bool))
  | int64 (values : List (Option Int64))
  | float64 (values : List (Option F64))
  | str (values : List (Option String))

namespace ColBuilder

/-- `ColBuilder::new`, which allocates for a whole batch at once and panics where that
fails: here the allocation succeeds. -/
def new : DataType → ColBuilder
  | .null => .null 0
  | .boolean => .bool []
  | .int8 | .int16 | .int32 | .int64 | .uint8 | .uint16 | .uint32 | .uint64 => .int64 []
  | .float32 | .float64 => .float64 []
  | _ => .str []

/-- What an `Int64` builder stores for a number:
`n.as_i64().unwrap_or_else(|| n.as_f64().unwrap_or(0.0) as i64)`. -/
def integerOf (n : Number) : Int64 :=
  n.asI64.getD ((n.asF64.getD (Float.Model.ofNat 0)).toInt64)

/-- What a `Float64` builder stores for a number:
`n.as_f64().unwrap_or(f64::NAN)`. -/
def floatOf (n : Number) : F64 :=
  n.asF64.getD (.pack .notANumber)

/-- `ColBuilder::append`.  Only the Boolean builder looks at the error mode. -/
def append (J : SerdeJson) (builder : ColBuilder) (val : Option Value) (line : Nat)
    (ignoreErrors : Bool) : Except Error ColBuilder :=
  match builder with
  | .null len => .ok (.null (len + 1))
  | .bool values =>
      match val with
      | some (.bool v) => .ok (.bool (values ++ [some v]))
      | some .null | none => .ok (.bool (values ++ [none]))
      | some other =>
          if ignoreErrors then
            .ok (.bool (values ++ [none]))
          else
            .error (.typeMismatch "bool_field" "Boolean" (J.debug other) line)
  | .int64 values =>
      match val with
      | some (.number n) => .ok (.int64 (values ++ [some (integerOf n)]))
      | some (.string s) => .ok (.int64 (values ++ [parseI64 s]))
      | some .null | none => .ok (.int64 (values ++ [none]))
      | some _ => .ok (.int64 (values ++ [none]))
  | .float64 values =>
      match val with
      | some (.number n) => .ok (.float64 (values ++ [some (floatOf n)]))
      | some (.string s) => .ok (.float64 (values ++ [parseF64 s]))
      | some .null | none => .ok (.float64 (values ++ [none]))
      | some _ => .ok (.float64 (values ++ [none]))
  | .str values =>
      match val with
      | some (.string s) => .ok (.str (values ++ [some s]))
      | some .null | none => .ok (.str (values ++ [none]))
      | some other => .ok (.str (values ++ [some (J.toText other)]))

/-- `ColBuilder::finish`. -/
def finish : ColBuilder → ArrayRef
  | .null len => .null len
  | .bool values => .boolean values
  | .int64 values => .int64 values
  | .float64 values => .float64 values
  | .str values => .utf8 values

/-- The type of the array that a builder finishes into. -/
def dataType (builder : ColBuilder) : DataType :=
  builder.finish.dataType

/-- The cells appended so far. -/
def cells (builder : ColBuilder) : List Cell :=
  builder.finish.cells

@[simp]
theorem finish_dataType (builder : ColBuilder) : builder.finish.dataType = builder.dataType :=
  rfl

@[simp]
theorem finish_cells (builder : ColBuilder) : builder.finish.cells = builder.cells :=
  rfl

end ColBuilder

/-! ## The append rule -/

/-- The type of the array built for a column that is declared as `declared`. -/
def builtType (declared : DataType) : DataType :=
  (ColBuilder.new declared).dataType

/-- The types for which the builder makes an array of the declared type. -/
def nativeTypes : List DataType :=
  [.boolean, .int64, .float64, .utf8]

theorem builtType_of_mem_nativeTypes {declared : DataType} (native : declared ∈ nativeTypes) :
    builtType declared = declared := by
  simp only [nativeTypes, List.mem_cons, List.not_mem_nil, or_false] at native
  rcases native with rfl | rfl | rfl | rfl <;> rfl

/-- The cell stored for a value in a column built as `built`. -/
def storedCell (J : SerdeJson) (built : DataType) (val : Option Value) : Cell :=
  match built, val with
  | .boolean, some (.bool v) => .boolean v
  | .int64, some (.number n) => .int64 (ColBuilder.integerOf n)
  | .int64, some (.string s) => .ofOption .int64 (parseI64 s)
  | .float64, some (.number n) => .float64 (ColBuilder.floatOf n)
  | .float64, some (.string s) => .ofOption .float64 (parseF64 s)
  | .utf8, none => .null
  | .utf8, some .null => .null
  | .utf8, some (.string s) => .utf8 s
  | .utf8, some other => .utf8 (J.toText other)
  | _, _ => .null

/-- The value that a Boolean column refuses in strict mode. -/
def mismatch? (built : DataType) (val : Option Value) : Option Value :=
  match built, val with
  | .boolean, some (.bool _) => none
  | .boolean, some .null => none
  | .boolean, some other => some other
  | _, _ => none

@[simp]
theorem cells_new (declared : DataType) : (ColBuilder.new declared).cells = [] := by
  cases declared <;> rfl

/-- A value that is not refused is appended as its stored cell. -/
theorem append_eq_ok (J : SerdeJson) (builder : ColBuilder) (val : Option Value) (line : Nat)
    (ignoreErrors : Bool) (admitted : mismatch? builder.dataType val = none ∨ ignoreErrors = true) :
    ∃ next, builder.append J val line ignoreErrors = .ok next ∧
      next.dataType = builder.dataType ∧
      next.cells = builder.cells ++ [storedCell J builder.dataType val] := by
  cases builder with
  | null len =>
      refine ⟨_, rfl, rfl, ?_⟩
      exact List.replicate_succ'
  | bool values =>
      rcases val with _ | (_ | v | _ | _ | _ | _)
      case some.bool => exact ⟨_, rfl, rfl, List.map_append⟩
      case none | some.null => exact ⟨_, rfl, rfl, List.map_append⟩
      all_goals
        rcases admitted with refused | rfl
        · simp [mismatch?, ColBuilder.dataType, ColBuilder.finish, ArrayRef.dataType] at refused
        · exact ⟨_, rfl, rfl, List.map_append⟩
  | int64 values | float64 values | str values =>
      rcases val with _ | (_ | v | _ | _ | _ | _) <;>
        exact ⟨_, rfl, rfl, List.map_append⟩

/-- In strict mode a refused value ends the call. -/
theorem append_eq_error (J : SerdeJson) (builder : ColBuilder) {val : Option Value}
    {found : Value} (line : Nat) (refused : mismatch? builder.dataType val = some found) :
    builder.append J val line false =
      .error (.typeMismatch "bool_field" "Boolean" (J.debug found) line) := by
  cases builder with
  | bool values =>
      rcases val with _ | (_ | v | _ | _ | _ | _) <;>
        simp_all [mismatch?, ColBuilder.dataType, ColBuilder.finish, ArrayRef.dataType,
          ColBuilder.append]
  | null len | int64 values | float64 values | str values =>
      simp [mismatch?, ColBuilder.dataType, ColBuilder.finish, ArrayRef.dataType] at refused

end Parq.Parser
