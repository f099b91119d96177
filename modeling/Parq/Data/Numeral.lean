import Mathlib.Data.Int.Basic
import Mathlib.Data.List.TakeWhile

/-!
# Machine numbers and their decimal texts

`i64` is `Int64`.  An `f64` is a bit pattern of the IEEE binary64 format, with the
conversions and the decimal rounding that Lean's own model of that format gives.
The two parsers follow `str::parse::<i64>` and `str::parse::<f64>`.
-/

namespace Parq.Data

/-- The type `f64`. -/
abbrev F64 := Float.Model

/-- The value of a run of decimal digits. -/
def decimalValue (digits : List Char) : Nat :=
  digits.foldl (fun value digit => 10 * value + (digit.toNat - '0'.toNat)) 0

/-- Take an optional leading sign off a text; `true` stands for `-`. -/
def splitSign : List Char → Bool × List Char
  | '-' :: rest => (true, rest)
  | '+' :: rest => (false, rest)
  | text => (false, text)

/-- A non-empty run of decimal digits with an optional sign, as an integer. -/
def parseDecimal (text : List Char) : Option Int :=
  let (negative, digits) := splitSign text
  if digits.isEmpty || !digits.all Char.isDigit then none
  else some (if negative then -(decimalValue digits : Int) else decimalValue digits)

/-- `str::parse::<i64>().ok()`: a value outside the range of `i64` is an error. -/
def parseI64 (text : String) : Option Int64 := do
  let value ← parseDecimal text.toList
  if Int64.minValue.toInt ≤ value ∧ value ≤ Int64.maxValue.toInt then
    some (Int64.ofInt value)
  else
    none

/-- The exponent part of a floating-point text; absent means `0`. -/
def parseExponent : List Char → Option Int
  | [] => some 0
  | mark :: rest => if mark = 'e' ∨ mark = 'E' then parseDecimal rest else none

/-- An unsigned floating-point text: digits, an optional fraction and an optional
exponent, with at least one digit before the exponent. -/
def parseUnsignedFloat (text : List Char) : Option F64 := do
  let whole := text.takeWhile Char.isDigit
  let (fraction, rest) := match text.dropWhile Char.isDigit with
    | '.' :: rest => (rest.takeWhile Char.isDigit, rest.dropWhile Char.isDigit)
    | rest => ([], rest)
  if whole.isEmpty && fraction.isEmpty then none
  else
    let exponent ← parseExponent rest
    some (Float.Model.ofScientific (decimalValue (whole ++ fraction))
      (exponent - fraction.length))

/-- `str::parse::<f64>().ok()`; the names of infinity and NaN are read in any
letter case. -/
def parseF64 (text : String) : Option F64 :=
  let (negative, magnitude) := splitSign text.toList
  let lower := magnitude.map Char.toLower
  let value :=
    if lower = "inf".toList ∨ lower = "infinity".toList then
      some (Float.Model.pack (.infinity .positive))
    else if lower = "nan".toList then
      some (Float.Model.pack .notANumber)
    else
      parseUnsignedFloat magnitude
  if negative then value.map Float.Model.neg else value

/-- A run of digits is a floating-point text. -/
theorem isSome_parseUnsignedFloat {digits : List Char} (nonempty : digits ≠ [])
    (all : ∀ digit ∈ digits, digit.isDigit = true) : (parseUnsignedFloat digits).isSome = true := by
  have whole : digits.takeWhile Char.isDigit = digits := List.takeWhile_eq_self_iff.mpr all
  have rest : digits.dropWhile Char.isDigit = [] := List.dropWhile_eq_nil_iff.mpr all
  simp [parseUnsignedFloat, whole, rest, nonempty, parseExponent]

/-- What is read as an integer is read as a float. -/
theorem isSome_parseF64 {text : String} {n : Int64} (read : parseI64 text = some n) :
    (parseF64 text).isSome = true := by
  unfold parseI64 at read
  rw [Option.bind_eq_bind, Option.bind_eq_some_iff] at read
  obtain ⟨value, decimal, _⟩ := read
  unfold parseDecimal at decimal
  unfold parseF64
  generalize splitSign text.toList = signed at decimal ⊢
  rcases signed with ⟨negative, digits⟩
  dsimp only at decimal ⊢
  split at decimal
  · cases decimal
  · rename_i wellFormed
    simp only [Bool.or_eq_true, List.isEmpty_iff, Bool.not_eq_true', not_or, Bool.not_eq_false,
      List.all_eq_true] at wellFormed
    have unsigned := isSome_parseUnsignedFloat wellFormed.1 wellFormed.2
    cases negative <;> simp only [Bool.false_eq_true, if_false, if_true, Option.isSome_map]
    all_goals
      split
      · rfl
      · split
        · rfl
        · exact unsigned

/-! The grammar at its edges: a sign alone, a fraction without a whole part, and
a value one past the largest `i64`. -/

example : parseI64 "-42" = some (-42) ∧ parseI64 "+" = none ∧
    parseI64 "9223372036854775808" = none := by decide

example : parseF64 ".5" = some (Float.Model.ofScientific 5 (-1)) ∧ parseF64 "." = none ∧
    parseF64 "1e" = none := by decide +kernel

end Parq.Data
