import Parq.Sequence.Split

/-!
# Byte strings and their lines

The input file is one byte string.  Every reader cuts it at `\n` and trims ASCII
whitespace from both ends of each line before looking at it, so a line is known
to a reader only through its trimmed form.
-/

namespace Parq.Data

open Parq.Sequence

/-- A byte slice or vector. -/
abbrev Bytes := List UInt8

/-- The byte `b'\n'`. -/
def newline : UInt8 := 10

/-- `u8::is_ascii_whitespace`: space, tab, line feed, form feed and carriage
return.  Vertical tab is not among them. -/
def isAsciiWhitespace (b : UInt8) : Bool :=
  b == 32 || b == 9 || b == 10 || b == 12 || b == 13

/-- `<[u8]>::trim_ascii`. -/
def trimAscii (bytes : Bytes) : Bytes :=
  trim isAsciiWhitespace bytes

/-- `data.split(|&b| b == b'\n')`. -/
def splitLines (data : Bytes) : List Bytes :=
  data.splitOn newline

/-- The bytes of an ASCII text. -/
def ascii (text : String) : Bytes :=
  text.toList.map fun c => c.toNat.toUInt8

@[simp]
theorem trimAscii_nil : trimAscii [] = [] :=
  rfl

@[simp]
theorem trimAscii_trimAscii (bytes : Bytes) : trimAscii (trimAscii bytes) = trimAscii bytes :=
  trim_trim _ _

theorem newline_not_mem_trimAscii {line : Bytes} (free : newline ∉ line) :
    newline ∉ trimAscii line :=
  fun mem => free (mem_of_mem_trim mem)

theorem newline_not_mem_of_mem_splitLines {data line : Bytes} (mem : line ∈ splitLines data) :
    newline ∉ line :=
  not_mem_of_mem_splitOn mem

/-- Lines with a newline between each two. -/
def joinLines (lines : List Bytes) : Bytes :=
  [newline].intercalate lines

theorem splitLines_joinLines {lines : List Bytes} (free : ∀ line ∈ lines, newline ∉ line)
    (nonempty : lines ≠ []) : splitLines (joinLines lines) = lines :=
  List.splitOn_intercalate newline free nonempty

/-! ## Non-blank lines -/

/-- The trimmed form of a line, absent for a blank one. -/
def trimmed? (line : Bytes) : Option Bytes :=
  if (trimAscii line).isEmpty then none else some (trimAscii line)

@[simp]
theorem trimmed?_nil : trimmed? [] = none :=
  rfl

theorem trimmed?_eq_none_iff {line : Bytes} : trimmed? line = none ↔ trimAscii line = [] := by
  simp [trimmed?]

theorem trimmed?_eq_some_iff {line text : Bytes} :
    trimmed? line = some text ↔ trimAscii line = text ∧ text ≠ [] := by
  by_cases blank : trimAscii line = []
  · simp only [trimmed?, blank, List.isEmpty_nil, if_true, reduceCtorEq, false_iff, not_and,
      not_not]
    exact fun equal => equal.symm
  · simp only [trimmed?, List.isEmpty_iff, blank, if_false, Option.some.injEq]
    constructor
    · rintro rfl
      exact ⟨rfl, blank⟩
    · exact fun h => h.1

/-- The non-blank lines of `data`, trimmed, in order. -/
def nonBlankLines (data : Bytes) : List Bytes :=
  (splitLines data).filterMap trimmed?

theorem newline_not_mem_of_mem_nonBlankLines {data text : Bytes}
    (mem : text ∈ nonBlankLines data) : newline ∉ text := by
  rcases List.mem_filterMap.mp mem with ⟨line, line_mem, trimmed⟩
  rw [← (trimmed?_eq_some_iff.mp trimmed).1]
  exact newline_not_mem_trimAscii (newline_not_mem_of_mem_splitLines line_mem)

end Parq.Data
