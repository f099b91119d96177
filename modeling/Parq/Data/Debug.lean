import Parq.Json.Writer

/-!
# The `{:?}` form of a string

`<str as Debug>::fmt` writes a string between quotation marks.  It escapes the quotation
mark, the backslash and three blanks as JSON does, but writes NUL as `\0` and what is not
printable as `\u{...}`, which JSON does not know.
-/

namespace Parq.Data

open Parq.Json

/-- What `{:?}` asks of the Unicode tables of the standard library: the characters that are
not printable or that extend the one before them. -/
structure CharTable where
  escaped : Char → Bool
  control : ∀ c, c < ' ' → escaped c = true
  ascii : ∀ c, ' ' ≤ c → c ≤ '~' → escaped c = false

/-- A table for the control characters and the combining diacritical marks. -/
def CharTable.sample : CharTable where
  escaped c :=
    decide (c.toNat < 0x20 ∨ 0x7F ≤ c.toNat ∧ c.toNat < 0xA0 ∨ 0x300 ≤ c.toNat ∧ c.toNat < 0x370)
  control c control := decide_eq_true (.inl control)
  ascii c from_blank to_tilde := by
    have lower : 0x20 ≤ c.toNat := from_blank
    have upper : c.toNat ≤ 0x7E := to_tilde
    exact decide_eq_false (by omega)

/-- `char::escape_debug_ext` as `<str as Debug>::fmt` calls it, which leaves the apostrophe
alone. -/
def escapeDebug (T : CharTable) (c : Char) : List Char :=
  match c with
  | '\x00' => ['\\', '0']
  | '\t' => ['\\', 't']
  | '\r' => ['\\', 'r']
  | '\n' => ['\\', 'n']
  | '\\' => ['\\', '\\']
  | '"' => ['\\', '"']
  | c => if T.escaped c then ['\\', 'u', '{'] ++ Nat.toDigits 16 c.toNat ++ ['}'] else [c]

/-- `<str as Debug>::fmt`. -/
def debugStr (T : CharTable) (s : String) : String :=
  "\"" ++ String.ofList (s.toList.flatMap (escapeDebug T)) ++ "\""

/-- A character that `{:?}` writes as JSON would: with a short escape of both, or as itself. -/
def sharesEscape (T : CharTable) (c : Char) : Bool :=
  ['\t', '\r', '\n', '\\', '"'].contains c || !T.escaped c

section Debug

variable (T : CharTable)

/-- An escape in braces is none of JSON. -/
theorem readUnit_brace (text : List Char) : readUnit ('{' :: text) = none := by
  rcases text with _ | ⟨b, _ | ⟨c, _ | ⟨d, rest⟩⟩⟩ <;> rfl

/-- JSON reads what is written for a character when it shares the escape, and refuses it
otherwise. -/
theorem readChar_escapeDebug (c : Char) (rest : List Char) :
    readChar (escapeDebug T c ++ rest) = if sharesEscape T c then some (c, rest) else none := by
  unfold escapeDebug
  split
  · have nul : sharesEscape T '\x00' = false := by
      simp [sharesEscape, T.control '\x00' (by decide)]
    rw [nul]
    rfl
  case h_7 nul tab carriage newline backslash quotation =>
    have as_table : sharesEscape T c = !T.escaped c := by
      simp_all [sharesEscape]
    rw [as_table]
    cases escaped : T.escaped c with
    | true =>
        simp only [List.append_assoc, List.cons_append, if_true, readChar, readEscape, readUnicode]
        rw [readUnit_brace]
        rfl
    | false =>
        have printable : ¬ c < ' ' := by
          intro control
          rw [T.control c control] at escaped
          cases escaped
        change readChar (c :: rest) = some (c, rest)
        rw [readChar, if_neg printable]
        exact backslash
  all_goals rfl

theorem escapeDebug_eq_cons (c : Char) :
    ∃ first text, escapeDebug T c = first :: text ∧ first ≠ '"' := by
  unfold escapeDebug
  split
  case h_7 quotation =>
    split
    · exact ⟨'\\', _, rfl, by decide⟩
    · exact ⟨c, [], rfl, quotation⟩
  all_goals exact ⟨'\\', _, rfl, by decide⟩

theorem readString_flatMap_escapeDebug (chars rest : List Char) {fuel : Nat}
    (enough : (chars.flatMap (escapeDebug T)).length < fuel) :
    readString fuel (chars.flatMap (escapeDebug T) ++ '"' :: rest) =
      if chars.all (sharesEscape T) then some (chars, rest) else none := by
  induction chars generalizing fuel with
  | nil =>
      cases fuel with
      | zero => cases enough
      | succ fuel => rfl
  | cons c chars ih =>
      cases fuel with
      | zero => cases enough
      | succ fuel =>
          have read := readChar_escapeDebug T c (chars.flatMap (escapeDebug T) ++ '"' :: rest)
          rcases escapeDebug_eq_cons T c with ⟨first, text, written, not_quotation⟩
          rw [written, List.cons_append] at read
          rw [List.flatMap_cons, written, List.cons_append, List.length_cons,
            List.length_append] at enough
          rw [List.flatMap_cons, written, List.cons_append, List.cons_append, List.append_assoc,
            readString, read]
          · rw [List.all_cons]
            cases shared : sharesEscape T c with
            | false => rfl
            | true =>
                simp only [if_true, Option.bind_eq_bind, Option.bind_some, Bool.true_and,
                  ih (show (chars.flatMap (escapeDebug T)).length < fuel by omega)]
                split <;> rfl
          · rintro _ ⟨⟩
            exact not_quotation rfl

/-- `{:?}` as a way to write the strings of a JSON text. -/
def debugEncoder : Encoder where
  encode s := s.toList.flatMap (escapeDebug T)
  readable s := s.toList.all (sharesEscape T)
  readString_encode s rest enough := readString_flatMap_escapeDebug T s.toList rest enough

theorem toList_debugStr (s : String) : (debugStr T s).toList = (debugEncoder T).quote s := by
  simp [debugStr, Encoder.quote, debugEncoder]

/-- The characters of ASCII that `{:?}` and JSON write as they are. -/
def isPlain (c : Char) : Bool :=
  decide (' ' ≤ c) && decide (c ≤ '~') && c != '\\' && c != '"'

theorem escapeDebug_of_isPlain {c : Char} (plain : isPlain c = true) :
    escapeDebug T c = [c] := by
  simp only [isPlain, Bool.and_eq_true, decide_eq_true_eq, bne_iff_ne] at plain
  rcases plain with ⟨⟨⟨from_blank, to_tilde⟩, not_backslash⟩, not_quotation⟩
  unfold escapeDebug
  split
  case h_5 => exact absurd rfl not_backslash
  case h_6 => exact absurd rfl not_quotation
  case h_7 => rw [T.ascii c from_blank to_tilde, if_neg Bool.false_ne_true]
  all_goals exact absurd from_blank (by decide)

theorem flatMap_escapeDebug_of_isPlain {chars : List Char} (plain : chars.all isPlain = true) :
    chars.flatMap (escapeDebug T) = chars := by
  induction chars with
  | nil => rfl
  | cons c chars ih =>
      rw [List.all_cons, Bool.and_eq_true] at plain
      rw [List.flatMap_cons, escapeDebug_of_isPlain T plain.1, ih plain.2, List.singleton_append]

theorem quote_of_isPlain {s : String} (plain : s.toList.all isPlain = true) :
    (debugEncoder T).quote s = '"' :: s.toList ++ ['"'] :=
  congrArg (fun written => '"' :: written ++ ['"']) (flatMap_escapeDebug_of_isPlain T plain)

theorem readable_of_isPlain {s : String} (plain : s.toList.all isPlain = true) :
    (debugEncoder T).readable s = true := by
  apply List.all_eq_true.mpr
  intro c mem
  have ascii := List.all_eq_true.mp plain c mem
  simp only [isPlain, Bool.and_eq_true, decide_eq_true_eq] at ascii
  rw [sharesEscape, T.ascii c ascii.1.1.1 ascii.1.1.2, Bool.not_false, Bool.or_true]

/-- Hexadecimal digits are no line ends. -/
theorem newline_not_mem_toDigits (n : Nat) : '\n' ∉ Nat.toDigits 16 n := by
  have digits : ∀ d < 16, '\n' ≠ Nat.digitChar d := by decide
  induction n using Nat.strongRecOn with
  | ind n ih =>
      by_cases small : n < 16
      · rw [Nat.toDigits_of_lt_base small, List.mem_singleton]
        exact digits n small
      · rw [Nat.toDigits_of_base_le (by decide) (by omega), List.mem_append, List.mem_singleton,
          not_or]
        exact ⟨ih (n / 16) (by omega), digits (n % 16) (Nat.mod_lt n (by decide))⟩

/-- `{:?}` writes a string on one line. -/
theorem newline_not_mem_encode (s : String) : '\n' ∉ (debugEncoder T).encode s := by
  intro mem
  rcases List.mem_flatMap.mp mem with ⟨c, _, inside⟩
  unfold escapeDebug at inside
  split at inside
  case h_7 newline _ _ =>
    split at inside
    · simp [newline_not_mem_toDigits] at inside
    · exact newline (List.mem_singleton.mp inside).symm
  all_goals exact absurd inside (by decide)

end Debug

end Parq.Data
