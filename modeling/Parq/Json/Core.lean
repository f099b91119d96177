import Mathlib.Data.List.TakeWhile

/-!
# JSON texts

An executable reader of JSON texts.  A text is one value between blanks; the reader returns
the tree of the value, or nothing when the text is malformed.  Strings are read character by
character, since an escape may stand for one.
-/

namespace Parq.Json

/-! ## Numerals -/

/-- The digits of an integer, of which the first is zero only when it is the last. -/
def isWhole : List Char → Bool
  | [] => false
  | [c] => c.isDigit
  | c :: rest => c ≠ '0' && (c :: rest).all Char.isDigit

/-- The exponent of a numeral, or nothing. -/
def isExponent : List Char → Bool
  | [] => true
  | 'e' :: '+' :: rest | 'e' :: '-' :: rest | 'E' :: '+' :: rest | 'E' :: '-' :: rest =>
      rest ≠ [] && rest.all Char.isDigit
  | 'e' :: rest | 'E' :: rest => rest ≠ [] && rest.all Char.isDigit
  | _ => false

/-- The fraction and the exponent of a numeral, or nothing. -/
def isFraction : List Char → Bool
  | '.' :: rest => rest.takeWhile Char.isDigit ≠ [] && isExponent (rest.dropWhile Char.isDigit)
  | rest => isExponent rest

/-- A numeral: an optional sign, an integer, an optional fraction and an optional exponent. -/
def isNumeral (literal : List Char) : Bool :=
  let unsigned := if literal.head? = some '-' then literal.tail else literal
  isWhole (unsigned.takeWhile Char.isDigit) && isFraction (unsigned.dropWhile Char.isDigit)

/-- The characters that numerals are made of. -/
def isNumeric (c : Char) : Bool :=
  c.isDigit || c = '-' || c = '+' || c = '.' || c = 'e' || c = 'E'

/-! ## Trees -/

/-- The tree of a JSON value.  A number is kept as its literal and an object as its members
in the order of the text. -/
inductive Tree
  | null
  | bool (b : Bool)
  | number (literal : String) (valid : isNumeral literal.toList = true)
  | string (s : String)
  | array (items : List Tree)
  | object (members : List (String × Tree))

/-- Induction over a tree, with the hypothesis for each entry of an array or an object. -/
theorem Tree.induction {P : Tree → Prop} (null : P .null) (bool : ∀ b, P (.bool b))
    (number : ∀ literal valid, P (.number literal valid)) (string : ∀ s, P (.string s))
    (array : ∀ items, (∀ item ∈ items, P item) → P (.array items))
    (object : ∀ members, (∀ member ∈ members, P member.2) → P (.object members)) (tree : Tree) :
    P tree := by
  apply @Tree.rec P (fun items => ∀ item ∈ items, P item)
    (fun members => ∀ member ∈ members, P member.2) (fun member => P member.2)
    null bool number string array object
  · exact List.forall_mem_nil _
  · exact fun _ _ head tail => List.forall_mem_cons.mpr ⟨head, tail⟩
  · exact List.forall_mem_nil _
  · exact fun _ _ head tail => List.forall_mem_cons.mpr ⟨head, tail⟩
  · exact fun _ _ value => value

/-! ## Strings -/

/-- The blanks that may stand between tokens. -/
def isBlank (c : Char) : Bool :=
  c = ' ' || c = '\t' || c = '\n' || c = '\r'

/-- The text behind its leading blanks. -/
def skip (text : List Char) : List Char :=
  text.dropWhile isBlank

def hexValue (c : Char) : Option Nat :=
  if '0' ≤ c ∧ c ≤ '9' then
    some (c.toNat - 48)
  else if 'a' ≤ c ∧ c ≤ 'f' then
    some (c.toNat - 87)
  else if 'A' ≤ c ∧ c ≤ 'F' then
    some (c.toNat - 55)
  else
    none

/-- Four hexadecimal digits: a unit of UTF-16. -/
def readUnit : List Char → Option (Nat × List Char)
  | a :: b :: c :: d :: rest => do
      let a ← hexValue a
      let b ← hexValue b
      let c ← hexValue c
      let d ← hexValue d
      return (((a * 16 + b) * 16 + c) * 16 + d, rest)
  | _ => none

/-- The second unit of a surrogate pair. -/
def readLow (high : Nat) : List Char → Option (Char × List Char)
  | '\\' :: 'u' :: text => do
      let (low, rest) ← readUnit text
      if 0xDC00 ≤ low ∧ low < 0xE000 then
        return (Char.ofNat (0x10000 + (high - 0xD800) * 0x400 + (low - 0xDC00)), rest)
      else
        none
  | _ => none

/-- The units of a character behind `\u`.  A surrogate without its other half is refused. -/
def readUnicode (text : List Char) : Option (Char × List Char) := do
  let (unit, rest) ← readUnit text
  if unit < 0xD800 ∨ 0xE000 ≤ unit then
    return (Char.ofNat unit, rest)
  else if unit < 0xDC00 then
    readLow unit rest
  else
    none

/-- The characters with a short escape, behind the character that escapes them. -/
def shortEscapes : List (Char × Char) :=
  [('"', '"'), ('\\', '\\'), ('/', '/'), ('b', '\x08'), ('f', '\x0c'), ('n', '\n'), ('r', '\r'),
    ('t', '\t')]

/-- The character of an escape, behind its backslash. -/
def readEscape : List Char → Option (Char × List Char)
  | 'u' :: text => readUnicode text
  | c :: rest => (shortEscapes.lookup c).map fun escaped => (escaped, rest)
  | [] => none

/-- One character of a string.  A control character must be escaped. -/
def readChar : List Char → Option (Char × List Char)
  | '\\' :: text => readEscape text
  | c :: rest => if c < ' ' then none else some (c, rest)
  | [] => none

/-- The characters of a string up to its closing quotation mark. -/
def readString : Nat → List Char → Option (List Char × List Char)
  | 0, _ => none
  | _ + 1, '"' :: rest => some ([], rest)
  | fuel + 1, text => do
      let (c, rest) ← readChar text
      let (chars, rest) ← readString fuel rest
      return (c :: chars, rest)

/-! ## Values -/

def readWord (word : String) (tree : Tree) (text : List Char) : Option (Tree × List Char) :=
  if word.toList.isPrefixOf text then
    some (tree, text.drop word.length)
  else
    none

/-- The longest run of characters that a numeral may have, which must be one. -/
def readNumber (text : List Char) : Option (Tree × List Char) :=
  let literal := String.ofList (text.takeWhile isNumeric)
  if valid : isNumeral literal.toList then
    some (.number literal valid, text.dropWhile isNumeric)
  else
    none

/-- Entries that `read` reads, separated by commas, up to the closing bracket. -/
def readEntries {α : Type} (read : List Char → Option (α × List Char)) (close : Char) :
    Nat → List Char → Option (List α × List Char)
  | 0, _ => none
  | fuel + 1, text => do
      let (entry, rest) ← read text
      match skip rest with
      | [] => none
      | c :: rest =>
          if c = ',' then
            let (entries, rest) ← readEntries read close fuel rest
            return (entry :: entries, rest)
          else if c = close then
            return ([entry], rest)
          else
            none

/-- The entries of an array or an object behind its opening bracket. -/
def readBody {α : Type} (read : List Char → Option (α × List Char)) (close : Char) (fuel : Nat)
    (text : List Char) : Option (List α × List Char) :=
  match skip text with
  | [] => none
  | c :: rest => if c = close then some ([], rest) else readEntries read close fuel (c :: rest)

/-- A member of an object: its name, a colon and its value. -/
def readMember {α : Type} (read : List Char → Option (α × List Char)) (fuel : Nat)
    (text : List Char) : Option ((String × α) × List Char) :=
  match skip text with
  | '"' :: text => do
      let (name, rest) ← readString fuel text
      match skip rest with
      | ':' :: text =>
          let (value, rest) ← read text
          return ((String.ofList name, value), rest)
      | _ => none
  | _ => none

/-- A value behind blanks. -/
def readValue : Nat → List Char → Option (Tree × List Char)
  | 0, _ => none
  | fuel + 1, text =>
      match skip text with
      | [] => none
      | '"' :: rest => do
          let (chars, rest) ← readString fuel rest
          return (.string (.ofList chars), rest)
      | '[' :: rest => do
          let (items, rest) ← readBody (readValue fuel) ']' fuel rest
          return (.array items, rest)
      | '{' :: rest => do
          let (members, rest) ← readBody (readMember (readValue fuel) fuel) '}' fuel rest
          return (.object members, rest)
      | 'n' :: rest => readWord "ull" .null rest
      | 't' :: rest => readWord "rue" (.bool true) rest
      | 'f' :: rest => readWord "alse" (.bool false) rest
      | c :: rest => readNumber (c :: rest)

/-- The tree of a JSON text. -/
def decode (text : List Char) : Option Tree :=
  match readValue (text.length + 1) text with
  | some (tree, rest) => if skip rest = [] then some tree else none
  | none => none

end Parq.Json
