import Parq.Data.Json
import Mathlib.Data.String.Basic

/-!
# Values of `simd_json`

The borrowed tree that the SIMD build parses a line into.  It tells signed from unsigned
integers by the constructor and not by the sign, and it may list a key of an object more
than once.  `Denotes` says which JSON value a tree stands for without reference to the
conversion that the parser applies.
-/

namespace Parq.Data

open Parq.Sequence

/-- `simd_json::StaticNode`. -/
inductive StaticNode
  | i64 (n : Int64)
  | u64 (n : UInt64)
  | f64 (f : F64)
  | bool (b : Bool)
  | null

/-- `simd_json::BorrowedValue`, with the entries of an object in the order in which its
iterator yields them. -/
inductive BorrowedValue
  | static (node : StaticNode)
  | string (s : String)
  | array (items : List BorrowedValue)
  | object (members : List (String × BorrowedValue))

namespace Number

/-- The integer that a number stands for; a float stands for none. -/
def integer? : Number → Option Int
  | .posInt n => some n.toNat
  | .negInt n _ => some n.toInt
  | .float _ _ => none

/-- `serde_json::Number::from` on an `i64`. -/
def ofI64 (n : Int64) : Number :=
  if negative : n < 0 then .negInt n negative else .posInt n.toUInt64

/-- `serde_json::Number::from` on a `u64`. -/
def ofU64 (n : UInt64) : Number :=
  .posInt n

/-- `serde_json::Number::from_f64`. -/
def ofF64 (f : F64) : Option Number :=
  if finite : f.isFinite = true then some (.float f finite) else none

theorem integer?_ofI64 (n : Int64) : (ofI64 n).integer? = some n.toInt := by
  unfold ofI64
  split
  · rfl
  · rename_i nonnegative
    have bound : 0 ≤ n.toInt := by
      rw [Int64.lt_iff_toInt_lt] at nonnegative
      simpa using nonnegative
    rw [integer?, Int64.toNat_toUInt64_of_le (Int64.not_lt.mp nonnegative), ← Int64.toNat_toInt,
      Int.toNat_of_nonneg bound]

theorem integer?_ofU64 (n : UInt64) : (ofU64 n).integer? = some n.toNat :=
  rfl

/-- An integer has one number. -/
theorem integer?_injective {a b : Number} {n : Int} (left : a.integer? = some n)
    (right : b.integer? = some n) : a = b := by
  have negative_int : ∀ {m : Int64}, m < 0 → m.toInt < 0 := by
    intro m negative
    simpa [Int64.lt_iff_toInt_lt] using negative
  cases a with
  | posInt p =>
      cases b with
      | posInt q =>
          simp only [integer?, Option.some.injEq] at left right
          have same : p.toNat = q.toNat := by omega
          rw [UInt64.toNat_inj.mp same]
      | negInt q negative =>
          simp only [integer?, Option.some.injEq] at left right
          have := negative_int negative
          omega
      | float => cases right
  | negInt p negative =>
      cases b with
      | posInt q =>
          simp only [integer?, Option.some.injEq] at left right
          have := negative_int negative
          omega
      | negInt q _ =>
          simp only [integer?, Option.some.injEq] at left right
          obtain rfl := Int64.toInt_inj.mp (left.trans right.symm)
          rfl
      | float => cases right
  | float => cases left

end Number

/-- `Map::from_iter`: later entries replace earlier ones. -/
def Map.fromIter (entries : List (String × Value)) : Map :=
  collect entries

/-! ## The value of a tree -/

mutual

/-- The JSON value that a borrowed tree stands for.  Of several entries with one key the
last one counts. -/
inductive Denotes : BorrowedValue → Value → Prop
  | null : Denotes (.static .null) .null
  | bool {b : Bool} : Denotes (.static (.bool b)) (.bool b)
  | i64 {n : Int64} {number : Number} (same : number.integer? = some n.toInt) :
      Denotes (.static (.i64 n)) (.number number)
  | u64 {n : UInt64} {number : Number} (same : number.integer? = some n.toNat) :
      Denotes (.static (.u64 n)) (.number number)
  | f64 {f : F64} (finite : f.isFinite = true) :
      Denotes (.static (.f64 f)) (.number (.float f finite))
  | string {s : String} : Denotes (.string s) (.string s)
  | array {items : List BorrowedValue} {values : List Value} (each : AllDenote items values) :
      Denotes (.array items) (.array values)
  | object {members : List (String × BorrowedValue)} {entries : List (String × Value)} {map : Map}
      (each : MembersDenote members entries) (sorted : map.Sorted)
      (last : ∀ key, map.get key = entries.reverse.lookup key) :
      Denotes (.object members) (.object map)

/-- `Denotes` for the items of an array. -/
inductive AllDenote : List BorrowedValue → List Value → Prop
  | nil : AllDenote [] []
  | cons {item : BorrowedValue} {value : Value} {items : List BorrowedValue} {values : List Value}
      (head : Denotes item value) (tail : AllDenote items values) :
      AllDenote (item :: items) (value :: values)

/-- `Denotes` for the entries of an object. -/
inductive MembersDenote : List (String × BorrowedValue) → List (String × Value) → Prop
  | nil : MembersDenote [] []
  | cons {key : String} {item : BorrowedValue} {value : Value}
      {members : List (String × BorrowedValue)} {entries : List (String × Value)}
      (head : Denotes item value) (tail : MembersDenote members entries) :
      MembersDenote ((key, item) :: members) ((key, value) :: entries)

end

/-- A map with increasing keys that keeps the last value of each key is what collecting
the entries gives. -/
theorem Map.eq_fromIter {map : Map} (sorted : map.Sorted) {entries : List (String × Value)}
    (last : ∀ key, map.get key = entries.reverse.lookup key) : Map.fromIter entries = map :=
  eq_of_lookup_eq (pairwise_collect entries) sorted fun key =>
    (lookup_collect key entries).trans (last key).symm

/-! ## The tokenizer -/

/-- `simd_json::Error`, of which the code reads only the text. -/
structure SimdError where
  message : String

/-- The bytes of a text. -/
def utf8 (text : String) : Bytes :=
  text.toList.flatMap String.utf8EncodeChar

/-- What the code uses of `simd_json`. -/
structure SimdJson where
  /-- `simd_json::to_borrowed_value`, on a copy of the bytes. -/
  toBorrowedValue : Bytes → Except SimdError BorrowedValue

/-- The two tokenizers accept the same texts and read the same values from them, and the
text of a `simd_json` error is not JSON itself. -/
structure SimdJson.Agrees (B : SimdJson) (J : SerdeJson) : Prop where
  accepts : ∀ {text borrowed}, B.toBorrowedValue text = .ok borrowed →
    ∃ value, J.fromSlice text = .ok value ∧ Denotes borrowed value
  refuses : ∀ {text error}, B.toBorrowedValue text = .error error →
    ∃ source, J.fromSlice text = .error source
  message : ∀ {text error}, B.toBorrowedValue text = .error error →
    ∃ source, J.fromSlice (utf8 error.message) = .error source

namespace SimdJson

/-- The tokenizer that knows the texts of a table and refuses every other text. -/
def ofTable (texts : List (Bytes × BorrowedValue)) (refused : SimdError) : SimdJson where
  toBorrowedValue text :=
    match texts.lookup text with
    | some borrowed => .ok borrowed
    | none => .error refused

/-- Both entries are about one text, and the first lists a tree for the value of the
second. -/
inductive EntriesAgree : Bytes × BorrowedValue → Bytes × Value → Prop
  | mk (text : Bytes) {borrowed : BorrowedValue} {value : Value}
      (denotes : Denotes borrowed value) :
      EntriesAgree (text, borrowed) (text, value)

/-- Two tables with the same texts find a tree and the value it denotes, or nothing. -/
theorem lookup_denotes {texts : List (Bytes × BorrowedValue)} {values : List (Bytes × Value)}
    (same : List.Forall₂ EntriesAgree texts values)
    (text : Bytes) :
    (∃ borrowed value, texts.lookup text = some borrowed ∧ values.lookup text = some value ∧
        Denotes borrowed value) ∨
      texts.lookup text = none ∧ values.lookup text = none := by
  induction same with
  | nil => exact .inr ⟨rfl, rfl⟩
  | cons head tail ih =>
      obtain ⟨key, denotes⟩ := head
      rw [List.lookup_cons, List.lookup_cons]
      cases text == key with
      | true => exact .inl ⟨_, _, rfl, rfl, denotes⟩
      | false => exact ih

/-- A tokenizer for the texts that the examples of this development use. -/
def sample : SimdJson :=
  ofTable
    [(ascii "\x7b\"a\":1\x7d", .object [("a", .static (.i64 1))]),
      (ascii "\x7b\"a\":true\x7d", .object [("a", .static (.bool true))]),
      (ascii "\x7b\"a\":\x7b\"b\":1\x7d\x7d", .object [("a", .object [("b", .static (.u64 1))])])]
    ⟨"Syntax at character 0"⟩

/-- An object with a single entry. -/
theorem denotes_singleton (key : String) {item : BorrowedValue} {value : Value}
    (denotes : Denotes item value) : Denotes (.object [(key, item)]) (.object [(key, value)]) :=
  .object (.cons denotes .nil) (List.pairwise_singleton _ _) fun _ => rfl

theorem toBorrowedValue_sample (text : Bytes) :
    (∃ borrowed value, sample.toBorrowedValue text = .ok borrowed ∧
        SerdeJson.sample.fromSlice text = .ok value ∧ Denotes borrowed value) ∨
      sample.toBorrowedValue text = .error ⟨"Syntax at character 0"⟩ ∧
        ∃ source, SerdeJson.sample.fromSlice text = .error source := by
  have one : Denotes (.static (.i64 1)) (.number (.posInt 1)) := .i64 rfl
  have yes : Denotes (.static (.bool true)) (.bool true) := .bool
  have unsigned_one : Denotes (.static (.u64 1)) (.number (.posInt 1)) := .u64 rfl
  have nested := denotes_singleton "a" (denotes_singleton "b" unsigned_one)
  have found := lookup_denotes
    (.cons (.mk (ascii "\x7b\"a\":1\x7d") (denotes_singleton "a" one))
      (.cons (.mk (ascii "\x7b\"a\":true\x7d") (denotes_singleton "a" yes))
        (.cons (.mk (ascii "\x7b\"a\":\x7b\"b\":1\x7d\x7d") nested) .nil))) text
  unfold sample SerdeJson.sample ofTable SerdeJson.ofTable
  dsimp only
  rcases found with ⟨borrowed, value, listed, read, denotes⟩ | ⟨unlisted, unread⟩
  · rw [listed, read]
    exact .inl ⟨borrowed, value, rfl, rfl, denotes⟩
  · rw [unlisted, unread]
    exact .inr ⟨rfl, _, rfl⟩

theorem agrees_sample : Agrees sample .sample where
  accepts := by
    intro text borrowed read
    rcases toBorrowedValue_sample text with ⟨_, value, accepted, parsed, denotes⟩ | ⟨refused, _⟩
    · rw [accepted, Except.ok.injEq] at read
      exact ⟨value, parsed, read ▸ denotes⟩
    · rw [refused] at read
      cases read
  refuses := by
    intro text error read
    rcases toBorrowedValue_sample text with ⟨_, _, accepted, _, _⟩ | ⟨_, not_json⟩
    · rw [accepted] at read
      cases read
    · exact not_json
  message := by
    intro text error read
    rcases toBorrowedValue_sample text with ⟨_, _, accepted, _, _⟩ | ⟨refused, _⟩
    · rw [accepted] at read
      cases read
    · rw [refused, Except.error.injEq] at read
      subst read
      exact ⟨_, rfl⟩

end SimdJson

end Parq.Data
