import Parq.Data.Bytes
import Parq.Data.Numeral
import Parq.Sequence.Ordered

/-!
# JSON values

The tree that `serde_json` reads a text into.  Its `Map` is a B-tree in this
build, so an object is the list of its members in the order of their keys.  The
tokenizer and the two printers of `serde_json` are not part of the repository;
they enter as one parameter, `SerdeJson`, with the facts the code relies on.
-/

namespace Parq.Data

open Parq.Sequence

/-- `serde_json::Number`: a `u64`, a negative `i64` or a finite `f64`. -/
inductive Number
  | posInt (n : UInt64)
  | negInt (n : Int64) (negative : n < 0)
  | float (f : F64) (finite : f.isFinite = true)
  deriving DecidableEq

namespace Number

/-- `Number::as_i64`, for a `u64` below `2^63`. -/
def asI64 : Number → Option Int64
  | .posInt n => if n.toNat < 9223372036854775808 then some (Int64.ofInt n.toNat) else none
  | .negInt n _ => some n
  | .float _ _ => none

/-- `Number::is_i64`. -/
def isI64 (n : Number) : Bool :=
  n.asI64.isSome

/-- `Number::as_f64`. -/
def asF64 : Number → Option F64
  | .posInt n => some (Float.Model.ofUInt64 n)
  | .negInt n _ => some (Float.Model.ofInt64 n)
  | .float f _ => some f

end Number

/-- `serde_json::Value`. -/
inductive Value
  | null
  | bool (b : Bool)
  | number (n : Number)
  | string (s : String)
  | array (items : List Value)
  | object (members : List (String × Value))

/-- `serde_json::Map<String, Value>`, as its entries in key order. -/
abbrev Map := List (String × Value)

namespace Map

/-- `Map::get`. -/
def get (m : Map) (key : String) : Option Value :=
  m.lookup key

/-- `Map::insert`. -/
def insert (m : Map) (key : String) (value : Value) : Map :=
  insertKey key value m

@[simp]
theorem get_nil (key : String) : Map.get [] key = none :=
  rfl

theorem get_insert (m : Map) (key query : String) (value : Value) :
    (m.insert key value).get query = if query = key then some value else m.get query :=
  lookup_insertKey key query value m

/-- The keys of a B-tree map are strictly increasing. -/
def Sorted (m : Map) : Prop :=
  (m.map Prod.fst).Pairwise (· < ·)

/-- In a sorted map a member is what its key looks up. -/
theorem get_eq_some_iff {m : Map} (sorted : m.Sorted) {key : String} {value : Value} :
    m.get key = some value ↔ (key, value) ∈ m := by
  induction m with
  | nil => simp
  | cons member rest ih =>
      rcases member with ⟨first, head⟩
      simp only [Sorted, List.map_cons, List.pairwise_cons] at sorted
      by_cases same : key = first
      · subst same
        have absent : ∀ other, (key, other) ∉ rest := by
          intro other mem
          exact absurd (sorted.1 key (List.mem_map_of_mem mem)) (String.lt_irrefl key)
        simp [get, absent, eq_comm]
      · simp [get, lookup_cons_ite, same, ← ih sorted.2]

end Map

namespace Value

/-- `value[key]`: the member of an object, and `Null` for anything else. -/
def index (value : Value) (key : String) : Value :=
  match value with
  | .object members => (Map.get members key).getD .null
  | _ => .null

/-- `Value::as_str`. -/
def asStr : Value → Option String
  | .string s => some s
  | _ => none

/-- `Value::as_bool`. -/
def asBool : Value → Option Bool
  | .bool b => some b
  | _ => none

end Value

mutual

/-- Every object of a tree lists its members in key order. -/
def Value.Sorted : Value → Prop
  | .array items => Value.AllSorted items
  | .object members => Map.Sorted members ∧ Value.MembersSorted members
  | _ => True

/-- `Value.Sorted` for the items of an array. -/
def Value.AllSorted : List Value → Prop
  | [] => True
  | item :: rest => Value.Sorted item ∧ Value.AllSorted rest

/-- `Value.Sorted` for the members of an object. -/
def Value.MembersSorted : List (String × Value) → Prop
  | [] => True
  | member :: rest => Value.MemberSorted member ∧ Value.MembersSorted rest

/-- `Value.Sorted` for one member. -/
def Value.MemberSorted : String × Value → Prop
  | (_, value) => Value.Sorted value

end

mutual

/-- Whether a tree is in key order can be decided. -/
def Value.decidableSorted : (value : Value) → Decidable (Value.Sorted value)
  | .null | .bool _ | .number _ | .string _ => .isTrue trivial
  | .array items => Value.decidableAllSorted items
  | .object members =>
      have : Decidable (Value.MembersSorted members) := Value.decidableMembersSorted members
      inferInstanceAs (Decidable (List.Pairwise _ _ ∧ _))

def Value.decidableAllSorted : (items : List Value) → Decidable (Value.AllSorted items)
  | [] => .isTrue trivial
  | item :: rest =>
      have : Decidable (Value.Sorted item) := Value.decidableSorted item
      have : Decidable (Value.AllSorted rest) := Value.decidableAllSorted rest
      inferInstanceAs (Decidable (_ ∧ _))

def Value.decidableMembersSorted : (members : List (String × Value)) →
    Decidable (Value.MembersSorted members)
  | [] => .isTrue trivial
  | member :: rest =>
      have : Decidable (Value.MemberSorted member) := Value.decidableMemberSorted member
      have : Decidable (Value.MembersSorted rest) := Value.decidableMembersSorted rest
      inferInstanceAs (Decidable (_ ∧ _))

def Value.decidableMemberSorted : (member : String × Value) →
    Decidable (Value.MemberSorted member)
  | (_, value) => Value.decidableSorted value

end

instance : DecidablePred Value.Sorted :=
  Value.decidableSorted

/-- `serde_json::Error`, of which the code reads only the text. -/
structure JsonError where
  message : String
  deriving DecidableEq

/-- The UTF-8 byte order mark. -/
def byteOrderMark : Bytes :=
  [0xEF, 0xBB, 0xBF]

/-- What the code uses of `serde_json`. -/
structure SerdeJson where
  /-- `serde_json::from_slice::<Value>`. -/
  fromSlice : Bytes → Except JsonError Value
  /-- `serde_json::from_str::<Vec<Value>>`. -/
  fromStrVec : String → Except JsonError (List Value)
  /-- `Value::to_string`. -/
  toText : Value → String
  /-- The `{:?}` form of a value. -/
  debug : Value → String
  /-- `serde_json::from_str::<Value>("!").unwrap_err()`. -/
  bang : JsonError
  fromSlice_bang : fromSlice (ascii "!") = .error bang
  fromSlice_byteOrderMark : ∀ rest, ∃ e, fromSlice (byteOrderMark ++ rest) = .error e
  fromSlice_sorted : ∀ {bytes value}, fromSlice bytes = .ok value → value.Sorted

namespace SerdeJson

/-- The members of a text that is a JSON object. -/
def object? (J : SerdeJson) (text : Bytes) : Option Map :=
  match J.fromSlice text with
  | .ok (.object members) => some members
  | _ => none

theorem object?_eq_some_iff (J : SerdeJson) (text : Bytes) (members : Map) :
    J.object? text = some members ↔ J.fromSlice text = .ok (.object members) := by
  unfold object?
  split <;> simp_all

/-- The reader that knows the texts and documents of two tables and refuses every
other text. -/
def ofTable (texts : List (Bytes × Value)) (documents : List (String × List Value))
    (refused : JsonError) (toText debug : Value → String)
    (plain : ∀ entry ∈ texts,
      entry.1 ≠ ascii "!" ∧ ¬ byteOrderMark <+: entry.1 ∧ entry.2.Sorted) : SerdeJson where
  fromSlice text :=
    match texts.lookup text with
    | some value => .ok value
    | none => .error refused
  fromStrVec content :=
    match documents.lookup content with
    | some entries => .ok entries
    | none => .error refused
  toText := toText
  debug := debug
  bang := refused
  fromSlice_bang := by
    cases found : texts.lookup (ascii "!") with
    | none => rfl
    | some value => exact absurd rfl (plain _ (mem_of_lookup_eq_some found)).1
  fromSlice_byteOrderMark := by
    intro rest
    cases found : texts.lookup (byteOrderMark ++ rest) with
    | none => exact ⟨refused, rfl⟩
    | some value =>
        exact absurd (List.prefix_append _ _) (plain _ (mem_of_lookup_eq_some found)).2.1
  fromSlice_sorted := by
    intro text value read
    cases found : texts.lookup text with
    | none => simp [found] at read
    | some other =>
        simp only [found, Except.ok.injEq] at read
        exact read ▸ (plain _ (mem_of_lookup_eq_some found)).2.2

/-- A reader for the texts that the examples of this development use. -/
def sample : SerdeJson :=
  ofTable
    [(ascii "\x7b\"a\":1\x7d", .object [("a", .number (.posInt 1))]),
      (ascii "\x7b\"a\":true\x7d", .object [("a", .bool true)]),
      (ascii "\x7b\"a\":\x7b\"b\":1\x7d\x7d",
        .object [("a", .object [("b", .number (.posInt 1))])])]
    [("[\x7b\"name\":\"a\",\"type\":\"Int32\"\x7d]",
      [.object [("name", .string "a"), ("type", .string "Int32")]]),
      ("[\x7b\"name\":\"a\",\"type\":\"Int64\"\x7d]",
      [.object [("name", .string "a"), ("type", .string "Int64")]])]
    ⟨"expected value at line 1 column 1"⟩ (fun _ => "") (fun _ => "") (by decide)

/-- A reader for an object and for a number, which is no object. -/
def objectAndNumber : SerdeJson :=
  ofTable
    [(ascii "\x7b\"a\":1\x7d", .object [("a", .number (.posInt 1))]),
      (ascii "5", .number (.posInt 5))]
    [] ⟨"expected value at line 1 column 1"⟩ (fun _ => "") (fun _ => "") (by decide)

/-- A reader for records with an integer as a number or as a text, and for one with a
number in the place of a truth value. -/
def twoKeys : SerdeJson :=
  ofTable
    [(ascii "\x7b\"a\":1,\"b\":true\x7d", .object [("a", .number (.posInt 1)), ("b", .bool true)]),
      (ascii "\x7b\"a\":\"7\"\x7d", .object [("a", .string "7")]),
      (ascii "\x7b\"a\":7\x7d", .object [("a", .number (.posInt 7))]),
      (ascii "\x7b\"b\":5\x7d", .object [("b", .number (.posInt 5))])]
    [] ⟨"expected value at line 1 column 1"⟩ (fun _ => "") (fun _ => "") (by decide)

/-- A reader for a nested record, and for three with its joined paths as keys. -/
def nestedAndJoined : SerdeJson :=
  ofTable
    [(ascii "\x7b\"a\":\x7b\"b\":1,\"c\":true\x7d\x7d",
        .object [("a", .object [("b", .number (.posInt 1)), ("c", .bool true)])]),
      (ascii "\x7b\"a_b\":1,\"a_c\":true\x7d",
        .object [("a_b", .number (.posInt 1)), ("a_c", .bool true)]),
      (ascii "\x7b\"a_b\":2,\"a_c\":false\x7d",
        .object [("a_b", .number (.posInt 2)), ("a_c", .bool false)]),
      (ascii "\x7b\"a_b\":2\x7d", .object [("a_b", .number (.posInt 2))])]
    [] ⟨"expected value at line 1 column 1"⟩ (fun _ => "") (fun _ => "") (by decide)

end SerdeJson

end Parq.Data
