import Parq.Flatten.Core

/-!
# The leaves of an object

A leaf is a value that is not an object, under the path of keys that leads to it.
`flatten_object` inserts the leaves in their order, each under a name made from its
path.  That name is the joined path, except that the empty prefix of the recursion
swallows empty keys at the front of a longer path.
-/

namespace Parq.Flatten

open Parq.Data
open Parq.Sequence

mutual

/-- The leaves below the members of an object, in the order of the traversal. -/
def leavesOf : (obj : List (String × Value)) → List (List String × Value)
  | [] => []
  | member :: rest => memberLeaves member ++ leavesOf rest

/-- The leaves below one member. -/
def memberLeaves : (member : String × Value) → List (List String × Value)
  | (key, value) => (valueLeaves value).map fun leaf => (key :: leaf.1, leaf.2)

/-- The leaves below a value. -/
def valueLeaves : (value : Value) → List (List String × Value)
  | .object nested => leavesOf nested
  | value => [([], value)]

end

/-- The name under which the recursion stores a leaf, from a prefix on. -/
def writtenName (sep pre : String) (path : List String) : String :=
  path.foldl (joinKey sep) pre

/-- The keys of a path joined by underscores. -/
def joinedPath (path : List String) : String :=
  "_".intercalate path

/-- What the recursion stores for a leaf: an array as its text. -/
def storedLeaf (J : SerdeJson) : Value → Value
  | .array items => .string (J.toText (.array items))
  | value => value

/-- The entries that the recursion inserts. -/
def writes (J : SerdeJson) (sep pre : String) (leaves : List (List String × Value)) :
    List (String × Value) :=
  leaves.map fun leaf => (writtenName sep pre leaf.1, storedLeaf J leaf.2)

/-- Insert entries one after another. -/
def insertAll (out : Map) (entries : List (String × Value)) : Map :=
  entries.foldl (fun out entry => out.insert entry.1 entry.2) out

theorem writes_map_cons (J : SerdeJson) (sep pre key : String)
    (leaves : List (List String × Value)) :
    writes J sep pre (leaves.map fun leaf => (key :: leaf.1, leaf.2)) =
      writes J sep (joinKey sep pre key) leaves := by
  simp [writes, writtenName]

mutual

theorem flattenRec_eq (J : SerdeJson) (sep : String) :
    ∀ (obj : List (String × Value)) (pre : String)
    (out : Map), flattenRec J sep obj pre out = insertAll out (writes J sep pre (leavesOf obj))
  | [], pre, out => by simp [flattenRec, leavesOf, writes, insertAll]
  | member :: rest, pre, out => by
      rw [flattenRec, flattenMember_eq J sep member, flattenRec_eq J sep rest]
      simp [leavesOf, writes, insertAll]

theorem flattenMember_eq (J : SerdeJson) (sep : String) : ∀ (member : String × Value) (pre : String)
    (out : Map),
    flattenMember J sep member pre out = insertAll out (writes J sep pre (memberLeaves member))
  | (key, value), pre, out => by
      rw [flattenMember, flattenValue_eq J sep value, memberLeaves, writes_map_cons]

theorem flattenValue_eq (J : SerdeJson) (sep : String) : ∀ (value : Value) (full : String)
    (out : Map),
    flattenValue J sep value full out = insertAll out (writes J sep full (valueLeaves value))
  | .object nested, full, out => by rw [flattenValue, flattenRec_eq J sep nested, valueLeaves]
  | .array items, full, out => by
      simp [flattenValue, valueLeaves, writes, writtenName, storedLeaf, insertAll]
  | .null, full, out => by
      simp [flattenValue, valueLeaves, writes, writtenName, storedLeaf, insertAll]
  | .bool b, full, out => by
      simp [flattenValue, valueLeaves, writes, writtenName, storedLeaf, insertAll]
  | .number n, full, out => by
      simp [flattenValue, valueLeaves, writes, writtenName, storedLeaf, insertAll]
  | .string s, full, out => by
      simp [flattenValue, valueLeaves, writes, writtenName, storedLeaf, insertAll]

end

/-! ## Names -/

/-- The path starts with an empty key that is not all of it. -/
def LeadingEmpty (path : List String) : Prop :=
  ∃ key rest, path = "" :: key :: rest

theorem intercalate_cons_cons (sep key next : String) (rest : List String) :
    sep.intercalate (key :: next :: rest) = sep.intercalate ((key ++ sep ++ next) :: rest) := by
  simp [String.append_assoc]

/-- From a prefix that is not empty, the name is the joined path behind the
prefix. -/
theorem writtenName_of_ne (sep : String) {pre : String} (nonempty : pre ≠ "") (path : List String) :
    writtenName sep pre path = sep.intercalate (pre :: path) := by
  induction path generalizing pre with
  | nil => simp [writtenName]
  | cons key rest ih =>
      have longer : pre ++ sep ++ key ≠ "" := by simp [nonempty]
      have step : joinKey sep pre key = pre ++ sep ++ key := by simp [joinKey, nonempty]
      rw [writtenName, List.foldl_cons, step, intercalate_cons_cons]
      exact ih longer

/-- A leaf is stored under its joined path, unless the path starts with an empty
key. -/
theorem writtenName_eq_joinedPath {path : List String} (plain : ¬ LeadingEmpty path) :
    writtenName "_" "" path = joinedPath path := by
  cases path with
  | nil => rfl
  | cons key rest =>
      have step : joinKey "_" "" key = key := by simp [joinKey]
      rw [writtenName, List.foldl_cons, step]
      by_cases empty : key = ""
      · subst empty
        cases rest with
        | nil => simp [joinedPath]
        | cons next rest => exact absurd ⟨next, rest, rfl⟩ plain
      · exact writtenName_of_ne "_" empty rest

/-! ## The order of the leaves -/

theorem not_lt_empty (key : String) : ¬ key < "" := by
  rw [String.lt_iff]
  exact List.not_lt_nil _

theorem mem_memberLeaves {key : String} {value : Value} {leaf : List String × Value} :
    leaf ∈ memberLeaves (key, value) ↔
      ∃ path v, (path, v) ∈ valueLeaves value ∧ leaf = (key :: path, v) := by
  simp [memberLeaves, eq_comm]

/-- The leaves of an object are those of its members, with the key in front. -/
theorem mem_leavesOf {obj : List (String × Value)} {leaf : List String × Value} :
    leaf ∈ leavesOf obj ↔
      ∃ key value, (key, value) ∈ obj ∧
        ∃ path v, (path, v) ∈ valueLeaves value ∧ leaf = (key :: path, v) := by
  induction obj with
  | nil => simp [leavesOf]
  | cons member rest ih =>
      rcases member with ⟨key, value⟩
      rw [leavesOf, List.mem_append, mem_memberLeaves, ih]
      constructor
      · rintro (here | ⟨key', value', mem, below⟩)
        · exact ⟨key, value, List.mem_cons_self, here⟩
        · exact ⟨key', value', List.mem_cons_of_mem _ mem, below⟩
      · rintro ⟨key', value', mem, below⟩
        rcases List.mem_cons.mp mem with same | later
        · cases same
          exact .inl below
        · exact .inr ⟨key', value', later, below⟩

/-- A member that is not an object is a leaf. -/
theorem leaf_of_mem {obj : List (String × Value)} {key : String} {value : Value}
    (mem : (key, value) ∈ obj) (flat : ∀ nested, value ≠ .object nested) :
    ([key], value) ∈ leavesOf obj := by
  apply mem_leavesOf.mpr
  refine ⟨key, value, mem, [], value, ?_, rfl⟩
  cases value with
  | object nested => exact absurd rfl (flat nested)
  | _ => simp [valueLeaves]

theorem not_leadingEmpty_of_ne {key : String} (nonempty : key ≠ "") (path : List String) :
    ¬ LeadingEmpty (key :: path) := by
  rintro ⟨next, rest, split⟩
  cases split
  exact nonempty rfl

/-- In a sorted object the paths that start with an empty key come first. -/
theorem leaves_split {obj : Map} (sorted : obj.Sorted) :
    ∃ early late, leavesOf obj = early ++ late ∧ (∀ leaf ∈ early, LeadingEmpty leaf.1) ∧
      ∀ leaf ∈ late, ¬ LeadingEmpty leaf.1 := by
  cases obj with
  | nil => exact ⟨[], [], rfl, by simp, by simp⟩
  | cons member rest =>
      rcases member with ⟨key, value⟩
      have later : ∀ leaf ∈ leavesOf rest, ¬ LeadingEmpty leaf.1 := by
        intro leaf mem
        rcases mem_leavesOf.mp mem with ⟨key', value', member_mem, path, v, _, rfl⟩
        apply not_leadingEmpty_of_ne
        rintro rfl
        rw [Map.Sorted, List.map_cons, List.pairwise_cons] at sorted
        exact not_lt_empty key (sorted.1 "" (List.mem_map_of_mem member_mem))
      by_cases first : ∀ leaf ∈ memberLeaves (key, value), ¬ LeadingEmpty leaf.1
      · refine ⟨[], leavesOf ((key, value) :: rest), rfl, by simp, ?_⟩
        intro leaf mem
        rcases List.mem_append.mp mem with here | below
        · exact first leaf here
        · exact later leaf below
      · refine ⟨memberLeaves (key, value), leavesOf rest, rfl, ?_, later⟩
        simp only [not_forall, not_not] at first
        rcases first with ⟨leaf, mem, next, tail, path_eq⟩
        rcases mem_memberLeaves.mp mem with ⟨path, v, below, rfl⟩
        obtain ⟨rfl, rfl⟩ := List.cons.inj path_eq
        cases value with
        | object nested =>
            intro other other_mem
            rcases mem_memberLeaves.mp other_mem with ⟨path', v', below', rfl⟩
            rw [valueLeaves] at below'
            rcases mem_leavesOf.mp below' with ⟨key', _, _, path'', _, _, split⟩
            cases split
            exact ⟨key', path'', rfl⟩
        | _ => simp [valueLeaves] at below

/-! ## What the flattened object holds -/

theorem insertAll_append (out : Map) (entries more : List (String × Value)) :
    insertAll out (entries ++ more) = insertAll (insertAll out entries) more :=
  List.foldl_append

/-- Entries under other names leave a name as it was. -/
theorem get_insertAll_of_not_mem {name : String} {entries : List (String × Value)}
    (absent : name ∉ entries.map Prod.fst) (out : Map) :
    (insertAll out entries).get name = out.get name := by
  induction entries generalizing out with
  | nil => rfl
  | cons entry entries ih =>
      rw [List.map_cons, List.mem_cons, not_or] at absent
      change (insertAll (out.insert entry.1 entry.2) entries).get name = _
      rw [ih absent.2, Map.get_insert, if_neg absent.1]

/-- The last entry under a name is the one that stays. -/
theorem get_insertAll_last {name : String} {value : Value} {before after : List (String × Value)}
    (absent : name ∉ after.map Prod.fst) (out : Map) :
    (insertAll out (before ++ (name, value) :: after)).get name = some value := by
  rw [insertAll_append]
  change (insertAll ((insertAll out before).insert name value) after).get name = _
  rw [get_insertAll_of_not_mem absent, Map.get_insert, if_pos rfl]

/-- No other leaf of the object has the joined path. -/
def UniquelyNamed (obj : Map) (path : List String) : Prop :=
  ((leavesOf obj).map fun leaf => joinedPath leaf.1).count (joinedPath path) = 1

instance (obj : Map) (path : List String) : Decidable (UniquelyNamed obj path) :=
  inferInstanceAs (Decidable (_ = 1))

/-- A flattened object holds each uniquely named leaf under its joined path, unless
the path starts with an empty key. -/
theorem get_flattenObject (J : SerdeJson) {obj : Map} (sorted : obj.Sorted)
    {leaf : List String × Value} (mem : leaf ∈ leavesOf obj) (plain : ¬ LeadingEmpty leaf.1)
    (unique : UniquelyNamed obj leaf.1) :
    (flattenObject J obj "_").get (joinedPath leaf.1) = some (storedLeaf J leaf.2) := by
  obtain ⟨early, late, split, all_early, all_late⟩ := leaves_split sorted
  have mem_late : leaf ∈ late := by
    rw [split, List.mem_append] at mem
    exact mem.resolve_left fun mem_early => plain (all_early leaf mem_early)
  obtain ⟨before, after, rfl⟩ := List.append_of_mem mem_late
  have absent : joinedPath leaf.1 ∉ after.map fun leaf => joinedPath leaf.1 := by
    rw [UniquelyNamed, split] at unique
    simp only [List.map_append, List.map_cons, List.count_append, List.count_cons_self] at unique
    apply List.count_eq_zero.mp
    omega
  have names : (writes J "_" "" after).map Prod.fst = after.map fun leaf => joinedPath leaf.1 := by
    rw [writes, List.map_map]
    apply List.map_congr_left
    intro other other_mem
    exact writtenName_eq_joinedPath (all_late other (by simp [other_mem]))
  rw [← names] at absent
  have entries : writes J "_" "" (leavesOf obj) =
      writes J "_" "" (early ++ before) ++
        (joinedPath leaf.1, storedLeaf J leaf.2) :: writes J "_" "" after := by
    rw [split, ← writtenName_eq_joinedPath plain]
    simp [writes]
  rw [flattenObject, flattenRec_eq, entries]
  exact get_insertAll_last absent []

end Parq.Flatten
