import Parq.Flatten.Leaves
import Mathlib.Data.List.Dedup
import Mathlib.Data.String.Basic

/-!
# The names of the leaves

Of the leaves that are written under one name the last one in the traversal stays.  What
`flatten_object` holds is therefore decided by the names: two paths with one joined path
share a key, and a path that starts with an empty key is written under a shorter name than
its joined path.
-/

namespace Parq.Flatten

open Parq.Data
open Parq.Sequence

/-! ## The name a leaf is written under -/

/-- The path without the empty keys in front of its other keys. -/
def shortened : List String → List String
  | key :: next :: rest => if key = "" then shortened (next :: rest) else key :: next :: rest
  | path => path

instance : DecidablePred LeadingEmpty
  | [] => isFalse (by rintro ⟨_, _, split⟩; cases split)
  | [_] => isFalse (by rintro ⟨_, _, split⟩; cases split)
  | key :: next :: rest =>
      if empty : key = "" then isTrue ⟨next, rest, by rw [empty]⟩
      else isFalse (not_leadingEmpty_of_ne empty _)

theorem shortened_eq_self {path : List String} (plain : ¬ LeadingEmpty path) :
    shortened path = path := by
  rcases path with _ | ⟨key, _ | ⟨next, rest⟩⟩
  · rfl
  · rfl
  · rw [shortened, if_neg]
    rintro rfl
    exact plain ⟨next, rest, rfl⟩

/-- A leaf is written under its path without the empty keys in front. -/
theorem writtenName_eq (sep : String) (path : List String) :
    writtenName sep "" path = sep.intercalate (shortened path) := by
  induction path with
  | nil => rfl
  | cons key rest ih =>
      have step : joinKey sep "" key = key := by simp [joinKey]
      rw [writtenName, List.foldl_cons, step]
      by_cases empty : key = ""
      · subst empty
        cases rest with
        | nil => simp [shortened]
        | cons next rest =>
            rw [shortened, if_pos rfl]
            exact ih
      · rw [shortened_eq_self (not_leadingEmpty_of_ne empty rest)]
        exact writtenName_of_ne sep empty rest

/-! ## The last leaf under a name -/

/-- The leaf is the last one whose path has the name. -/
def IsLastUnder (name : List String → String) (leaves : List (List String × Value)) (key : String)
    (leaf : List String × Value) : Prop :=
  ∃ before after, leaves = before ++ leaf :: after ∧ name leaf.1 = key ∧
    ∀ other ∈ after, name other.1 ≠ key

/-- What the last leaf under a name stores. -/
def lastUnder (J : SerdeJson) (name : List String → String) (leaves : List (List String × Value))
    (key : String) : Option Value :=
  (leaves.map fun leaf => (name leaf.1, storedLeaf J leaf.2)).reverse.lookup key

section LastUnder

variable {J : SerdeJson} {name : List String → String} {leaves : List (List String × Value)}
  {key : String}

theorem lastUnder_append (more : List (List String × Value)) :
    lastUnder J name (leaves ++ more) key =
      (lastUnder J name more key).or (lastUnder J name leaves key) := by
  rw [lastUnder, List.map_append, List.reverse_append, List.lookup_append]
  rfl

theorem lastUnder_congr {name' : List String → String}
    (same : ∀ leaf ∈ leaves, name leaf.1 = name' leaf.1) (key : String) :
    lastUnder J name leaves key = lastUnder J name' leaves key := by
  rw [lastUnder, lastUnder, List.map_congr_left]
  intro leaf mem
  rw [same leaf mem]

theorem lastUnder_eq_none_iff :
    lastUnder J name leaves key = none ↔ ∀ leaf ∈ leaves, name leaf.1 ≠ key := by
  unfold lastUnder
  rw [List.lookup_eq_none_iff]
  constructor
  · intro absent leaf mem same
    have different := absent (name leaf.1, storedLeaf J leaf.2)
      (List.mem_reverse.mpr (List.mem_map_of_mem mem))
    simp [same] at different
  · intro absent entry mem
    rw [List.mem_reverse, List.mem_map] at mem
    rcases mem with ⟨leaf, leaf_mem, rfl⟩
    exact bne_iff_ne.mpr (Ne.symm (absent leaf leaf_mem))

theorem lastUnder_eq_some_iff {value : Value} :
    lastUnder J name leaves key = some value ↔
      ∃ leaf, IsLastUnder name leaves key leaf ∧ value = storedLeaf J leaf.2 := by
  unfold lastUnder
  rw [List.lookup_eq_some_iff]
  constructor
  · rintro ⟨later, earlier, split, absent⟩
    rw [List.reverse_eq_iff, List.reverse_append, List.reverse_cons, List.append_assoc,
      List.singleton_append] at split
    rcases List.map_eq_append_iff.mp split with ⟨before, rest, rfl, _, rest_eq⟩
    rcases List.map_eq_cons_iff.mp rest_eq with ⟨leaf, after, rfl, leaf_eq, after_eq⟩
    rcases Prod.mk.inj leaf_eq with ⟨named, stored⟩
    refine ⟨leaf, ⟨before, after, rfl, named, ?_⟩, stored.symm⟩
    intro other mem same
    have entry : (name other.1, storedLeaf J other.2) ∈ later := by
      rw [← List.mem_reverse, ← after_eq]
      exact List.mem_map_of_mem mem
    have different := absent _ entry
    rw [same] at different
    simp at different
  · rintro ⟨leaf, ⟨before, after, rfl, rfl, later⟩, rfl⟩
    rw [List.map_append, List.map_cons, List.reverse_append, List.reverse_cons, List.append_assoc,
      List.singleton_append]
    refine ⟨_, _, rfl, ?_⟩
    intro entry mem
    rw [List.mem_reverse, List.mem_map] at mem
    rcases mem with ⟨other, other_mem, rfl⟩
    exact bne_iff_ne.mpr (Ne.symm (later other other_mem))

end LastUnder

theorem sorted_flattenObject (J : SerdeJson) (sep : String) (obj : Map) :
    (flattenObject J obj sep).Sorted := by
  rw [flattenObject, flattenRec_eq]
  exact pairwise_collect (writes J sep "" (leavesOf obj))

/-- A flattened object holds the last leaf under each name that is written. -/
theorem get_flattenObject_eq (J : SerdeJson) (sep : String) (obj : Map) (key : String) :
    (flattenObject J obj sep).get key = lastUnder J (writtenName sep "") (leavesOf obj) key := by
  rw [flattenObject, flattenRec_eq]
  exact lookup_collect key _

/-! ## Full joined paths -/

/-- Every key of the flattened object is the full joined path of a leaf and holds the last
leaf with that path, and every full joined path is a key. -/
structure FullyNamed (J : SerdeJson) (sep : String) (obj : Map) : Prop where
  last : ∀ key value, (flattenObject J obj sep).get key = some value →
    ∃ leaf, IsLastUnder sep.intercalate (leavesOf obj) key leaf ∧ value = storedLeaf J leaf.2
  present : ∀ leaf ∈ leavesOf obj,
    ∃ value, (flattenObject J obj sep).get (sep.intercalate leaf.1) = some value

section FullyNamed

variable {J : SerdeJson} {sep : String} {obj : Map}

theorem fullyNamed_iff_lastUnder :
    FullyNamed J sep obj ↔
      ∀ key, (flattenObject J obj sep).get key =
        lastUnder J sep.intercalate (leavesOf obj) key := by
  constructor
  · intro full key
    cases found : (flattenObject J obj sep).get key with
    | some value => exact (lastUnder_eq_some_iff.mpr (full.last key value found)).symm
    | none =>
        refine (lastUnder_eq_none_iff.mpr ?_).symm
        rintro leaf mem rfl
        rcases full.present leaf mem with ⟨value, present⟩
        rw [found] at present
        cases present
  · intro same
    constructor
    · intro key value found
      rw [same] at found
      exact lastUnder_eq_some_iff.mp found
    · intro leaf mem
      rw [← Option.ne_none_iff_exists', same, Ne, lastUnder_eq_none_iff]
      exact fun absent => absent leaf mem rfl

/-- The leaves below an empty key at the top. -/
def belowEmpty (obj : Map) : List (List String × Value) :=
  (leavesOf obj).filter fun leaf => LeadingEmpty leaf.1

/-- The other leaves. -/
def besideEmpty (obj : Map) : List (List String × Value) :=
  (leavesOf obj).filter fun leaf => ¬ LeadingEmpty leaf.1

theorem leavesOf_eq_append (sorted : obj.Sorted) :
    leavesOf obj = belowEmpty obj ++ besideEmpty obj := by
  rcases leaves_split sorted with ⟨early, late, split, all_early, all_late⟩
  have below : belowEmpty obj = early := by
    rw [belowEmpty, split, List.filter_append, List.filter_eq_self.mpr (by simpa using all_early),
      List.filter_eq_nil_iff.mpr (by simpa using all_late), List.append_nil]
  have beside : besideEmpty obj = late := by
    rw [besideEmpty, split, List.filter_append,
      List.filter_eq_nil_iff.mpr (by simpa using all_early),
      List.filter_eq_self.mpr (by simpa using all_late), List.nil_append]
  rw [below, beside, split]

end FullyNamed

/-- The keys are full joined paths exactly when, under every name that no leaf beside the
empty key has, the leaves below the empty key store the same by their full paths as by their
paths without the empty keys in front. -/
theorem fullyNamed_iff (J : SerdeJson) (sep : String) {obj : Map} (sorted : obj.Sorted) :
    FullyNamed J sep obj ↔
      ∀ key, (∀ leaf ∈ besideEmpty obj, sep.intercalate leaf.1 ≠ key) →
        lastUnder J sep.intercalate (belowEmpty obj) key =
          lastUnder J (fun path => sep.intercalate (shortened path)) (belowEmpty obj) key := by
  rw [fullyNamed_iff_lastUnder]
  apply forall_congr'
  intro key
  have written : lastUnder J (writtenName sep "") (belowEmpty obj) key =
      lastUnder J (fun path => sep.intercalate (shortened path)) (belowEmpty obj) key :=
    lastUnder_congr (fun leaf _ => writtenName_eq sep leaf.1) key
  have plain : lastUnder J (writtenName sep "") (besideEmpty obj) key =
      lastUnder J sep.intercalate (besideEmpty obj) key := by
    apply lastUnder_congr
    intro leaf mem
    have beside : ¬ LeadingEmpty leaf.1 := by simpa using (List.mem_filter.mp mem).2
    rw [writtenName_eq, shortened_eq_self beside]
  rw [get_flattenObject_eq, leavesOf_eq_append sorted, lastUnder_append, lastUnder_append, plain,
    written, ← lastUnder_eq_none_iff (J := J)]
  cases lastUnder J sep.intercalate (besideEmpty obj) key with
  | none => simp [eq_comm]
  | some value => simp

/-- A leaf below an empty key does no harm when other leaves have both its names. -/
theorem fullyNamed_covered :
    let obj : Map :=
      [("", .object [("a", .number (.posInt 1))]), ("_a", .bool true), ("a", .bool false),
        ("b", .object [("c", .number (.posInt 2)), ("d", .number (.posInt 3))])]
    FullyNamed .sample "_" obj := by
  intro obj
  have sorted : obj.Sorted := by
    simp only [Map.Sorted]
    decide
  have below : belowEmpty obj = [(["", "a"], .number (.posInt 1))] := rfl
  have beside : besideEmpty obj = [(["_a"], .bool true), (["a"], .bool false),
      (["b", "c"], .number (.posInt 2)), (["b", "d"], .number (.posInt 3))] := rfl
  apply (fullyNamed_iff .sample "_" sorted).mpr
  intro key fresh
  rw [beside, List.forall_mem_cons, List.forall_mem_cons] at fresh
  rw [below, lastUnder_eq_none_iff.mpr, lastUnder_eq_none_iff.mpr]
  · rintro leaf (_ | ⟨_, ⟨⟩⟩)
    exact fresh.2.1
  · rintro leaf (_ | ⟨_, ⟨⟩⟩)
    exact fresh.1

/-- A leaf below an empty key loses the empty key and the separator from its name. -/
theorem empty_key_dropped :
    Map.Sorted [("", .object [("a", .number (.posInt 1))])] ∧
      flattenObject .sample [("", .object [("a", .number (.posInt 1))])] "_" =
        [("a", .number (.posInt 1))] ∧
      ¬ FullyNamed .sample "_" [("", .object [("a", .number (.posInt 1))])] := by
  have flattened : flattenObject .sample [("", .object [("a", .number (.posInt 1))])] "_" =
      [("a", .number (.posInt 1))] := by
    rfl
  refine ⟨List.pairwise_singleton _ _, flattened, ?_⟩
  intro full
  obtain ⟨value, present⟩ :=
    full.present (["", "a"], .number (.posInt 1)) (List.mem_singleton_self _)
  rw [flattened] at present
  cases present

/-! ## Shared names -/

/-- The keys of a flattened object are the names that are written. -/
theorem mem_keys_flattenObject {J : SerdeJson} {sep : String} {obj : Map} {key : String} :
    key ∈ (flattenObject J obj sep).map Prod.fst ↔
      key ∈ (leavesOf obj).map fun leaf => writtenName sep "" leaf.1 := by
  have names : (writes J sep "" (leavesOf obj)).map Prod.fst =
      (leavesOf obj).map fun leaf => writtenName sep "" leaf.1 := by
    rw [writes, List.map_map]
    rfl
  rw [flattenObject, flattenRec_eq, ← names]
  exact @mem_keys_collect String Value _ key _

theorem nodup_keys_flattenObject (J : SerdeJson) (sep : String) (obj : Map) :
    ((flattenObject J obj sep).map Prod.fst).Nodup := by
  rw [flattenObject, flattenRec_eq]
  have increasing := pairwise_collect (writes J sep "" (leavesOf obj))
  exact increasing.imp fun below => ne_of_lt below

/-- Every leaf is in the flattened object under a key of its own, and nothing else is. -/
structure LosesNoLeaf (J : SerdeJson) (obj : Map) : Prop where
  entries : (flattenObject J obj "_").length = (leavesOf obj).length
  kept : ∃ name : List String → String,
    (∀ leaf ∈ leavesOf obj,
      (flattenObject J obj "_").get (name leaf.1) = some (storedLeaf J leaf.2)) ∧
    ((leavesOf obj).map fun leaf => name leaf.1).Nodup

section Shared

variable {J : SerdeJson} {obj : Map} (plain : ∀ leaf ∈ leavesOf obj, ¬ LeadingEmpty leaf.1)

include plain

theorem writtenNames_eq :
    ((leavesOf obj).map fun leaf => writtenName "_" "" leaf.1) =
      (leavesOf obj).map fun leaf => joinedPath leaf.1 :=
  List.map_congr_left fun leaf mem => writtenName_eq_joinedPath (plain leaf mem)

/-- There are as many entries as joined paths. -/
theorem length_flattenObject :
    (flattenObject J obj "_").length =
      ((leavesOf obj).map fun leaf => joinedPath leaf.1).dedup.length := by
  have perm : ((flattenObject J obj "_").map Prod.fst).Perm
      ((leavesOf obj).map fun leaf => joinedPath leaf.1).dedup := by
    rw [List.perm_ext_iff_of_nodup (nodup_keys_flattenObject J "_" obj) (List.nodup_dedup _)]
    intro key
    rw [mem_keys_flattenObject, writtenNames_eq plain, List.mem_dedup]
  rw [← perm.length_eq, List.length_map]

theorem get_flattenObject_joinedPath (key : String) :
    (flattenObject J obj "_").get key = lastUnder J joinedPath (leavesOf obj) key := by
  rw [get_flattenObject_eq]
  exact lastUnder_congr (fun leaf mem => writtenName_eq_joinedPath (plain leaf mem)) key

theorem losesNoLeaf_iff :
    LosesNoLeaf J obj ↔ ((leavesOf obj).map fun leaf => joinedPath leaf.1).Nodup := by
  have length := length_flattenObject (J := J) plain
  constructor
  · intro lossless
    rw [lossless.entries, ← List.length_map] at length
    rw [← List.dedup_eq_self]
    exact (List.dedup_sublist _).eq_of_length length.symm
  · intro distinct
    refine ⟨by rw [length, distinct.dedup, List.length_map], joinedPath, ?_, distinct⟩
    intro leaf mem
    rw [get_flattenObject_joinedPath plain, lastUnder_eq_some_iff]
    rcases List.append_of_mem mem with ⟨before, after, split⟩
    refine ⟨leaf, ⟨before, after, split, rfl, ?_⟩, rfl⟩
    intro other other_mem same
    rw [split, List.map_append, List.map_cons, List.nodup_append] at distinct
    have fresh := (List.nodup_cons.mp distinct.2.1).1
    rw [← same] at fresh
    exact fresh (List.mem_map_of_mem other_mem)

end Shared

/-- Leaves share a key exactly when they share a joined path, and the last of them stays:
there are as many entries as joined paths, and no leaf is lost exactly when the joined
paths are distinct. -/
theorem flattenObject_shares {J : SerdeJson} {obj : Map}
    (plain : ∀ leaf ∈ leavesOf obj, ¬ LeadingEmpty leaf.1) :
    (∀ key value, (flattenObject J obj "_").get key = some value ↔
      ∃ leaf, IsLastUnder joinedPath (leavesOf obj) key leaf ∧ value = storedLeaf J leaf.2) ∧
    (flattenObject J obj "_").length =
      ((leavesOf obj).map fun leaf => joinedPath leaf.1).dedup.length ∧
    (LosesNoLeaf J obj ↔ ((leavesOf obj).map fun leaf => joinedPath leaf.1).Nodup) := by
  refine ⟨?_, length_flattenObject plain, losesNoLeaf_iff plain⟩
  intro key value
  rw [get_flattenObject_joinedPath plain]
  exact lastUnder_eq_some_iff

/-- Of three leaves with two joined paths one is lost. -/
theorem flattenObject_shares_two_paths :
    (flattenObject .sample
        [("a", .object [("b", .number (.posInt 1)), ("c", .number (.posInt 2))]),
          ("a_b", .number (.posInt 3))] "_").length = 2 ∧
      ¬ LosesNoLeaf .sample
        [("a", .object [("b", .number (.posInt 1)), ("c", .number (.posInt 2))]),
          ("a_b", .number (.posInt 3))] := by
  have plain : ∀ leaf ∈ leavesOf
      [("a", .object [("b", .number (.posInt 1)), ("c", .number (.posInt 2))]),
        ("a_b", .number (.posInt 3))], ¬ LeadingEmpty leaf.1 := by
    rintro leaf (_ | ⟨_, _ | ⟨_, _ | ⟨_, ⟨⟩⟩⟩⟩) <;> decide
  have shares := (flattenObject_shares (J := .sample) plain).2
  refine ⟨shares.1, ?_⟩
  rw [shares.2]
  decide

/-- A nested leaf is overwritten by a member whose key is its joined path. -/
theorem joined_path_overwritten :
    Map.Sorted [("a", .object [("b", .number (.posInt 1))]), ("a_b", .number (.posInt 2))] ∧
      flattenObject .sample
          [("a", .object [("b", .number (.posInt 1))]), ("a_b", .number (.posInt 2))] "_" =
        [("a_b", .number (.posInt 2))] ∧
      ¬ LosesNoLeaf .sample
        [("a", .object [("b", .number (.posInt 1))]), ("a_b", .number (.posInt 2))] := by
  have flattened : flattenObject .sample
      [("a", .object [("b", .number (.posInt 1))]), ("a_b", .number (.posInt 2))] "_" =
        [("a_b", .number (.posInt 2))] := by
    rfl
  refine ⟨?_, flattened, ?_⟩
  · simp only [Map.Sorted]
    decide
  · intro lossless
    have entries := lossless.entries
    rw [flattened] at entries
    cases entries

end Parq.Flatten
