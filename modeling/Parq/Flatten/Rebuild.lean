import Parq.Flatten.Names

/-!
# Rebuilding a nested object

When no key is empty or contains an underscore, the name of a leaf tells its path.  The
nested object is known from the values at its paths, up to sub-objects without a leaf, so
writing the leaves back at their paths restores it.
-/

namespace Parq.Flatten

open Parq.Data
open Parq.Sequence

/-! ## Values at paths -/

/-- The value at a path that is not an object. -/
def leafAt : (path : List String) → (obj : Map) → Option Value
  | [], _ => none
  | key :: path, obj =>
      match obj.get key with
      | some (.object nested) => leafAt path nested
      | found => if path = [] then found else none

/-- The object in which the path below a key continues. -/
def subObject (obj : Map) (key : String) : Map :=
  match obj.get key with
  | some (.object nested) => nested
  | _ => []

/-- Put a value at a path, with objects on the way. -/
def insertAt : (path : List String) → (value : Value) → (obj : Map) → Map
  | [], _, obj => obj
  | [key], value, obj => obj.insert key value
  | key :: next :: path, value, obj =>
      obj.insert key (.object (insertAt (next :: path) value (subObject obj key)))

/-- Neither path is a beginning of the other. -/
def Apart (path other : List String) : Prop :=
  ¬ path <+: other ∧ ¬ other <+: path

section Paths

variable {obj nested : Map} {key : String} {path : List String} {value : Value}

@[simp]
theorem leafAt_nil_path (obj : Map) : leafAt [] obj = none :=
  rfl

@[simp]
theorem leafAt_nil (path : List String) : leafAt path [] = none := by
  cases path with
  | nil => rfl
  | cons key path => simp [leafAt]

theorem leafAt_of_object (found : obj.get key = some (.object nested)) :
    leafAt (key :: path) obj = leafAt path nested := by
  rw [leafAt, found]

theorem leafAt_of_flat (flat : ∀ nested, obj.get key ≠ some (.object nested)) :
    leafAt (key :: path) obj = if path = [] then obj.get key else none := by
  rw [leafAt]
  split
  · exact absurd ‹_› (flat _)
  · rfl

/-- What is at a path depends on the member of its first key only. -/
theorem leafAt_congr {other : Map} (same : obj.get key = other.get key) :
    leafAt (key :: path) obj = leafAt (key :: path) other := by
  rw [leafAt, leafAt, same]

theorem ne_object_of_leafAt (found : leafAt path obj = some value) (nested : Map) :
    value ≠ .object nested := by
  induction path generalizing obj with
  | nil => cases found
  | cons key path ih =>
      rw [leafAt] at found
      split at found
      · exact ih found
      · rename_i flat
        split at found
        · rintro rfl
          exact flat nested found
        · cases found

theorem leafAt_cons_cons (obj : Map) (key next : String) (path : List String) :
    leafAt (key :: next :: path) obj = leafAt (next :: path) (subObject obj key) := by
  rw [leafAt, subObject]
  split
  · rfl
  · simp

/-- No path to a value continues to another value. -/
theorem eq_of_leafAt_starts {other : List String} (found : (leafAt path obj).isSome)
    (found' : (leafAt other obj).isSome) (longer : path <+: other) : path = other := by
  induction path generalizing obj other with
  | nil => cases found
  | cons key path ih =>
      rcases longer with ⟨rest, rfl⟩
      rw [List.cons_append] at found' ⊢
      by_cases nested : ∃ nested, obj.get key = some (.object nested)
      · rcases nested with ⟨nested, member⟩
        rw [leafAt_of_object member] at found found'
        rw [← ih found found' (List.prefix_append path rest)]
      · rw [not_exists] at nested
        rw [leafAt_of_flat nested] at found found'
        split at found'
        · rename_i empty
          rw [(List.append_eq_nil_iff.mp empty).2, List.append_nil]
        · cases found'

theorem Apart.tail {rest : List String} (apart : Apart (key :: path) (key :: rest)) :
    Apart path rest := by
  rw [Apart, List.prefix_cons_inj, List.prefix_cons_inj] at apart
  exact apart

theorem get_insertAt_of_ne {own : String} (different : own ≠ key) :
    (insertAt (key :: path) value obj).get own = obj.get own := by
  cases path <;> rw [insertAt, Map.get_insert, if_neg different]

theorem get_insertAt_last (obj : Map) (key : String) (value : Value) :
    (insertAt [key] value obj).get key = some value := by
  rw [insertAt, Map.get_insert, if_pos rfl]

theorem get_insertAt_more (obj : Map) (key next : String) (path : List String) (value : Value) :
    (insertAt (key :: next :: path) value obj).get key =
      some (.object (insertAt (next :: path) value (subObject obj key))) := by
  rw [insertAt, Map.get_insert, if_pos rfl]

/-- No path apart from the target continues it or is continued by it. -/
theorem leafAt_eq_none_of_apart {target : List String}
    (apart : ∀ path, (leafAt path obj).isSome → Apart path target)
    (comparable : path <+: target ∨ target <+: path) : leafAt path obj = none := by
  rw [← Option.not_isSome_iff_eq_none]
  intro present
  exact comparable.elim (apart path present).1 (apart path present).2

/-- Putting a value at a path apart from the others leaves what is at these. -/
theorem leafAt_insertAt {target : List String} (nonempty : target ≠ [])
    (leaf : ∀ nested, value ≠ .object nested)
    (apart : ∀ path, (leafAt path obj).isSome → Apart path target) (path : List String) :
    leafAt path (insertAt target value obj) =
      if path = target then some value else leafAt path obj := by
  induction target generalizing obj path with
  | nil => exact absurd rfl nonempty
  | cons key target ih =>
      cases path with
      | nil => simp
      | cons own path =>
          by_cases same : own = key
          · subst same
            cases target with
            | nil =>
                have found := get_insertAt_last obj own value
                have flat : ∀ nested,
                    (insertAt [own] value obj).get own ≠ some (.object nested) := by
                  intro nested
                  rw [found, Ne, Option.some.injEq]
                  exact leaf nested
                rw [leafAt_of_flat flat, found]
                by_cases last : path = []
                · simp [last]
                · have free : leafAt (own :: path) obj = none :=
                    leafAt_eq_none_of_apart apart (.inr ⟨path, rfl⟩)
                  simp [last, free]
            | cons next rest =>
                have below : ∀ path, (leafAt path (subObject obj own)).isSome →
                    Apart path (next :: rest) := by
                  intro other present
                  cases other with
                  | nil => cases present
                  | cons first other =>
                      rw [← leafAt_cons_cons] at present
                      exact (apart _ present).tail
                rw [leafAt_of_object (get_insertAt_more obj own next rest value),
                  ih (List.cons_ne_nil _ _) below]
                cases path with
                | nil =>
                    have free : leafAt [own] obj = none :=
                      leafAt_eq_none_of_apart apart (.inl ⟨next :: rest, rfl⟩)
                    simp [free]
                | cons first path => simp [leafAt_cons_cons]
          · rw [leafAt_congr (get_insertAt_of_ne same), if_neg (by simp [same])]

end Paths

/-! ## Objects without empty sub-objects -/

/-- An object in key order, without an empty object below it. -/
inductive Tidy : Map → Prop
  | mk {obj : Map} (sorted : obj.Sorted)
      (filled : ∀ key nested, obj.get key = some (.object nested) → nested ≠ [])
      (below : ∀ key nested, obj.get key = some (.object nested) → Tidy nested) : Tidy obj

section Tidy

variable {obj : Map}

theorem tidy_nil : Tidy [] :=
  .mk List.Pairwise.nil (by simp) (by simp)

theorem Tidy.sorted (tidy : Tidy obj) : obj.Sorted := by
  cases tidy with
  | mk sorted _ _ => exact sorted

theorem Tidy.filled (tidy : Tidy obj) {key : String} {nested : Map}
    (member : obj.get key = some (.object nested)) : nested ≠ [] := by
  cases tidy with
  | mk _ filled _ => exact filled key nested member

theorem Tidy.child (tidy : Tidy obj) {key : String} {nested : Map}
    (member : obj.get key = some (.object nested)) : Tidy nested := by
  cases tidy with
  | mk _ _ below => exact below key nested member

theorem Tidy.subObject (tidy : Tidy obj) (key : String) : Tidy (subObject obj key) := by
  unfold Flatten.subObject
  split
  · exact tidy.child ‹_›
  · exact tidy_nil

/-- Every object that is not empty has a value at some path. -/
theorem Tidy.exists_leafAt (tidy : Tidy obj) (nonempty : obj ≠ []) :
    ∃ path, (leafAt path obj).isSome := by
  induction tidy with
  | @mk obj sorted filled below ih =>
      rcases List.exists_cons_of_ne_nil nonempty with ⟨⟨key, value⟩, rest, rfl⟩
      have member : Map.get ((key, value) :: rest) key = some value :=
        (Map.get_eq_some_iff sorted).mpr List.mem_cons_self
      cases value with
      | object nested =>
          rcases ih key nested member (filled key nested member) with ⟨path, present⟩
          refine ⟨key :: path, ?_⟩
          rwa [leafAt_of_object member]
      | _ =>
          refine ⟨[key], ?_⟩
          rw [leafAt, member]
          rfl

/-- An object below a key shows at the paths through the key. -/
theorem exists_object {other nested : Map} {key : String}
    (member : obj.get key = some (.object nested)) (filled : nested ≠ []) (tidy : Tidy nested)
    (same : ∀ path, leafAt path obj = leafAt path other) :
    ∃ nested', other.get key = some (.object nested') := by
  rcases tidy.exists_leafAt filled with ⟨path, present⟩
  rw [← leafAt_of_object member, same] at present
  by_contra flat
  rw [not_exists] at flat
  rw [leafAt_of_flat flat] at present
  split at present
  · rename_i empty
    have alone := same [key]
    rw [leafAt_of_object member, leafAt_of_flat flat, leafAt_nil_path, if_pos rfl] at alone
    rw [← alone] at present
    cases present
  · cases present

/-- An object is known from the values at its paths. -/
theorem Tidy.ext (tidy : Tidy obj) {other : Map} (tidy' : Tidy other)
    (same : ∀ path, leafAt path obj = leafAt path other) : obj = other := by
  induction tidy generalizing other with
  | @mk obj sorted filled below ih =>
      apply eq_of_lookup_eq sorted tidy'.sorted
      intro key
      change obj.get key = other.get key
      by_cases nests : ∃ nested, obj.get key = some (.object nested)
      · rcases nests with ⟨nested, member⟩
        obtain ⟨nested', member'⟩ :=
          exists_object member (filled key nested member) (below key nested member) same
        have paths : ∀ path, leafAt path nested = leafAt path nested' := by
          intro path
          rw [← leafAt_of_object member, same, leafAt_of_object member']
        rw [member, member', ih key nested member (tidy'.child member') paths]
      · rw [not_exists] at nests
        have flat : ∀ nested', other.get key ≠ some (.object nested') := by
          intro nested' member'
          obtain ⟨nested, member⟩ := exists_object member' (tidy'.filled member')
            (tidy'.child member') fun path => (same path).symm
          exact nests nested member
        have alone := same [key]
        rwa [leafAt_of_flat nests, leafAt_of_flat flat, if_pos rfl, if_pos rfl] at alone

theorem Tidy.insert (tidy : Tidy obj) (key : String) {value : Value}
    (filled : ∀ nested, value = .object nested → nested ≠ [])
    (below : ∀ nested, value = .object nested → Tidy nested) : Tidy (obj.insert key value) := by
  refine .mk (pairwise_insertKey tidy.sorted) ?_ ?_
  all_goals
    intro own nested member
    rw [Map.get_insert] at member
    split at member
  · exact filled nested (Option.some.inj member)
  · exact tidy.filled member
  · exact below nested (Option.some.inj member)
  · exact tidy.child member

theorem insertAt_ne_nil {target : List String} (nonempty : target ≠ []) (value : Value)
    (obj : Map) :
    insertAt target value obj ≠ [] := by
  intro empty
  rcases target with _ | ⟨key, _ | ⟨next, path⟩⟩
  · exact nonempty rfl
  · have found := get_insertAt_last obj key value
    rw [empty] at found
    cases found
  · have found := get_insertAt_more obj key next path value
    rw [empty] at found
    cases found

/-- Putting a value that is not an object keeps an object tidy. -/
theorem Tidy.insertAt (tidy : Tidy obj) (target : List String) {value : Value}
    (leaf : ∀ nested, value ≠ .object nested) : Tidy (insertAt target value obj) := by
  induction target generalizing obj with
  | nil => exact tidy
  | cons key target ih =>
      cases target with
      | nil =>
          exact tidy.insert key (fun nested same => absurd same (leaf nested))
            fun nested same => absurd same (leaf nested)
      | cons next path =>
          apply tidy.insert key
          · rintro nested ⟨rfl⟩
            exact insertAt_ne_nil (List.cons_ne_nil next path) value _
          · rintro nested ⟨rfl⟩
            exact ih (tidy.subObject key)

end Tidy

/-! ## Putting many values at their paths -/

/-- Put all values at their paths, one after another. -/
def insertPaths (entries : List (List String × Value)) : Map :=
  entries.foldl (fun obj entry => insertAt entry.1 entry.2 obj) []

theorem insertPaths_concat (entries : List (List String × Value)) (entry : List String × Value) :
    insertPaths (entries ++ [entry]) = insertAt entry.1 entry.2 (insertPaths entries) := by
  rw [insertPaths, List.foldl_append]
  rfl

section InsertPaths

variable {entries : List (List String × Value)}

theorem tidy_insertPaths (leaves : ∀ entry ∈ entries, ∀ nested, entry.2 ≠ .object nested) :
    Tidy (insertPaths entries) := by
  induction entries using List.reverseRecOn with
  | nil => exact tidy_nil
  | append_singleton entries entry ih =>
      rw [insertPaths_concat]
      apply Tidy.insertAt
      · exact ih fun other mem => leaves other (List.mem_append_left _ mem)
      · exact leaves entry (List.mem_append_right _ List.mem_cons_self)

/-- When the paths are apart, each of them holds its value and nothing else is there. -/
theorem leafAt_insertPaths (nonempty : ∀ entry ∈ entries, entry.1 ≠ [])
    (leaves : ∀ entry ∈ entries, ∀ nested, entry.2 ≠ .object nested)
    (apart : entries.Pairwise fun entry other => Apart entry.1 other.1) {path : List String}
    {value : Value} : leafAt path (insertPaths entries) = some value ↔ (path, value) ∈ entries := by
  induction entries using List.reverseRecOn generalizing path value with
  | nil => simp [insertPaths]
  | append_singleton entries entry ih =>
      simp only [List.mem_append, List.mem_singleton, or_imp, forall_and, forall_eq]
        at nonempty leaves
      rw [List.pairwise_append] at apart
      have earlier {path : List String} {value : Value} :
          leafAt path (insertPaths entries) = some value ↔ (path, value) ∈ entries :=
        ih nonempty.1 leaves.1 apart.1
      have free : ∀ path, (leafAt path (insertPaths entries)).isSome → Apart path entry.1 := by
        intro path present
        rcases Option.isSome_iff_exists.mp present with ⟨value, found⟩
        exact apart.2.2 (path, value) (earlier.mp found) entry (List.mem_singleton_self entry)
      rw [insertPaths_concat, leafAt_insertAt nonempty.2 leaves.2 free, List.mem_append,
        List.mem_singleton, ← earlier]
      split
      · rename_i here
        subst here
        have absent : leafAt entry.1 (insertPaths entries) = none :=
          leafAt_eq_none_of_apart free (.inl (List.prefix_refl _))
        rw [absent, Option.some.injEq]
        constructor
        · rintro rfl
          exact .inr rfl
        · rintro (contradicted | same)
          · cases contradicted
          · exact (congrArg Prod.snd same).symm
      · rename_i elsewhere
        rw [or_iff_left]
        rintro rfl
        exact elsewhere rfl

end InsertPaths

/-! ## Names and paths -/

/-- A key that is not empty and has no underscore. -/
def CleanKey (key : String) : Prop :=
  key ≠ "" ∧ '_' ∉ key.toList

/-- All keys of an object and of the objects below it are clean. -/
inductive CleanKeys : Map → Prop
  | mk {obj : Map} (own : ∀ key ∈ obj.map Prod.fst, CleanKey key)
      (below : ∀ key nested, (key, .object nested) ∈ obj → CleanKeys nested) : CleanKeys obj

/-- The components of a name. -/
def splitKey (name : String) : List String :=
  (name.toList.splitOn '_').map String.ofList

/-- Put the value of each entry at the path that its name splits into. -/
def rebuild (flat : Map) : Map :=
  insertPaths (flat.map fun entry => (splitKey entry.1, entry.2))

theorem splitKey_joinedPath {path : List String} (nonempty : path ≠ [])
    (clean : ∀ key ∈ path, CleanKey key) : splitKey (joinedPath path) = path := by
  have free : ∀ chars ∈ path.map String.toList, '_' ∉ chars := by
    intro chars mem
    rcases List.mem_map.mp mem with ⟨key, key_mem, rfl⟩
    exact (clean key key_mem).2
  have split := List.splitOn_intercalate '_' free (by simpa using nonempty)
  rw [splitKey, joinedPath, String.toList_intercalate]
  change ((['_'].intercalate (path.map String.toList)).splitOn '_').map String.ofList = path
  rw [split, List.map_map]
  conv_rhs => rw [← List.map_id path]
  apply List.map_congr_left
  intro key _
  exact String.ofList_toList

section Clean

variable {obj : Map} {path : List String}

theorem clean_of_leafAt (clean : CleanKeys obj) (present : (leafAt path obj).isSome) :
    ∀ key ∈ path, CleanKey key := by
  induction path generalizing obj with
  | nil => exact List.forall_mem_nil _
  | cons key path ih =>
      cases clean with
      | mk own below =>
          rw [List.forall_mem_cons]
          by_cases nests : ∃ nested, obj.get key = some (.object nested)
          · rcases nests with ⟨nested, member⟩
            have mem := mem_of_lookup_eq_some member
            rw [leafAt_of_object member] at present
            exact ⟨own key (List.mem_map_of_mem mem), ih (below key nested mem) present⟩
          · rw [not_exists] at nests
            rw [leafAt_of_flat nests] at present
            split at present
            · rename_i last
              rcases Option.isSome_iff_exists.mp present with ⟨value, member⟩
              rw [last]
              exact ⟨own key (List.mem_map_of_mem (mem_of_lookup_eq_some member)),
                List.forall_mem_nil _⟩
            · cases present

theorem sorted_of_mem {members : List (String × Value)} (sorted : Value.MembersSorted members)
    {key : String} {value : Value} (mem : (key, value) ∈ members) : value.Sorted := by
  induction members with
  | nil => cases mem
  | cons member rest ih =>
      rcases List.mem_cons.mp mem with rfl | later
      · exact sorted.1
      · exact ih sorted.2 later

/-- The leaves of a sorted object are the values at its paths. -/
theorem mem_leavesOf_iff_leafAt (sorted : Value.Sorted (.object obj)) {value : Value} :
    (path, value) ∈ leavesOf obj ↔ leafAt path obj = some value := by
  induction path generalizing obj with
  | nil => simp [mem_leavesOf]
  | cons key path ih =>
      have members : (key :: path, value) ∈ leavesOf obj ↔
          ∃ member, obj.get key = some member ∧ (path, value) ∈ valueLeaves member := by
        rw [mem_leavesOf]
        simp only [Map.get_eq_some_iff sorted.1, Prod.mk.injEq, List.cons.injEq]
        constructor
        · rintro ⟨_, member, mem, _, _, below, ⟨rfl, rfl⟩, rfl⟩
          exact ⟨member, mem, below⟩
        · rintro ⟨member, mem, below⟩
          exact ⟨key, member, mem, path, value, below, ⟨rfl, rfl⟩, rfl⟩
      rw [members]
      cases found : obj.get key with
      | none => simp [leafAt, found]
      | some member =>
          cases member with
          | object nested =>
              have nested_sorted := sorted_of_mem sorted.2 (mem_of_lookup_eq_some found)
              simp [leafAt_of_object found, valueLeaves, ih nested_sorted]
          | _ => by_cases last : path = [] <;> simp [leafAt, found, valueLeaves, last, eq_comm]

end Clean

/-! ## Pruned objects -/

mutual

/-- The object without sub-objects that are empty or become so, and with each array as its
text. -/
def pruned (J : SerdeJson) : (obj : List (String × Value)) → List (String × Value)
  | [] => []
  | member :: rest => prunedMember J member ++ pruned J rest

/-- What is left of one member. -/
def prunedMember (J : SerdeJson) : (member : String × Value) → List (String × Value)
  | (key, value) => (prunedValue J value).toList.map fun left => (key, left)

/-- What is left of a value. -/
def prunedValue (J : SerdeJson) : (value : Value) → Option Value
  | .object nested =>
      match pruned J nested with
      | [] => none
      | members => some (.object members)
  | .array items => some (.string (J.toText (.array items)))
  | value => some value

end

section Pruned

variable {J : SerdeJson} {obj : Map}

theorem prunedValue_object (nested : Map) :
    prunedValue J (.object nested) =
      if pruned J nested = [] then none else some (.object (pruned J nested)) := by
  rw [prunedValue]
  split <;> simp_all

theorem prunedValue_of_flat {value : Value} (flat : ∀ nested, value ≠ .object nested) :
    prunedValue J value = some (storedLeaf J value) := by
  cases value with
  | object nested => exact absurd rfl (flat nested)
  | _ => rfl

theorem storedLeaf_ne_object {value : Value} (flat : ∀ nested, value ≠ .object nested)
    (nested : Map) : storedLeaf J value ≠ .object nested := by
  cases value with
  | object own => exact absurd rfl (flat own)
  | _ => simp [storedLeaf]

theorem keys_pruned_sublist (J : SerdeJson) (obj : Map) :
    ((pruned J obj).map Prod.fst).Sublist (obj.map Prod.fst) := by
  induction obj with
  | nil => exact List.Sublist.slnil
  | cons member rest ih =>
      rcases member with ⟨key, value⟩
      rw [pruned, prunedMember]
      cases prunedValue J value with
      | none => exact ih.cons key
      | some left => exact ih.cons_cons key

theorem get_pruned (sorted : obj.Sorted) (key : String) :
    Map.get (pruned J obj) key = (obj.get key).bind (prunedValue J) := by
  induction obj with
  | nil => rfl
  | cons member rest ih =>
      rcases member with ⟨own, value⟩
      rw [Map.Sorted, List.map_cons, List.pairwise_cons] at sorted
      rw [pruned, prunedMember, Map.get, Map.get, List.lookup_append, lookup_cons_ite]
      change _ = (if key = own then some value else Map.get rest key).bind _
      have behind : (pruned J rest).lookup key = (Map.get rest key).bind (prunedValue J) :=
        ih sorted.2
      rw [behind]
      split
      · rename_i same
        subst same
        have absent : Map.get rest key = none := lookup_eq_none_of_lt sorted.1
        cases left : prunedValue J value <;> simp [left, absent]
      · rename_i different
        cases prunedValue J value <;> simp [lookup_cons_ite, different]

/-- Pruning keeps the values at the paths, as they are stored. -/
theorem leafAt_pruned (sorted : Value.Sorted (.object obj)) (path : List String) :
    leafAt path (pruned J obj) = (leafAt path obj).map (storedLeaf J) := by
  induction path generalizing obj with
  | nil => rfl
  | cons key path ih =>
      have member := get_pruned (J := J) sorted.1 key
      cases found : obj.get key with
      | none =>
          rw [found, Option.bind_none] at member
          simp [leafAt, member, found]
      | some value =>
          rw [found, Option.bind_some] at member
          by_cases nests : ∃ nested, value = .object nested
          · rcases nests with ⟨nested, rfl⟩
            have nested_sorted := sorted_of_mem sorted.2 (mem_of_lookup_eq_some found)
            rw [leafAt_of_object found, ← ih nested_sorted]
            rw [prunedValue_object] at member
            split at member
            · rename_i empty
              simp [leafAt, member, empty]
            · rw [leafAt_of_object member]
          · rw [not_exists] at nests
            rw [prunedValue_of_flat nests] at member
            have flat : ∀ nested, obj.get key ≠ some (.object nested) := by
              intro nested
              rw [found, Ne, Option.some.injEq]
              exact nests nested
            have flat' : ∀ nested, Map.get (pruned J obj) key ≠ some (.object nested) := by
              intro nested
              rw [member, Ne, Option.some.injEq]
              exact storedLeaf_ne_object nests nested
            rw [leafAt_of_flat flat, leafAt_of_flat flat', member, found]
            split <;> rfl

end Pruned

theorem tidy_of_members {obj : Map} (sorted : obj.Sorted)
    (members : ∀ key nested, (key, Value.object nested) ∈ obj → nested ≠ [] ∧ Tidy nested) :
    Tidy obj :=
  .mk sorted (fun key nested member => (members key nested (mem_of_lookup_eq_some member)).1)
    fun key nested member => (members key nested (mem_of_lookup_eq_some member)).2

mutual

theorem tidy_of_mem_pruned (J : SerdeJson) : ∀ (obj : List (String × Value)),
    Value.MembersSorted obj → ∀ {key : String} {nested : Map},
      (key, Value.object nested) ∈ pruned J obj → nested ≠ [] ∧ Tidy nested
  | [], _, _, _, mem => by cases mem
  | member :: rest, sorted, _, _, mem => by
      rw [pruned, List.mem_append] at mem
      exact mem.elim (tidy_of_mem_prunedMember J member sorted.1)
        (tidy_of_mem_pruned J rest sorted.2)

theorem tidy_of_mem_prunedMember (J : SerdeJson) : ∀ (member : String × Value),
    Value.MemberSorted member → ∀ {key : String} {nested : Map},
      (key, Value.object nested) ∈ prunedMember J member → nested ≠ [] ∧ Tidy nested
  | (own, value), sorted, _, _, mem => by
      rw [prunedMember, List.mem_map] at mem
      rcases mem with ⟨left, left_mem, same⟩
      rcases Prod.mk.inj same with ⟨rfl, rfl⟩
      exact tidy_of_prunedValue J value sorted (Option.mem_toList.mp left_mem)

theorem tidy_of_prunedValue (J : SerdeJson) : ∀ (value : Value), value.Sorted → ∀ {nested : Map},
    prunedValue J value = some (.object nested) → nested ≠ [] ∧ Tidy nested
  | .object own, sorted, nested, left => by
      rw [prunedValue_object] at left
      split at left
      · cases left
      · rename_i filled
        cases left
        exact ⟨filled, tidy_of_members (sorted.1.sublist (keys_pruned_sublist J own))
          fun _ _ mem => tidy_of_mem_pruned J own sorted.2 mem⟩
  | .array _, _, _, left => by cases left
  | .null, _, _, left => by cases left
  | .bool _, _, _, left => by cases left
  | .number _, _, _, left => by cases left
  | .string _, _, _, left => by cases left

end

theorem tidy_pruned (J : SerdeJson) {obj : Map} (sorted : Value.Sorted (.object obj)) :
    Tidy (pruned J obj) :=
  tidy_of_members (sorted.1.sublist (keys_pruned_sublist J obj))
    fun _ _ mem => tidy_of_mem_pruned J obj sorted.2 mem

/-! ## The round trip -/

theorem ne_nil_of_leafAt {obj : Map} {path : List String} (present : (leafAt path obj).isSome) :
    path ≠ [] := by
  rintro rfl
  cases present

section RoundTrip

variable {J : SerdeJson} {obj : Map}

/-- The name of a path in a clean object tells the path. -/
theorem splitKey_of_leafAt (clean : CleanKeys obj) {path : List String}
    (present : (leafAt path obj).isSome) : splitKey (joinedPath path) = path :=
  splitKey_joinedPath (ne_nil_of_leafAt present) (clean_of_leafAt clean present)

theorem plain_of_clean (sorted : Value.Sorted (.object obj)) (clean : CleanKeys obj) :
    ∀ leaf ∈ leavesOf obj, ¬ LeadingEmpty leaf.1 := by
  rintro ⟨path, value⟩ mem ⟨next, rest, split⟩
  have found := (mem_leavesOf_iff_leafAt sorted).mp mem
  have keys := clean_of_leafAt clean (Option.isSome_of_eq_some found)
  change path = _ at split
  subst split
  exact (keys "" List.mem_cons_self).1 rfl

variable (sorted : Value.Sorted (.object obj)) (clean : CleanKeys obj)

include sorted clean

/-- The entries of a flattened object are the values at its paths. -/
theorem mem_flattenObject_iff {name : String} {value : Value} :
    (name, value) ∈ flattenObject J obj "_" ↔
      ∃ path leaf, leafAt path obj = some leaf ∧ name = joinedPath path ∧
        value = storedLeaf J leaf := by
  rw [← Map.get_eq_some_iff (sorted_flattenObject J "_" obj),
    get_flattenObject_joinedPath (plain_of_clean sorted clean)]
  constructor
  · intro last
    obtain ⟨⟨path, leaf⟩, ⟨before, after, split, named, _⟩, stored⟩ := lastUnder_eq_some_iff.mp last
    have mem : (path, leaf) ∈ leavesOf obj := by simp [split]
    exact ⟨path, leaf, (mem_leavesOf_iff_leafAt sorted).mp mem, named.symm, stored⟩
  · rintro ⟨path, leaf, found, rfl, rfl⟩
    have mem := (mem_leavesOf_iff_leafAt sorted).mpr found
    cases last : lastUnder J joinedPath (leavesOf obj) (joinedPath path) with
    | none => exact absurd rfl (lastUnder_eq_none_iff.mp last (path, leaf) mem)
    | some value =>
        obtain ⟨⟨other, leaf'⟩, ⟨before, after, split, named, _⟩, rfl⟩ :=
          lastUnder_eq_some_iff.mp last
        have mem' : (other, leaf') ∈ leavesOf obj := by simp [split]
        have found' := (mem_leavesOf_iff_leafAt sorted).mp mem'
        have same : other = path := by
          have tells := splitKey_of_leafAt clean (Option.isSome_of_eq_some found')
          dsimp only at named
          rw [← tells, named, splitKey_of_leafAt clean (Option.isSome_of_eq_some found)]
        subst same
        rw [found, Option.some.injEq] at found'
        rw [found']

/-- No path of an entry is the beginning of the path of another one. -/
theorem eq_of_splitKey_starts {entry other : String × Value}
    (mem : entry ∈ flattenObject J obj "_") (mem' : other ∈ flattenObject J obj "_")
    (longer : splitKey entry.1 <+: splitKey other.1) : entry = other := by
  rcases entry with ⟨name, value⟩
  rcases other with ⟨name', value'⟩
  rcases (mem_flattenObject_iff sorted clean).mp mem with ⟨path, leaf, found, rfl, rfl⟩
  rcases (mem_flattenObject_iff sorted clean).mp mem' with ⟨path', leaf', found', rfl, rfl⟩
  have present : (leafAt path obj).isSome := Option.isSome_of_eq_some found
  have present' : (leafAt path' obj).isSome := Option.isSome_of_eq_some found'
  dsimp only at longer
  rw [splitKey_of_leafAt clean present, splitKey_of_leafAt clean present'] at longer
  obtain rfl := eq_of_leafAt_starts present present' longer
  rw [found, Option.some.injEq] at found'
  rw [found']

/-- The rebuilt object has the values of the flattened one at its paths. -/
theorem leafAt_rebuild (path : List String) :
    leafAt path (rebuild (flattenObject J obj "_")) = (leafAt path obj).map (storedLeaf J) := by
  have entries {entry : String × Value} (mem : entry ∈ flattenObject J obj "_") :
      splitKey entry.1 ≠ [] ∧ ∀ nested, entry.2 ≠ .object nested := by
    rcases (mem_flattenObject_iff sorted clean).mp mem with ⟨path, leaf, found, named, stored⟩
    have present : (leafAt path obj).isSome := Option.isSome_of_eq_some found
    rw [named, stored, splitKey_of_leafAt clean present]
    exact ⟨ne_nil_of_leafAt present, storedLeaf_ne_object (ne_object_of_leafAt found)⟩
  have apart : ((flattenObject J obj "_").map fun entry => (splitKey entry.1, entry.2)).Pairwise
      fun entry other => Apart entry.1 other.1 := by
    rw [List.pairwise_map]
    refine List.Pairwise.imp_of_mem ?_ (nodup_keys_flattenObject J "_" obj).of_map
    intro entry other mem mem' different
    exact ⟨fun longer => different (eq_of_splitKey_starts sorted clean mem mem' longer),
      fun longer => different (eq_of_splitKey_starts sorted clean mem' mem longer).symm⟩
  apply Option.ext
  intro value
  rw [rebuild, leafAt_insertPaths (List.forall_mem_map.mpr fun entry mem => (entries mem).1)
    (List.forall_mem_map.mpr fun entry mem => (entries mem).2) apart, Option.map_eq_some_iff,
    List.mem_map]
  constructor
  · rintro ⟨⟨name, stored⟩, mem, same⟩
    rcases (mem_flattenObject_iff sorted clean).mp mem with ⟨own, leaf, found, rfl, rfl⟩
    rcases Prod.mk.inj same with ⟨path_eq, rfl⟩
    rw [splitKey_of_leafAt clean (Option.isSome_of_eq_some found)] at path_eq
    exact ⟨leaf, path_eq ▸ found, rfl⟩
  · rintro ⟨leaf, found, rfl⟩
    refine ⟨(joinedPath path, storedLeaf J leaf), ?_, ?_⟩
    · exact (mem_flattenObject_iff sorted clean).mpr ⟨path, leaf, found, rfl, rfl⟩
    · rw [splitKey_of_leafAt clean (Option.isSome_of_eq_some found)]

end RoundTrip

/-- When all keys are clean, splitting the names of a flattened object and putting its values
at the paths restores the object, without its empty sub-objects and with each array as its
text.  No path is the beginning of another one, or the same. -/
theorem rebuild_flattenObject (J : SerdeJson) {obj : Map} (sorted : Value.Sorted (.object obj))
    (clean : CleanKeys obj) :
    rebuild (flattenObject J obj "_") = pruned J obj ∧
      ∀ entry ∈ flattenObject J obj "_", ∀ other ∈ flattenObject J obj "_",
        splitKey entry.1 <+: splitKey other.1 → entry = other := by
  refine ⟨?_, fun entry mem other mem' => eq_of_splitKey_starts sorted clean mem mem'⟩
  have tidy : Tidy (rebuild (flattenObject J obj "_")) := by
    apply tidy_insertPaths
    rw [List.forall_mem_map]
    intro entry mem
    rcases (mem_flattenObject_iff sorted clean).mp mem with ⟨path, leaf, found, _, stored⟩
    rw [stored]
    exact storedLeaf_ne_object (ne_object_of_leafAt found)
  apply tidy.ext (tidy_pruned J sorted)
  intro path
  rw [leafAt_rebuild sorted clean, leafAt_pruned sorted]

theorem rebuild_flattenObject_nested :
    rebuild (flattenObject .sample
        [("a", .object [("b", .number (.posInt 1)), ("c", .object [])])] "_") =
      [("a", .object [("b", .number (.posInt 1))])] := by
  have sorted : Value.Sorted
      (.object [("a", .object [("b", .number (.posInt 1)), ("c", .object [])])]) := by
    decide
  have clean_nil : CleanKeys [] := .mk (List.forall_mem_nil _) (by simp)
  have clean_below : CleanKeys [("b", .number (.posInt 1)), ("c", .object [])] :=
    .mk (by simp [CleanKey]) (by simp [clean_nil])
  have clean : CleanKeys [("a", .object [("b", .number (.posInt 1)), ("c", .object [])])] :=
    .mk (by simp [CleanKey]) (by simp [clean_below])
  exact (rebuild_flattenObject .sample sorted clean).1

end Parq.Flatten
