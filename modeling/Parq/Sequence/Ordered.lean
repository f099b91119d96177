import Mathlib.Data.List.Induction
import Mathlib.Order.Lattice

/-!
# Ordered association lists

A finite map kept as the list of its entries in the order of their keys.
`insertKey` replaces the value of a key that is present and otherwise puts the
entry at its place; it is the only way entries are added.  A map with increasing keys
is determined by what it looks up.
-/

namespace Parq.Sequence

universe u v

theorem mem_of_lookup_eq_some {κ : Type u} {β : Type v} [BEq κ] [LawfulBEq κ] {key : κ} {value : β}
    {entries : List (κ × β)} (found : entries.lookup key = some value) :
    (key, value) ∈ entries := by
  rcases List.lookup_eq_some_iff.mp found with ⟨before, after, split, _⟩
  simp [split]

section Insert

variable {κ : Type u} {β : Type v} [LT κ] [DecidableLT κ] [DecidableEq κ]

/-- Insert an entry at the place of its key, replacing a value already there. -/
def insertKey (key : κ) (value : β) : List (κ × β) → List (κ × β)
  | [] => [(key, value)]
  | (other, old) :: rest =>
      if key < other then (key, value) :: (other, old) :: rest
      else if key = other then (key, value) :: rest
      else (other, old) :: insertKey key value rest

omit [LT κ] [DecidableLT κ] in
theorem lookup_cons_ite (key query : κ) (value : β) (rest : List (κ × β)) :
    ((key, value) :: rest).lookup query =
      if query = key then some value else rest.lookup query := by
  by_cases same : query = key
  · simp [same]
  · rw [List.lookup_cons, beq_eq_false_iff_ne.mpr same, if_neg same]

/-- After an insertion the key has the new value and every other key its old
one. -/
theorem lookup_insertKey (key query : κ) (value : β) (entries : List (κ × β)) :
    (insertKey key value entries).lookup query =
      if query = key then some value else entries.lookup query := by
  induction entries with
  | nil => simp [insertKey, lookup_cons_ite]
  | cons entry rest ih =>
      rcases entry with ⟨other, old⟩
      unfold insertKey
      split
      · rw [lookup_cons_ite]
      · split
        · rename_i _ equal
          subst other
          by_cases same : query = key <;> simp [lookup_cons_ite, same]
        · rename_i _ different
          simp only [lookup_cons_ite, ih]
          by_cases here : query = other
          · subst other
            simp [Ne.symm different]
          · simp [here]

/-- An insertion adds no entry but its own. -/
theorem mem_of_mem_insertKey {key : κ} {value : β} {entry : κ × β} {entries : List (κ × β)}
    (mem : entry ∈ insertKey key value entries) : entry = (key, value) ∨ entry ∈ entries := by
  induction entries with
  | nil => exact .inl (List.mem_singleton.mp mem)
  | cons first rest ih =>
      rcases first with ⟨other, old⟩
      rw [insertKey] at mem
      split at mem
      · exact List.mem_cons.mp mem
      · split at mem
        · exact (List.mem_cons.mp mem).imp_right (List.mem_cons_of_mem _)
        · rcases List.mem_cons.mp mem with rfl | later
          · exact .inr List.mem_cons_self
          · exact (ih later).imp_right (List.mem_cons_of_mem _)

/-- Insert all entries in turn into the empty map. -/
def collect (entries : List (κ × β)) : List (κ × β) :=
  entries.foldl (fun map entry => insertKey entry.1 entry.2 map) []

/-- A collected map gives each key its last value. -/
theorem lookup_collect (query : κ) (entries : List (κ × β)) :
    (collect entries).lookup query = entries.reverse.lookup query := by
  induction entries using List.reverseRecOn with
  | nil => rfl
  | append_singleton entries entry ih =>
      rw [collect, List.foldl_append, List.reverse_append]
      change (insertKey entry.1 entry.2 (collect entries)).lookup query =
        (entry :: entries.reverse).lookup query
      rw [lookup_insertKey, lookup_cons_ite, ih]

end Insert

/-! ## Increasing keys -/

section Increasing

variable {κ : Type u} {β : Type v} [LinearOrder κ]

theorem mem_keys_insertKey {key query : κ} {value : β} {entries : List (κ × β)} :
    query ∈ (insertKey key value entries).map Prod.fst ↔
      query = key ∨ query ∈ entries.map Prod.fst := by
  induction entries with
  | nil => simp [insertKey]
  | cons entry rest ih =>
      rcases entry with ⟨other, old⟩
      unfold insertKey
      split
      · simp
      · split
        · rename_i _ equal
          subst equal
          simp
        · simp only [List.map_cons, List.mem_cons, ih]
          tauto

/-- An insertion keeps the keys increasing. -/
theorem pairwise_insertKey {key : κ} {value : β} {entries : List (κ × β)}
    (sorted : (entries.map Prod.fst).Pairwise (· < ·)) :
    ((insertKey key value entries).map Prod.fst).Pairwise (· < ·) := by
  induction entries with
  | nil => simp [insertKey]
  | cons entry rest ih =>
      rcases entry with ⟨other, old⟩
      rw [List.map_cons, List.pairwise_cons] at sorted
      unfold insertKey
      split
      · rename_i below
        simp only [List.map_cons, List.pairwise_cons, List.mem_cons]
        refine ⟨?_, sorted⟩
        rintro _ (rfl | later)
        · exact below
        · exact below.trans (sorted.1 _ later)
      · split
        · rename_i _ equal
          subst equal
          exact List.pairwise_cons.mpr sorted
        · rename_i not_below different
          have above : other < key := lt_of_le_of_ne (not_lt.mp not_below) (Ne.symm different)
          rw [List.map_cons, List.pairwise_cons]
          refine ⟨?_, ih sorted.2⟩
          intro query mem
          rcases mem_keys_insertKey.mp mem with rfl | later
          · exact above
          · exact sorted.1 query later

/-- The keys of a collected map are those of its entries. -/
theorem mem_keys_collect {query : κ} {entries : List (κ × β)} :
    query ∈ (collect entries).map Prod.fst ↔ query ∈ entries.map Prod.fst := by
  induction entries using List.reverseRecOn with
  | nil => exact Iff.rfl
  | append_singleton entries entry ih =>
      rw [collect, List.foldl_append, List.map_append, List.mem_append, ← ih]
      change query ∈ (insertKey entry.1 entry.2 (collect entries)).map Prod.fst ↔ _
      rw [mem_keys_insertKey, List.map_singleton, List.mem_singleton, or_comm]

/-- An entry behind all others is inserted at the end. -/
theorem insertKey_of_gt {key : κ} {value : β} {entries : List (κ × β)}
    (above : ∀ query ∈ entries.map Prod.fst, query < key) :
    insertKey key value entries = entries ++ [(key, value)] := by
  induction entries with
  | nil => rfl
  | cons entry rest ih =>
      rcases entry with ⟨other, old⟩
      rw [List.map_cons, List.forall_mem_cons] at above
      rw [insertKey, if_neg (lt_asymm above.1), if_neg above.1.ne', ih above.2, List.cons_append]

/-- Entries in the order of their keys are collected as they are. -/
theorem collect_eq_self {entries : List (κ × β)}
    (sorted : (entries.map Prod.fst).Pairwise (· < ·)) : collect entries = entries := by
  induction entries using List.reverseRecOn with
  | nil => rfl
  | append_singleton entries entry ih =>
      rw [List.map_append, List.pairwise_append] at sorted
      have above : ∀ query ∈ entries.map Prod.fst, query < entry.1 := by
        intro query mem
        exact sorted.2.2 query mem entry.1 (List.mem_singleton_self _)
      calc
        collect (entries ++ [entry]) = insertKey entry.1 entry.2 (collect entries) := by
          rw [collect, List.foldl_append]
          rfl
        _ = entries ++ [entry] := by rw [ih sorted.1, insertKey_of_gt above]

theorem pairwise_collect (entries : List (κ × β)) :
    ((collect entries).map Prod.fst).Pairwise (· < ·) := by
  induction entries using List.reverseRecOn with
  | nil => exact List.Pairwise.nil
  | append_singleton entries entry ih =>
      rw [collect, List.foldl_append]
      exact pairwise_insertKey ih

theorem lookup_eq_none_of_lt {key : κ} {entries : List (κ × β)}
    (below : ∀ query ∈ entries.map Prod.fst, key < query) : entries.lookup key = none := by
  rw [List.lookup_eq_none_iff]
  intro entry mem
  exact bne_iff_ne.mpr (below entry.1 (List.mem_map_of_mem mem)).ne

/-- In an ordered map the head has the least key. -/
theorem head_le_of_lookup {key query : κ} {value found : β} {rest : List (κ × β)}
    (sorted : (((key, value) :: rest).map Prod.fst).Pairwise (· < ·))
    (present : ((key, value) :: rest).lookup query = some found) : key ≤ query := by
  rw [List.map_cons, List.pairwise_cons] at sorted
  rcases List.mem_cons.mp (mem_of_lookup_eq_some present) with here | later
  · exact (congrArg Prod.fst here).ge
  · exact (sorted.1 query (List.mem_map_of_mem later)).le

/-- Two ordered maps that give each key the same value are the same. -/
theorem eq_of_lookup_eq {entries others : List (κ × β)}
    (sorted : (entries.map Prod.fst).Pairwise (· < ·))
    (sorted' : (others.map Prod.fst).Pairwise (· < ·))
    (same : ∀ key, entries.lookup key = others.lookup key) : entries = others := by
  induction entries generalizing others with
  | nil =>
      cases others with
      | nil => rfl
      | cons other others =>
          rcases other with ⟨key, value⟩
          simpa [List.lookup_cons] using same key
  | cons entry entries ih =>
      rcases entry with ⟨key, value⟩
      cases others with
      | nil => simpa [List.lookup_cons] using same key
      | cons other others =>
          rcases other with ⟨key', value'⟩
          have here := same key
          rw [lookup_cons_ite, if_pos rfl] at here
          have there := same key'
          rw [lookup_cons_ite key', if_pos rfl] at there
          obtain rfl : key = key' :=
            le_antisymm (head_le_of_lookup sorted there) (head_le_of_lookup sorted' here.symm)
          rw [lookup_cons_ite, if_pos rfl, Option.some.injEq] at here
          subst here
          rw [List.map_cons, List.pairwise_cons] at sorted sorted'
          rw [ih sorted.2 sorted'.2]
          intro query
          by_cases equal : query = key
          · subst equal
            rw [lookup_eq_none_of_lt sorted.1, lookup_eq_none_of_lt sorted'.1]
          · have rests := same query
            rwa [lookup_cons_ite, lookup_cons_ite, if_neg equal, if_neg equal] at rests

end Increasing

end Parq.Sequence
