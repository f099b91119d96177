import Mathlib.Data.List.DropRight

/-!
# Delimited sequences

A sequence cut at every occurrence of a separator, and the two facts that make
cutting it piecewise harmless: a piece that ends in the separator never divides
a segment, and a terminator after each segment is undone by splitting.  The last
section trims a sequence at both ends.
-/

namespace Parq.Sequence

universe u v

variable {α : Type u} [BEq α] [LawfulBEq α]

/-! ## Pieces that end on a separator -/

/-- A piece after which a delimited sequence may be cut: it is empty or its last
entry is the separator. -/
def Terminated (sep : α) (piece : List α) : Prop :=
  piece = [] ∨ ∃ body, piece = body ++ [sep]

/-- Every piece but the last may be followed by a cut. -/
def Delimited (sep : α) : List (List α) → Prop
  | [] => True
  | [_] => True
  | piece :: next :: rest => Terminated sep piece ∧ Delimited sep (next :: rest)

/-- Selecting segments distributes over a cut after a terminated piece, provided
the selection drops the empty segment that the cut adds. -/
theorem filterMap_splitOn_append {β : Type v} {select : List α → Option β} {sep : α}
    (select_nil : select [] = none) {piece : List α} (terminated : Terminated sep piece)
    (rest : List α) :
    ((piece ++ rest).splitOn sep).filterMap select =
      (piece.splitOn sep).filterMap select ++ (rest.splitOn sep).filterMap select := by
  rcases terminated with rfl | ⟨body, rfl⟩
  · simp [select_nil]
  · have cut : (body ++ [sep] ++ rest).splitOn sep = body.splitOn sep ++ rest.splitOn sep := by
      rw [List.append_assoc, List.singleton_append, List.splitOn_append_cons_self]
    have alone : (body ++ [sep]).splitOn sep = body.splitOn sep ++ [[]] := by
      rw [List.splitOn_append_cons_self, List.splitOn_nil]
    rw [cut, alone]
    simp [select_nil]

/-- Selecting segments of a delimited sequence is selecting them piece by
piece. -/
theorem filterMap_splitOn_flatten {β : Type v} {select : List α → Option β} {sep : α}
    (select_nil : select [] = none) {pieces : List (List α)}
    (delimited : Delimited sep pieces) :
    (pieces.flatten.splitOn sep).filterMap select =
      pieces.flatMap fun piece => (piece.splitOn sep).filterMap select := by
  induction pieces with
  | nil => simp [select_nil]
  | cons piece rest ih =>
      cases rest with
      | nil => simp
      | cons next rest =>
          rw [List.flatten_cons, filterMap_splitOn_append select_nil delimited.1,
            ih delimited.2]
          rfl

/-- A property of the empty segment holds of all segments of a delimited sequence
exactly when it holds of all segments of all pieces. -/
theorem forall_splitOn_flatten_iff {holds : List α → Prop} {sep : α} (holds_nil : holds [])
    {pieces : List (List α)} (delimited : Delimited sep pieces) :
    (∀ segment ∈ pieces.flatten.splitOn sep, holds segment) ↔
      ∀ piece ∈ pieces, ∀ segment ∈ piece.splitOn sep, holds segment := by
  classical
  let offends (segment : List α) : Option (List α) := if holds segment then none else some segment
  calc
    (∀ segment ∈ pieces.flatten.splitOn sep, holds segment) ↔
        (pieces.flatten.splitOn sep).filterMap offends = [] := by
      simp [offends, List.filterMap_eq_nil_iff]
    _ ↔ (pieces.flatMap fun piece => (piece.splitOn sep).filterMap offends) = [] := by
      rw [filterMap_splitOn_flatten (by simp [offends, holds_nil]) delimited]
    _ ↔ ∀ piece ∈ pieces, ∀ segment ∈ piece.splitOn sep, holds segment := by
      simp [offends, List.flatMap_eq_nil_iff, List.filterMap_eq_nil_iff]

/-- The first segment of a delimited sequence is the first segment of one of its pieces. -/
theorem exists_head_splitOn {sep : α} {pieces : List (List α)} (delimited : Delimited sep pieces)
    (nonempty : pieces.flatten ≠ []) :
    ∃ piece ∈ pieces, (piece.splitOn sep).head? = (pieces.flatten.splitOn sep).head? := by
  induction pieces with
  | nil => exact absurd rfl nonempty
  | cons piece rest ih =>
      cases rest with
      | nil => exact ⟨piece, List.mem_cons_self, by simp⟩
      | cons next rest =>
          rcases delimited.1 with rfl | ⟨body, rfl⟩
          · obtain ⟨piece, mem, same⟩ := ih delimited.2 nonempty
            exact ⟨piece, List.mem_cons_of_mem _ mem, same⟩
          · refine ⟨body ++ [sep], List.mem_cons_self, ?_⟩
            obtain ⟨head, tail, split⟩ := List.exists_cons_of_ne_nil (List.splitOn_ne_nil sep body)
            rw [List.flatten_cons, List.append_assoc, List.singleton_append,
              List.splitOn_append_cons_self, List.splitOn_append_cons_self, split]
            rfl

/-- The segments of the first piece of a delimited sequence, other than the empty one that a
cut adds, have the same places in the sequence. -/
theorem getElem?_splitOn_flatten {sep : α} {first : List α} {rest : List (List α)}
    (delimited : Delimited sep (first :: rest)) {k : Nat} {segment : List α}
    (here : (first.splitOn sep)[k]? = some segment) (nonempty : segment ≠ []) :
    ((first :: rest).flatten.splitOn sep)[k]? = some segment := by
  cases rest with
  | nil => simpa using here
  | cons next rest =>
      rcases delimited.1 with rfl | ⟨body, rfl⟩
      · rw [List.splitOn_nil, List.getElem?_singleton] at here
        split at here
        · exact absurd (Option.some.inj here).symm nonempty
        · cases here
      · rw [List.splitOn_append_cons_self, List.splitOn_nil] at here
        rw [List.flatten_cons, List.append_assoc, List.singleton_append,
          List.splitOn_append_cons_self]
        by_cases inside : k < (body.splitOn sep).length
        · rw [List.getElem?_append_left inside] at here ⊢
          exact here
        · rw [List.getElem?_append_right (Nat.le_of_not_lt inside), List.getElem?_singleton] at here
          split at here
          · exact absurd (Option.some.inj here).symm nonempty
          · cases here

/-- No segment contains the separator. -/
theorem not_mem_of_mem_splitOn {sep : α} {xs segment : List α}
    (mem : segment ∈ xs.splitOn sep) : sep ∉ segment := by
  induction xs generalizing segment with
  | nil =>
      rw [List.splitOn_nil, List.mem_singleton] at mem
      simp [mem]
  | cons x xs ih =>
      rw [List.splitOn_cons_eq_if_modifyHead] at mem
      split at mem
      · rcases List.mem_cons.mp mem with rfl | mem
        · simp
        · exact ih mem
      · rename_i ne
        obtain ⟨head, tail, split⟩ := List.exists_cons_of_ne_nil (List.splitOn_ne_nil sep xs)
        rw [split, List.modifyHead_cons] at mem
        have tail_free : ∀ other ∈ head :: tail, sep ∉ other := by
          intro other other_mem
          exact ih (by rw [split]; exact other_mem)
        rcases List.mem_cons.mp mem with rfl | mem
        · have sep_ne : sep ≠ x := by
            rintro rfl
            exact ne BEq.rfl
          simp [sep_ne, tail_free head List.mem_cons_self]
        · exact tail_free segment (List.mem_cons_of_mem head mem)

/-- Writing a separator after each segment is undone by splitting, which also
reports the empty segment behind the last separator. -/
theorem splitOn_flatMap_terminate {sep : α} {segments : List (List α)}
    (free : ∀ segment ∈ segments, sep ∉ segment) :
    (segments.flatMap (· ++ [sep])).splitOn sep = segments ++ [[]] := by
  induction segments with
  | nil => simp
  | cons segment rest ih =>
      rw [List.flatMap_cons, List.append_assoc, List.singleton_append,
        List.splitOn_append_cons_self_of_not_mem (free segment List.mem_cons_self),
        ih fun other mem => free other (List.mem_cons_of_mem segment mem), List.cons_append]

/-! ## The first entry of a kind -/

omit [BEq α] [LawfulBEq α] in
/-- A sequence with a bad entry has a first one. -/
theorem exists_first_bad {good : α → Prop} {xs : List α} (some_bad : ∃ x ∈ xs, ¬ good x) :
    ∃ before x after, xs = before ++ x :: after ∧ (∀ a ∈ before, good a) ∧ ¬ good x := by
  induction xs with
  | nil => simp at some_bad
  | cons first rest ih =>
      by_cases here : good first
      · rcases some_bad with ⟨x, mem, bad⟩
        have later : x ∈ rest := by
          rcases List.mem_cons.mp mem with rfl | later
          · exact absurd here bad
          · exact later
        obtain ⟨before, y, after, rfl, all_good, first_bad⟩ := ih ⟨x, later, bad⟩
        refine ⟨first :: before, y, after, rfl, ?_, first_bad⟩
        exact List.forall_mem_cons.mpr ⟨here, all_good⟩
      · exact ⟨[], first, rest, rfl, by simp, here⟩

omit [BEq α] [LawfulBEq α] in
/-- Entries that are all good come before the first bad one. -/
theorem prefix_of_forall {good : α → Prop} {before after before' after' : List α} {x : α}
    (split : before ++ x :: after = before' ++ after') (bad : ¬ good x)
    (all_good : ∀ a ∈ before', good a) : before' <+: before := by
  rcases List.append_eq_append_iff.mp split with ⟨gap, before_eq, tail_eq⟩ | ⟨gap, before_eq, _⟩
  · cases gap with
    | nil => simp [before_eq]
    | cons first rest =>
        rw [List.cons_append, List.cons.injEq] at tail_eq
        exact absurd (all_good x (by simp [before_eq, tail_eq.1])) bad
  · exact ⟨gap, before_eq.symm⟩

omit [BEq α] [LawfulBEq α] in
/-- There is one first bad entry. -/
theorem first_bad_unique {good : α → Prop} {before after before' after' : List α} {x x' : α}
    (split : before ++ x :: after = before' ++ x' :: after') (all_good : ∀ a ∈ before, good a)
    (bad : ¬ good x) (all_good' : ∀ a ∈ before', good a) (bad' : ¬ good x') :
    before = before' ∧ x = x' := by
  have below := prefix_of_forall split bad all_good'
  have above := prefix_of_forall split.symm bad' all_good
  have same : before = before' :=
    above.eq_of_length (Nat.le_antisymm above.length_le below.length_le)
  subst same
  rw [List.append_cancel_left_eq, List.cons.injEq] at split
  exact ⟨rfl, split.1⟩

/-! ## Trimming both ends -/

/-- Drop the entries satisfying `blank` from the front and then from the back. -/
def trim {α : Type u} (blank : α → Bool) (xs : List α) : List α :=
  (xs.dropWhile blank).rdropWhile blank

omit [BEq α] [LawfulBEq α] in
theorem mem_of_mem_trim {blank : α → Bool} {xs : List α} {x : α} (mem : x ∈ trim blank xs) :
    x ∈ xs :=
  (List.dropWhile_suffix blank).mem ((List.rdropWhile_prefix blank _).mem mem)

omit [BEq α] [LawfulBEq α] in
/-- A trimmed sequence has nothing left to trim. -/
@[simp]
theorem trim_trim (blank : α → Bool) (xs : List α) :
    trim blank (trim blank xs) = trim blank xs := by
  have front : (trim blank xs).dropWhile blank = trim blank xs := by
    obtain ⟨suffix, split⟩ := List.rdropWhile_prefix blank (xs.dropWhile blank)
    change trim blank xs ++ suffix = _ at split
    cases trimmed : trim blank xs with
    | nil => rfl
    | cons first rest =>
        rw [trimmed, List.cons_append] at split
        have nonempty : xs.dropWhile blank ≠ [] := by simp [← split]
        have first_kept := List.head_dropWhile_not blank nonempty
        simp only [← split, List.head_cons] at first_kept
        exact List.dropWhile_cons_of_neg (by simp [first_kept])
  rw [trim, front, trim, List.rdropWhile_idempotent]

end Parq.Sequence
