import Mathlib.Data.List.Basic

/-!
# The first items of a kind

A sequence is cut as soon as it holds `n` items of a kind.  What is in front of the cut is
the shortest beginning with that many, and it does not depend on what is behind.
-/

namespace Parq.Sequence

universe u

variable {α : Type u} {kind : α → Bool} {n : Nat} {items taken : List α}

/-- `taken` is the shortest beginning of `items` with `n` items of the kind, or all of
`items` when these have fewer. -/
structure FirstMany (kind : α → Bool) (n : Nat) (items taken : List α) : Prop where
  starts : taken <+: items
  enough : taken.countP kind = n ∨ taken = items ∧ items.countP kind < n
  shortest : ∀ other, other <+: items → n ≤ other.countP kind → taken.length ≤ other.length

/-- Take items until `n` of the kind are among them. -/
def takeMany (kind : α → Bool) : (n : Nat) → List α → List α
  | 0, _ => []
  | _ + 1, [] => []
  | n + 1, item :: items => item :: takeMany kind (if kind item then n else n + 1) items

@[simp]
theorem takeMany_zero (kind : α → Bool) (items : List α) : takeMany kind 0 items = [] := by
  cases items <;> rfl

@[simp]
theorem takeMany_nil (kind : α → Bool) (n : Nat) : takeMany kind n [] = [] := by
  cases n <;> rfl

theorem takeMany_cons (kind : α → Bool) {n : Nat} (positive : 0 < n) (item : α) (items : List α) :
    takeMany kind n (item :: items) =
      item :: takeMany kind (if kind item then n - 1 else n) items := by
  cases n with
  | zero => exact absurd positive (Nat.lt_irrefl 0)
  | succ n => rfl

theorem takeMany_starts (kind : α → Bool) (n : Nat) (items : List α) :
    takeMany kind n items <+: items := by
  induction items generalizing n with
  | nil => exact (takeMany_nil kind n).symm ▸ List.nil_prefix
  | cons item items ih =>
      cases n with
      | zero => exact List.nil_prefix
      | succ n => exact (List.prefix_cons_inj item).mpr (ih _)

theorem countP_takeMany (kind : α → Bool) (n : Nat) (items : List α) :
    (takeMany kind n items).countP kind = min n (items.countP kind) := by
  induction items generalizing n with
  | nil => simp
  | cons item items ih =>
      cases n with
      | zero => simp
      | succ n =>
          rw [takeMany, List.countP_cons, List.countP_cons, ih]
          split <;> omega

/-- More of the kind are found no earlier. -/
theorem takeMany_starts_of_le (kind : α → Bool) {fewer more : Nat} (le : fewer ≤ more)
    (items : List α) : takeMany kind fewer items <+: takeMany kind more items := by
  induction items generalizing fewer more with
  | nil => simp
  | cons item items ih =>
      cases fewer with
      | zero => exact (takeMany_zero kind _).symm ▸ List.nil_prefix
      | succ fewer =>
          rw [takeMany, takeMany_cons kind (Nat.lt_of_lt_of_le (Nat.succ_pos fewer) le)]
          apply (List.prefix_cons_inj item).mpr
          split
          · exact ih (Nat.le_sub_of_add_le le)
          · exact ih le

theorem takeMany_eq_self (few : items.countP kind < n) : takeMany kind n items = items := by
  induction items generalizing n with
  | nil => exact takeMany_nil kind n
  | cons item items ih =>
      cases here : kind item with
      | true =>
          rw [List.countP_cons_of_pos here] at few
          rw [takeMany_cons kind (Nat.zero_lt_of_lt few), if_pos here,
            ih (Nat.lt_sub_of_add_lt few)]
      | false =>
          rw [List.countP_cons_of_neg (by simp [here])] at few
          rw [takeMany_cons kind (Nat.zero_lt_of_lt few), if_neg (by simp [here]), ih few]

/-- No beginning with as many of the kind is shorter. -/
theorem length_takeMany_le {other : List α} (starts : other <+: items)
    (many : n ≤ other.countP kind) : (takeMany kind n items).length ≤ other.length := by
  induction items generalizing n other with
  | nil => simp
  | cons item items ih =>
      cases n with
      | zero => exact Nat.zero_le _
      | succ n =>
          cases other with
          | nil => simp at many
          | cons first other =>
              rcases List.cons_prefix_cons.mp starts with ⟨rfl, rest_starts⟩
              rw [List.countP_cons] at many
              apply Nat.succ_le_succ
              apply ih rest_starts
              split at many <;> simp_all

theorem firstMany_takeMany (kind : α → Bool) (n : Nat) (items : List α) :
    FirstMany kind n items (takeMany kind n items) where
  starts := takeMany_starts kind n items
  enough := by
    by_cases few : items.countP kind < n
    · exact .inr ⟨takeMany_eq_self few, few⟩
    · left
      rw [countP_takeMany]
      exact Nat.min_eq_left (Nat.le_of_not_lt few)
  shortest other starts many := length_takeMany_le starts many

/-- There is one such beginning. -/
theorem FirstMany.unique {taken' : List α} (first : FirstMany kind n items taken)
    (first' : FirstMany kind n items taken') : taken = taken' := by
  have same : taken.length = taken'.length := by
    rcases first.enough with here | ⟨rfl, few⟩
    · rcases first'.enough with here' | ⟨rfl, few'⟩
      · exact Nat.le_antisymm (first.shortest taken' first'.starts (Nat.le_of_eq here'.symm))
          (first'.shortest taken first.starts (Nat.le_of_eq here.symm))
      · exact absurd (here ▸ first.starts.sublist.countP_le) (Nat.not_le.mpr few')
    · rcases first'.enough with here' | ⟨rfl, _⟩
      · exact absurd (here' ▸ first'.starts.sublist.countP_le) (Nat.not_le.mpr few)
      · rfl
  exact
    (List.prefix_of_prefix_length_le first.starts first'.starts (Nat.le_of_eq same)).eq_of_length
    same

/-- Whatever follows the `n`-th item of the kind, the beginning up to it is the same. -/
theorem FirstMany.of_starts {items' : List α} (first : FirstMany kind n items taken)
    (starts : taken <+: items') (here : taken.countP kind = n) :
    FirstMany kind n items' taken where
  starts := starts
  enough := .inl here
  shortest := by
    intro other other_starts many
    by_contra shorter
    have below := List.prefix_of_prefix_length_le other_starts starts (Nat.le_of_not_le shorter)
    exact shorter (first.shortest other (below.trans first.starts) many)

/-- No item is needed for none of the kind. -/
theorem FirstMany.eq_nil (first : FirstMany kind 0 items taken) : taken = [] := by
  apply List.eq_nil_of_length_eq_zero
  exact Nat.le_zero.mp (first.shortest [] List.nil_prefix (Nat.zero_le _))

end Parq.Sequence
