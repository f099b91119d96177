import Parq.Sequence.Width
import Parq.Transition.Core

/-!
# Draining sources into one stream

Several sources hold a list of items each.  A source is opened, delivers its items
one by one to the end of a common stream, and is closed when it has delivered all,
or abandoned before.  At most `width` sources are open at once, and the order in
which they are opened and deliver is free.

Whatever the order, the stream holds of each source what it has delivered, in its
order, and is never wider than the number of sources that may be open.
-/

namespace Parq.Drain

open Parq.Sequence
open Parq.Transition

universe u

/-- What is to be drained. -/
structure Sources (α : Type u) where
  count : Nat
  items : Fin count → List α
  width : Nat

/-- A source, with the items that it has not delivered. -/
inductive Source (α : Type u)
  | idle
  | opened (rest : List α)
  | closed (rest : List α)

namespace Source

variable {α : Type u}

def isOpen : Source α → Bool
  | .opened _ => true
  | _ => false

/-- The items still to be delivered, of `items` altogether. -/
def owed (items : List α) : Source α → List α
  | .idle => items
  | .opened rest | .closed rest => rest

end Source

structure State {α : Type u} (S : Sources α) where
  sources : Fin S.count → Source α
  stream : List (Fin S.count × α)

inductive Action {α : Type u} (S : Sources α)
  | start (i : Fin S.count)
  | deliver (i : Fin S.count)
  | close (i : Fin S.count)
  | abandon (i : Fin S.count)

/-- No source is given up. -/
def Action.Thorough {α : Type u} {S : Sources α} : Action S → Prop
  | .abandon _ => False
  | _ => True

namespace State

variable {α : Type u} {S : Sources α}

/-- No source has been opened. -/
def initial (S : Sources α) : State S where
  sources := fun _ => .idle
  stream := []

def setSource (s : State S) (i : Fin S.count) (source : Source α) : State S :=
  { s with sources := Function.update s.sources i source }

/-- The number of open sources. -/
def opened (s : State S) : Nat :=
  (Finset.univ.filter fun i => (s.sources i).isOpen = true).card

end State

section Step

variable {α : Type u} {S : Sources α}

/-- One step of the draining. -/
def step (S : Sources α) : Step (State S) (Action S)
  | s, .start i =>
      match s.sources i with
      | .idle => if s.opened < S.width then some (s.setSource i (.opened (S.items i))) else none
      | _ => none
  | s, .deliver i =>
      match s.sources i with
      | .opened (item :: rest) =>
          some { s.setSource i (.opened rest) with stream := s.stream ++ [(i, item)] }
      | _ => none
  | s, .close i =>
      match s.sources i with
      | .opened [] => some (s.setSource i (.closed []))
      | _ => none
  | s, .abandon i =>
      match s.sources i with
      | .opened rest => some (s.setSource i (.closed rest))
      | _ => none

/-- A state that some order of the steps reaches. -/
def Reached (S : Sources α) (s : State S) : Prop :=
  Reachable (step S) (fun _ => True) (.initial S) s

/-- What the steps do. -/
inductive Moves (s : State S) : Action S → State S → Prop
  | start {i : Fin S.count} (here : s.sources i = .idle) (free : s.opened < S.width) :
      Moves s (.start i) (s.setSource i (.opened (S.items i)))
  | deliver {i : Fin S.count} {item : α} {rest : List α}
      (here : s.sources i = .opened (item :: rest)) :
      Moves s (.deliver i) { s.setSource i (.opened rest) with stream := s.stream ++ [(i, item)] }
  | close {i : Fin S.count} (here : s.sources i = .opened []) :
      Moves s (.close i) (s.setSource i (.closed []))
  | abandon {i : Fin S.count} {rest : List α} (here : s.sources i = .opened rest) :
      Moves s (.abandon i) (s.setSource i (.closed rest))

variable {s target : State S} {a : Action S}

theorem moves_iff : Moves s a target ↔ step S s a = some target := by
  constructor
  · intro moves
    cases moves with
    | start here free => simp [step, here, free]
    | deliver here => simp [step, here]
    | close here => simp [step, here]
    | abandon here => simp [step, here]
  · intro moved
    unfold step at moved
    split at moved
    · split at moved
      · split at moved
        · rename_i here free
          cases moved
          exact .start here free
        · cases moved
      · cases moved
    · split at moved
      · rename_i here
        cases moved
        exact .deliver here
      · cases moved
    · split at moved
      · rename_i here
        cases moved
        exact .close here
      · cases moved
    · split at moved
      · rename_i here
        cases moved
        exact .abandon here
      · cases moved

@[simp]
theorem setSource_sources (s : State S) (i : Fin S.count) (source : Source α) :
    (s.setSource i source).sources = Function.update s.sources i source :=
  rfl

@[simp]
theorem setSource_stream (s : State S) (i : Fin S.count) (source : Source α) :
    (s.setSource i source).stream = s.stream :=
  rfl

/-! ## What holds of every order -/

/-- The sources that the stream is in the middle of at its `k`-th item, counting an
open source as one that may still deliver. -/
def State.spanned (s : State S) (k : Nat) : Finset (Fin S.count) :=
  Finset.univ.filter fun i =>
    occurs i (s.stream.take (k + 1)) = true ∧
      (occurs i (s.stream.drop k) = true ∨ (s.sources i).isOpen = true)

/-- The stream and what the sources still owe make up the items, at most `width`
sources are open, and the stream is in the middle of at most `width`. -/
structure Inv (s : State S) : Prop where
  merged : Merged S.items (fun i => Source.owed (S.items i)) s.stream s.sources
  opened : s.opened ≤ S.width
  spanned : ∀ k < s.stream.length, (s.spanned k).card ≤ S.width

theorem inv_initial (S : Sources α) : Inv (.initial S) where
  merged _ := rfl
  opened := by simp [State.opened, State.initial, Source.isOpen]
  spanned _ bound := absurd bound (Nat.not_lt_zero _)

/-- An idle source has delivered nothing. -/
theorem Inv.occurs_of_idle (inv : Inv s) {i : Fin S.count} (here : s.sources i = .idle) :
    occurs i s.stream = false := by
  have merged := inv.merged i
  simp only [here, Source.owed] at merged
  rw [occurs_eq_false_iff_ofSource]
  exact List.append_left_eq_self.mp merged

/-- A step that opens no source leaves no more sources open. -/
theorem isOpen_update {sources : Fin S.count → Source α} {i : Fin S.count} {source : Source α}
    (opens_none : source.isOpen = true → (sources i).isOpen = true) {j : Fin S.count}
    (opened : (Function.update sources i source j).isOpen = true) : (sources j).isOpen = true := by
  by_cases same : j = i
  · subst same
    rw [Function.update_self] at opened
    exact opens_none opened
  · rwa [Function.update_of_ne same] at opened

theorem opened_le_of_update (s : State S) {i : Fin S.count} {source : Source α}
    (opens_none : source.isOpen = true → (s.sources i).isOpen = true) :
    (s.setSource i source).opened ≤ s.opened := by
  refine Finset.card_le_card ?_
  intro j
  rw [Finset.mem_filter, Finset.mem_filter]
  exact And.imp_right (isOpen_update opens_none)

/-- Sources that are opened one by one are counted one by one. -/
theorem opened_setSource_le (s : State S) (i : Fin S.count) (source : Source α) :
    (s.setSource i source).opened ≤ s.opened + 1 := by
  refine le_trans (Finset.card_le_card ?_) (Finset.card_insert_le i _)
  intro j
  rw [Finset.mem_insert, Finset.mem_filter, Finset.mem_filter]
  rintro ⟨_, opened⟩
  by_cases same : j = i
  · exact .inl same
  · rw [setSource_sources, Function.update_of_ne same] at opened
    exact .inr ⟨Finset.mem_univ j, opened⟩

/-- With the stream as it was, a step that opens no source spans no more sources. -/
theorem Inv.shrink (inv : Inv s) {i : Fin S.count} {source : Source α}
    (owes : source.owed (S.items i) = (s.sources i).owed (S.items i))
    (opens_none : source.isOpen = true → (s.sources i).isOpen = true) :
    Inv (s.setSource i source) where
  merged := inv.merged.keep owes
  opened := le_trans (opened_le_of_update s opens_none) inv.opened
  spanned k bound := by
    refine le_trans (Finset.card_le_card ?_) (inv.spanned k bound)
    intro j
    rw [State.spanned, State.spanned, Finset.mem_filter, Finset.mem_filter]
    exact And.imp_right (And.imp_right (Or.imp_right (isOpen_update opens_none)))

theorem Inv.start (inv : Inv s) {i : Fin S.count} (here : s.sources i = .idle)
    (free : s.opened < S.width) : Inv (s.setSource i (.opened (S.items i))) where
  merged := inv.merged.keep (by rw [here]; rfl)
  opened := le_trans (opened_setSource_le s i _) free
  spanned k bound := by
    refine le_trans (Finset.card_le_card ?_) (inv.spanned k bound)
    intro j
    rw [State.spanned, State.spanned, Finset.mem_filter, Finset.mem_filter]
    rintro ⟨_, begun, later⟩
    -- The opened source has nothing in the stream, so no item is in the middle of it.
    have other : j ≠ i := by
      rintro rfl
      have absent := inv.occurs_of_idle here
      rw [← List.take_append_drop (k + 1) s.stream, occurs_append] at absent
      rw [setSource_stream] at begun
      rw [begun, Bool.true_or] at absent
      cases absent
    rw [setSource_sources, Function.update_of_ne other] at later
    exact ⟨Finset.mem_univ j, begun, later⟩

theorem Inv.deliver (inv : Inv s) {i : Fin S.count} {item : α} {rest : List α}
    (here : s.sources i = .opened (item :: rest)) :
    Inv { s.setSource i (.opened rest) with stream := s.stream ++ [(i, item)] } where
  merged := inv.merged.send (by rw [here]; rfl)
  opened := le_trans (opened_le_of_update s (by rw [here]; exact id)) inv.opened
  spanned k bound := by
    have stays : (Source.opened rest).isOpen = true → (s.sources i).isOpen = true := by
      rw [here]
      exact id
    rw [List.length_append, List.length_singleton, Nat.lt_succ_iff] at bound
    rcases Nat.lt_or_eq_of_le bound with inside | rfl
    · refine le_trans (Finset.card_le_card ?_) (inv.spanned k inside)
      intro j
      rw [State.spanned, State.spanned, Finset.mem_filter, Finset.mem_filter,
        List.take_append_of_le_length inside, List.drop_append_of_le_length (Nat.le_of_lt inside),
        occurs_append, Bool.or_eq_true]
      rintro ⟨_, begun, (needed | last) | opened⟩
      · exact ⟨Finset.mem_univ j, begun, .inl needed⟩
      · rw [occurs_singleton] at last
        subst last
        exact ⟨Finset.mem_univ i, begun, .inr (by rw [here]; rfl)⟩
      · exact ⟨Finset.mem_univ j, begun, .inr (isOpen_update stays opened)⟩
    -- At the new item every spanned source is open.
    · refine le_trans (Finset.card_le_card ?_) inv.opened
      intro j
      rw [State.spanned, Finset.mem_filter, Finset.mem_filter, List.drop_left]
      rintro ⟨_, _, last | opened⟩
      · rw [occurs_singleton] at last
        subst last
        exact ⟨Finset.mem_univ i, by rw [here]; rfl⟩
      · exact ⟨Finset.mem_univ j, isOpen_update stays opened⟩

theorem Inv.moves (inv : Inv s) (moves : Moves s a target) : Inv target := by
  cases moves with
  | start here free => exact inv.start here free
  | deliver here => exact inv.deliver here
  | close here => exact inv.shrink (by rw [here]; rfl) (by intro opened; cases opened)
  | abandon here => exact inv.shrink (by rw [here]; rfl) (by intro opened; cases opened)

theorem Reached.inv (reached : Reached S s) : Inv s :=
  Reachable.invariant (inv_initial S) (fun inv _ moved => inv.moves (moves_iff.mpr moved)) reached

/-- The stream is never wider than the number of sources that may be open. -/
theorem Inv.narrow (inv : Inv s) : Narrow S.width s.stream := by
  intro k bound
  refine le_trans (Finset.card_le_card ?_) (inv.spanned k bound)
  intro i
  rw [State.spanned, Finset.mem_filter, Finset.mem_filter, spans, Bool.and_eq_true]
  exact And.imp_right (And.imp_right Or.inl)

/-- The stream has of each source the first of its items, in their order. -/
theorem Inv.ofSource_prefix (inv : Inv s) (i : Fin S.count) :
    ofSource i s.stream <+: S.items i :=
  ⟨_, inv.merged i⟩

end Step

end Parq.Drain
