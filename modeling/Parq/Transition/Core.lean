import Mathlib.Logic.Basic

/-!
# Labelled transition systems

A system is an executable partial step function on states and actions.  A run is
a list of actions; restricting the actions that may occur gives the runs under an
assumption on the environment.  The rules below carry an invariant along a run
and turn a measure that every step decreases into bounded and completed runs.
-/

namespace Parq.Transition

universe u v

variable {σ : Type u} {α : Type v}

/-- One step of the system: `none` when the action is not enabled. -/
abbrev Step (σ : Type u) (α : Type v) :=
  σ → α → Option σ

/-- Execute a list of actions. -/
def run (next : Step σ α) : List α → σ → Option σ
  | [], s => some s
  | a :: actions, s =>
      match next s a with
      | some s => run next actions s
      | none => none

/-- `target` is reached from `start` by steps whose actions are allowed. -/
inductive Reachable (next : Step σ α) (allowed : α → Prop) (start : σ) : σ → Prop
  | refl : Reachable next allowed start start
  | tail {s target : σ} {a : α} (reached : Reachable next allowed start s) (may : allowed a)
      (step : next s a = some target) : Reachable next allowed start target

/-- No allowed action is enabled. -/
def Quiescent (next : Step σ α) (allowed : α → Prop) (s : σ) : Prop :=
  ∀ a, allowed a → next s a = none

/-- Every step makes the measure smaller. -/
def Decreasing (next : Step σ α) (measure : σ → Nat) : Prop :=
  ∀ ⦃s a target⦄, next s a = some target → measure target < measure s

section Reachable

variable {next : Step σ α} {allowed : α → Prop} {start s target : σ}

theorem Reachable.trans (first : Reachable next allowed start s)
    (rest : Reachable next allowed s target) : Reachable next allowed start target := by
  induction rest with
  | refl => exact first
  | tail _ may step ih => exact .tail ih may step

/-- Allowing more actions keeps what is reached. -/
theorem Reachable.mono {wider : α → Prop} (weaken : ∀ a, allowed a → wider a)
    (reached : Reachable next allowed start s) : Reachable next wider start s := by
  induction reached with
  | refl => exact .refl
  | tail _ may step ih => exact .tail ih (weaken _ may) step

/-- A property that holds at the start and that every allowed step preserves holds of
all states reached. -/
theorem Reachable.invariant {holds : σ → Prop} (initially : holds start)
    (preserved : ∀ {s a target}, holds s → allowed a → next s a = some target → holds target)
    (reached : Reachable next allowed start s) : holds s := by
  induction reached with
  | refl => exact initially
  | tail _ may step ih => exact preserved ih may step

/-- A run of allowed actions reaches its last state. -/
theorem reachable_of_run {actions : List α} (may : ∀ a ∈ actions, allowed a)
    (ran : run next actions start = some target) : Reachable next allowed start target := by
  induction actions generalizing start with
  | nil =>
      cases ran
      exact .refl
  | cons a actions ih =>
      rw [run] at ran
      split at ran
      · rename_i middle step
        have first : Reachable next allowed start middle :=
          .tail .refl (may a List.mem_cons_self) step
        exact first.trans (ih (fun b mem => may b (List.mem_cons_of_mem a mem)) ran)
      · cases ran

end Reachable

section Measure

variable {next : Step σ α} {measure : σ → Nat}

/-- The measure bounds the length of every run. -/
theorem length_run_le (decreasing : Decreasing next measure) {actions : List α} {s target : σ}
    (ran : run next actions s = some target) : actions.length + measure target ≤ measure s := by
  induction actions generalizing s with
  | nil =>
      cases ran
      simp
  | cons a actions ih =>
      rw [run] at ran
      split at ran
      · rename_i middle step
        have smaller := decreasing step
        have rest := ih ran
        rw [List.length_cons]
        omega
      · cases ran

/-- From every state allowed steps lead to a state where none is enabled. -/
theorem exists_quiescent (decreasing : Decreasing next measure) (allowed : α → Prop) (s : σ) :
    ∃ target, Reachable next allowed s target ∧ Quiescent next allowed target := by
  induction bound : measure s using Nat.strongRecOn generalizing s with
  | ind n ih =>
      by_cases quiet : Quiescent next allowed s
      · exact ⟨s, .refl, quiet⟩
      · simp only [Quiescent, not_forall, ← Option.isSome_iff_ne_none,
          Option.isSome_iff_exists] at quiet
        rcases quiet with ⟨a, may, middle, step⟩
        obtain ⟨target, reached, quiet⟩ := ih (measure middle) (bound ▸ decreasing step) middle rfl
        have first : Reachable next allowed s middle := .tail .refl may step
        exact ⟨target, first.trans reached, quiet⟩

end Measure

end Parq.Transition
