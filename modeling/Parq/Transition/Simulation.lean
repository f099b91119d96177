import Parq.Transition.Core

/-!
# Simulations

A relation between the states of two systems is a simulation when every allowed
step of the first is followed by allowed steps of the second, any number of them,
that end in related states.  What the first system reaches from related states the
second then reaches too.  Two systems are in lockstep when related states allow
corresponding actions, one for one, and stay related: they have the same runs.
-/

namespace Parq.Transition

universe u v w x

variable {σ : Type u} {α : Type v} {τ : Type w} {β : Type x}

section Reachable

variable {next : Step σ α} {allowed : α → Prop} {s target : σ} {a : α}

/-- One allowed step. -/
theorem Reachable.single (may : allowed a) (step : next s a = some target) :
    Reachable next allowed s target :=
  .tail .refl may step

end Reachable

/-- The second system follows every allowed step of the first. -/
def Simulates (next : Step σ α) (allowed : α → Prop) (next' : Step τ β) (allowed' : β → Prop)
    (related : σ → τ → Prop) : Prop :=
  ∀ ⦃s a target t⦄, related s t → allowed a → next s a = some target →
    ∃ t', Reachable next' allowed' t t' ∧ related target t'

section Simulates

variable {next : Step σ α} {allowed : α → Prop} {next' : Step τ β} {allowed' : β → Prop}
  {related : σ → τ → Prop} {s target : σ} {t : τ}

/-- The second system follows every run of the first. -/
theorem Simulates.reachable (simulates : Simulates next allowed next' allowed' related)
    (start : related s t) (reached : Reachable next allowed s target) :
    ∃ t', Reachable next' allowed' t t' ∧ related target t' := by
  induction reached with
  | refl => exact ⟨t, .refl, start⟩
  | tail _ may step ih =>
      obtain ⟨middle, first, related_middle⟩ := ih
      obtain ⟨t', rest, related_target⟩ := simulates related_middle may step
      exact ⟨t', first.trans rest, related_target⟩

end Simulates

/-- From related states the second system takes the step that `translate` gives for
every step of the first, and no other. -/
def Lockstep (next : Step σ α) (next' : Step τ β) (translate : α → β) (related : σ → τ → Prop) :
    Prop :=
  ∀ ⦃s t⦄, related s t → ∀ a, Option.Rel related (next s a) (next' t (translate a))

section Lockstep

variable {next : Step σ α} {next' : Step τ β} {translate : α → β} {related : σ → τ → Prop}
  {s : σ} {t : τ}

/-- Systems in lockstep execute the same lists of actions, to related states. -/
theorem Lockstep.run (lockstep : Lockstep next next' translate related) (start : related s t)
    (actions : List α) :
    Option.Rel related (Transition.run next actions s)
      (Transition.run next' (actions.map translate) t) := by
  induction actions generalizing s t with
  | nil => exact .some start
  | cons a actions ih =>
      have stepped := lockstep start a
      rw [List.map_cons, Transition.run, Transition.run]
      generalize next s a = target, next' t (translate a) = target' at stepped
      cases stepped with
      | none => exact .none
      | some related_targets => exact ih related_targets

/-- What the second system reaches the first one reaches in the same steps. -/
theorem Lockstep.reachable (lockstep : Lockstep next next' translate related)
    (onto : Function.Surjective translate) (start : related s t) {allowed : β → Prop} {target : τ}
    (reached : Reachable next' allowed t target) :
    ∃ s', Reachable next (fun a => allowed (translate a)) s s' ∧ related s' target := by
  induction reached with
  | refl => exact ⟨s, .refl, start⟩
  | @tail middle target b _ may step ih =>
      obtain ⟨s', reached, related_middle⟩ := ih
      obtain ⟨a, rfl⟩ := onto b
      have stepped := lockstep related_middle a
      rw [step] at stepped
      cases next_eq : next s' a with
      | none =>
          rw [next_eq] at stepped
          cases stepped
      | some next_state =>
          rw [next_eq] at stepped
          cases stepped with
          | some related_targets => exact ⟨next_state, .tail reached may next_eq, related_targets⟩

end Lockstep

end Parq.Transition
