import Parq.Drain.Core
import Parq.Transition.Simulation

/-!
# Every narrow order can be drained

A stream that has all items of every source, each in its order, and that is nowhere
in the middle of more sources than may be open, is what some order of the steps
delivers.  A source is opened just before its first item and closed just behind its
last.
-/

namespace Parq.Drain

open Parq.Sequence
open Parq.Transition

universe u

variable {α : Type u} {S : Sources α} {s : State S}

/-- Steps that give up no source lead from `s` to `target`. -/
abbrev Leads (s target : State S) : Prop :=
  Reachable (step S) Action.Thorough s target

theorem Leads.start {i : Fin S.count} (here : s.sources i = .idle) (free : s.opened < S.width) :
    Leads s (s.setSource i (.opened (S.items i))) :=
  .single (a := .start i) trivial (moves_iff.mp (.start here free))

theorem Leads.deliver {i : Fin S.count} {item : α} {rest : List α}
    (here : s.sources i = .opened (item :: rest)) :
    Leads s { s.setSource i (.opened rest) with stream := s.stream ++ [(i, item)] } :=
  .single (a := .deliver i) trivial (moves_iff.mp (.deliver here))

theorem Leads.close {i : Fin S.count} (here : s.sources i = .opened []) :
    Leads s (s.setSource i (.closed [])) :=
  .single (a := .close i) trivial (moves_iff.mp (.close here))

/-! ## Sources without items -/

/-- The empty sources of a list have been opened and closed. -/
def emptied (S : Sources α) (done : List (Fin S.count)) : State S where
  sources := fun i => if i ∈ done ∧ S.items i = [] then .closed [] else .idle
  stream := []

theorem emptied_opened (done : List (Fin S.count)) : (emptied S done).opened = 0 := by
  rw [State.opened, Finset.card_eq_zero, Finset.filter_eq_empty_iff]
  intro i _
  simp only [emptied]
  split <;> exact Bool.false_ne_true

theorem leads_emptied (positive : 0 < S.width) (done : List (Fin S.count)) :
    Leads (.initial S) (emptied S done) := by
  induction done with
  | nil =>
      have none_done : emptied S [] = .initial S := by simp [emptied, State.initial]
      rw [none_done]
      exact .refl
  | cons i done ih =>
      by_cases more : S.items i = [] ∧ i ∉ done
      · rcases more with ⟨empty, new⟩
        have idle : (emptied S done).sources i = .idle := if_neg fun both => new both.1
        have free : (emptied S done).opened < S.width := by rwa [emptied_opened]
        have opened := Leads.start idle free
        rw [empty] at opened
        have closed := Leads.close (s := (emptied S done).setSource i (.opened []))
          (Function.update_self i _ _)
        have target : ((emptied S done).setSource i (.opened [])).setSource i (.closed []) =
            emptied S (i :: done) := by
          simp only [State.setSource, Function.update_idem, emptied, State.mk.injEq, and_true]
          funext j
          by_cases same : j = i
          · subst same
            simp [empty]
          · simp [same]
        rw [target] at closed
        exact ih.trans (opened.trans closed)
      · have unchanged : emptied S (i :: done) = emptied S done := by
          simp only [emptied, State.mk.injEq, and_true]
          funext j
          by_cases same : j = i
          · subst same
            simp only [List.mem_cons_self, true_and]
            by_cases empty : S.items j = []
            · simp [empty, not_not.mp fun new => more ⟨empty, new⟩]
            · simp [empty]
          · simp [same]
        rw [unchanged]
        exact ih

/-! ## The schedule -/

/-- The state in which the first `k` items of the stream have been delivered. -/
def scheduled (S : Sources α) (stream : List (Fin S.count × α)) (k : Nat) : State S where
  sources := fun i =>
    if ofSource i (stream.drop k) = [] then .closed []
    else if occurs i (stream.take k) then .opened (ofSource i (stream.drop k))
    else .idle
  stream := stream.take k

variable {stream : List (Fin S.count × α)}

theorem scheduled_zero (complete : ∀ i, ofSource i stream = S.items i) :
    scheduled S stream 0 = emptied S (List.finRange S.count) := by
  simp only [scheduled, emptied, List.drop_zero, List.take_zero, State.mk.injEq, and_true]
  funext i
  simp [complete i, occurs]

section Item

variable {k : Nat} (bound : k < stream.length)

include bound

theorem take_succ_eq : stream.take (k + 1) = stream.take k ++ [stream[k]] :=
  List.take_succ_eq_append_getElem bound

theorem drop_eq_cons : stream.drop k = stream[k] :: stream.drop (k + 1) :=
  List.drop_eq_getElem_cons bound

theorem ofSource_drop_self : ofSource stream[k].1 (stream.drop k) =
    stream[k].2 :: ofSource stream[k].1 (stream.drop (k + 1)) := by
  rw [drop_eq_cons bound]
  exact ofSource_cons_self _ _ _

theorem ofSource_drop_of_ne {i : Fin S.count} (ne : i ≠ stream[k].1) :
    ofSource i (stream.drop k) = ofSource i (stream.drop (k + 1)) := by
  rw [drop_eq_cons bound]
  exact ofSource_cons_of_ne (Ne.symm ne) _ _

/-- Before the `k`-th item fewer sources are open than the stream is in the middle of
there, unless the source of the item is open itself. -/
theorem scheduled_opened_lt (narrow : Narrow S.width stream)
    (fresh : occurs stream[k].1 (stream.take k) = false) :
    (scheduled S stream k).opened < S.width := by
  refine lt_of_lt_of_le (Finset.card_lt_card ?_) (narrow k bound)
  have needed : occurs stream[k].1 (stream.drop k) = true := by
    rw [occurs_eq_true_iff_ofSource, ofSource_drop_self bound]
    exact List.cons_ne_nil _ _
  rw [Finset.ssubset_iff_of_subset]
  · refine ⟨stream[k].1, ?_, ?_⟩
    · rw [Finset.mem_filter, spans, Bool.and_eq_true, take_succ_eq bound, occurs_append,
        Bool.or_eq_true]
      exact ⟨Finset.mem_univ _, .inr (occurs_singleton.mpr rfl), needed⟩
    · rw [Finset.mem_filter, not_and]
      intro _
      simp only [scheduled, fresh]
      split <;> exact Bool.false_ne_true
  · intro i
    rw [Finset.mem_filter, Finset.mem_filter, spans, take_succ_eq bound, occurs_append]
    simp only [scheduled]
    rintro ⟨mem, opened⟩
    split at opened
    · cases opened
    · rename_i needed
      split at opened
      · rename_i begun
        exact ⟨mem, by rw [begun, occurs_eq_true_iff_ofSource.mpr needed]; rfl⟩
      · cases opened

/-- Between two items of the schedule only the source of the first one changes. -/
theorem scheduled_succ : scheduled S stream (k + 1) =
    { (scheduled S stream k).setSource stream[k].1
        (if ofSource stream[k].1 (stream.drop (k + 1)) = [] then .closed []
          else .opened (ofSource stream[k].1 (stream.drop (k + 1)))) with
      stream := stream.take k ++ [stream[k]] } := by
  rw [scheduled, State.mk.injEq]
  refine ⟨?_, take_succ_eq bound⟩
  funext i
  rw [setSource_sources, take_succ_eq bound, occurs_append]
  by_cases same : i = stream[k].1
  · subst same
    rw [Function.update_self, occurs_singleton.mpr rfl, Bool.or_true, if_pos rfl]
  · have other : occurs i [stream[k]] = false := by
      rw [← Bool.not_eq_true, occurs_singleton]
      exact Ne.symm same
    rw [Function.update_of_ne same, other, Bool.or_false, ← ofSource_drop_of_ne bound same]
    rfl

/-- The source of the `k`-th item is open with it in front, or is opened so. -/
theorem leads_opened (complete : ∀ i, ofSource i stream = S.items i)
    (narrow : Narrow S.width stream) :
    Leads (scheduled S stream k) ((scheduled S stream k).setSource stream[k].1
      (.opened (stream[k].2 :: ofSource stream[k].1 (stream.drop (k + 1))))) := by
  rw [← ofSource_drop_self bound]
  have needed : ofSource stream[k].1 (stream.drop k) ≠ [] := by
    rw [ofSource_drop_self bound]
    exact List.cons_ne_nil _ _
  cases begun : occurs stream[k].1 (stream.take k) with
  | true =>
      have here : (scheduled S stream k).sources stream[k].1 =
          .opened (ofSource stream[k].1 (stream.drop k)) := by
        simp only [scheduled, if_neg needed, if_pos begun]
      rw [← here, State.setSource, Function.update_eq_self]
      exact .refl
  | false =>
      have here : (scheduled S stream k).sources stream[k].1 = .idle := by
        simp only [scheduled, if_neg needed, begun]
        rfl
      have whole : S.items stream[k].1 = ofSource stream[k].1 (stream.drop k) := by
        have split := ofSource_append stream[k].1 (stream.take k) (stream.drop k)
        rwa [List.take_append_drop, occurs_eq_false_iff_ofSource.mp begun, List.nil_append,
          complete] at split
      rw [← whole]
      exact .start here (scheduled_opened_lt bound narrow begun)

/-- The steps around one item: open its source if it is its first, deliver it, close
the source if it is its last. -/
theorem leads_scheduled_succ (complete : ∀ i, ofSource i stream = S.items i)
    (narrow : Narrow S.width stream) :
    Leads (scheduled S stream k) (scheduled S stream (k + 1)) := by
  have opened := leads_opened bound complete narrow
  have delivered := opened.trans (Leads.deliver (Function.update_self _ _ _))
  rw [scheduled_succ bound]
  simp only [State.setSource, Function.update_idem] at delivered
  split
  · rename_i last
    rw [last] at delivered
    have closed := delivered.trans (Leads.close (Function.update_self _ _ _))
    simp only [State.setSource, Function.update_idem] at closed
    exact closed
  · exact delivered

end Item

theorem leads_scheduled (complete : ∀ i, ofSource i stream = S.items i)
    (narrow : Narrow S.width stream) (positive : 0 < S.width) {k : Nat}
    (bound : k ≤ stream.length) :
    Leads (.initial S) (scheduled S stream k) := by
  induction k with
  | zero =>
      rw [scheduled_zero complete]
      exact leads_emptied positive _
  | succ k ih =>
      exact (ih (Nat.le_of_succ_le bound)).trans (leads_scheduled_succ bound complete narrow)

/-- Every narrow order of all items is delivered by some order of the steps. -/
theorem exists_leads (complete : ∀ i, ofSource i stream = S.items i)
    (narrow : Narrow S.width stream) (positive : 0 < S.width) :
    ∃ s : State S, Leads (.initial S) s ∧ s.stream = stream ∧ ∀ i, s.sources i = .closed [] := by
  refine ⟨_, leads_scheduled complete narrow positive (Nat.le_refl stream.length), ?_, ?_⟩
  · exact List.take_length
  · intro i
    simp [scheduled]

end Parq.Drain
