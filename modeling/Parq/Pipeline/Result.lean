import Parq.Pipeline.Invariant

/-!
# What a finished run has done

When the main thread returns `Ok`, every chunk was parsed, the file holds the
batches of every chunk in their order, the counters are complete and the
dead-letter file holds every rejected line.  When it returns an error, a chunk
failed to parse or one of the two threads failed.
-/

namespace Parq.Pipeline

open Parq.Data
open Parq.Parser
open Parq.Sequence
open Parq.Transition

variable {P : Plan} {s target : State P}

/-- Every chunk is parsed without an error. -/
def Plan.AllParsed (P : Plan) : Prop :=
  ∀ i, (P.outcome i).result = .ok (P.parsed i)

theorem Plan.allParsed_iff (P : Plan) :
    P.AllParsed ↔ ∀ i, ∃ parsed, (P.outcome i).result = .ok parsed := by
  constructor
  · exact fun all i => ⟨_, all i⟩
  · intro all i
    obtain ⟨parsed, succeeded⟩ := all i
    rw [P.parsed_of_ok succeeded, succeeded]

/-- Some chunk fails to parse. -/
def Plan.SomeFailed (P : Plan) : Prop :=
  ∃ i e, (P.outcome i).result = .error e

theorem Plan.AllParsed.not_someFailed (all : P.AllParsed) : ¬ P.SomeFailed := by
  rintro ⟨i, e, failed⟩
  rw [all i] at failed
  cases failed

theorem Plan.someFailed_of_not (P : Plan) (some_not : ¬ P.AllParsed) : P.SomeFailed := by
  rw [Plan.allParsed_iff, not_forall] at some_not
  rcases some_not with ⟨i, none_parsed⟩
  cases outcome : (P.outcome i).result with
  | ok parsed => exact absurd ⟨parsed, outcome⟩ none_parsed
  | error e => exact ⟨i, e, outcome⟩

/-! ## Where errors come from -/

/-- A recorded or returned error was returned for a chunk or by a failed thread, and
a closure is cut short only after a chunk failed. -/
structure Blamed (s : State P) : Prop where
  recorded : ∀ e, s.parseError = some e → ∃ i, (P.outcome i).result = .error e
  cut : ∀ i, s.closures i = .skipped → P.SomeFailed
  returned : ∀ e, s.main = .returned (.error e) →
    (∃ i, (P.outcome i).result = .error e) ∨ s.writer = .failed e ∨ s.quarantine = .failed e

theorem blamed_initial (P : Plan) : Blamed (.initial P) where
  recorded e recorded := by cases recorded
  cut i cut := by cases cut
  returned e returned := by cases returned

theorem Blamed.moves {a : Action P} (blamed : Blamed s) (sound : Sound s) (ends : Ends s)
    (moves : Moves s a target) : Blamed target := by
  cases moves with
  | @closure i _ moved =>
      have here := sound i
      have parsing : s.main = .parsing := by
        by_contra past
        exact moved.not_allFinished (ends.main past)
      have cut {c : Closure} (justified : c = .skipped → P.SomeFailed) :=
        @forall_update P (fun _ c => c = .skipped → P.SomeFailed) s.closures blamed.cut i c
          justified
      have returned : ∀ e, target.main = .returned (.error e) →
          (∃ i, (P.outcome i).result = .error e) ∨ target.writer = .failed e ∨
            target.quarantine = .failed e := by
        intro e returned
        rw [moved.frame.1, parsing] at returned
        cases returned
      cases moved with
      | @skip e _ failed =>
          obtain ⟨j, failed_at⟩ := blamed.recorded e failed
          exact ⟨blamed.recorded, cut fun _ => ⟨j, e, failed_at⟩, returned⟩
      | @record e at_recording =>
          rw [at_recording] at here
          refine ⟨?_, cut (by simp), returned⟩
          intro e' recorded
          cases slot : s.parseError with
          | none =>
              simp only [slot, Option.getD_none, Option.some.injEq] at recorded
              exact ⟨i, recorded ▸ here⟩
          | some first =>
              simp only [slot, Option.getD_some, Option.some.injEq] at recorded
              exact blamed.recorded e' (recorded ▸ slot)
      | _ => exact ⟨blamed.recorded, cut (by simp), returned⟩
  | writer moved =>
      have unfailed : ∀ e, s.writer ≠ .failed e := by
        intro e
        cases moved with
        | fail here => rcases here with here | ⟨item, here⟩ | here <;> simp [here]
        | create here | receive here | disconnect here | write here | close here => simp [here]
      cases moved <;>
        exact ⟨blamed.recorded, blamed.cut, fun e returned =>
          (blamed.returned e returned).imp_right fun failed =>
            .inr (failed.resolve_left (unfailed e))⟩
  | quarantine moved =>
      have unfailed : ∀ e, s.quarantine ≠ .failed e := by
        intro e
        cases moved with
        | fail here => rcases here with here | ⟨item, here⟩ | ⟨item, here⟩ <;> simp [here]
        | create here | receive here | disconnect here | writeLine here | writeNewline here =>
            simp [here]
      cases moved <;>
        exact ⟨blamed.recorded, blamed.cut, fun e returned =>
          (blamed.returned e returned).imp_right fun failed =>
            .inl (failed.resolve_right (unfailed e))⟩
  | main moved =>
      cases moved with
      | abort _ _ failed =>
          refine ⟨fun e recorded => (by cases recorded), blamed.cut, ?_⟩
          intro e returned
          cases returned
          exact .inl (blamed.recorded _ failed)
      | writerFailed _ failed =>
          refine ⟨blamed.recorded, blamed.cut, ?_⟩
          intro e returned
          cases returned
          exact .inr (.inl failed)
      | quarantineFailed _ failed =>
          refine ⟨blamed.recorded, blamed.cut, ?_⟩
          intro e returned
          cases returned
          exact .inr (.inr failed)
      | proceed | joinWriter | joinQuarantine =>
          exact ⟨blamed.recorded, blamed.cut, fun e returned => (by cases returned)⟩

theorem Reached.blamed (reached : Reached P s) : Blamed s := by
  have both : Inv s ∧ Blamed s := by
    apply Reachable.invariant ⟨inv_initial P, blamed_initial P⟩ _ reached
    rintro s a target ⟨inv, blamed⟩ _ stepped
    exact ⟨inv.step stepped, blamed.moves inv.sound inv.ends (moves_of_step stepped)⟩
  exact both.2

/-! ## Completed runs -/

/-- The batches of all chunks, in the order of the chunks. -/
def Plan.allBatches (P : Plan) : List RecordBatch :=
  (List.finRange P.jobs).flatMap fun i => (P.parsed i).batches

theorem Closure.eq_returned {c : Closure} (finished : c.isFinished = true) (uncut : c ≠ .skipped) :
    c = .returned := by
  cases c with
  | returned => rfl
  | skipped => exact absurd rfl uncut
  | _ => cases finished

/-- A writer that reached the footer without a closure being cut short has written
the batches of every chunk. -/
theorem Inv.written_of_closed (inv : Inv s) (closed : s.writer = .closed)
    (uncut : ∀ i, s.closures i ≠ .skipped) (i : Fin P.jobs) :
    ofSource i s.written = (P.parsed i).batches := by
  obtain ⟨empty, finished⟩ := inv.ends.writer (.inr closed)
  have returned := Closure.eq_returned ((allFinished_iff s).mp finished i) (uncut i)
  have merged := inv.batches (by simp [closed])
  have complete := merged.complete i (by rw [returned]; rfl)
  simpa [State.batchStream, closed, Writer.holding, empty] using complete

/-- The written batches are a permutation of all batches. -/
theorem written_perm (each : ∀ i, ofSource i s.written = (P.parsed i).batches) :
    (s.written.map Prod.snd).Perm P.allBatches := by
  have merged := map_snd_perm_flatMap s.written
  simp only [each] at merged
  exact merged

/-- What is known when the main thread has returned `Ok`. -/
structure Completed (s : State P) (metrics : ProcessingMetrics) : Prop where
  parsed : P.AllParsed
  closed : s.writer = .closed
  written : ∀ i, ofSource i s.written = (P.parsed i).batches
  metrics : metrics = ⟨P.inputBytes, ∑ i, (P.parsed i).rowsOk, ∑ i, (P.parsed i).rowsSkipped,
    P.threadsUsed⟩
  quarantine : s.quarantine = .absent ∨ s.quarantine = .done
  quarantined : s.quarantine = .done →
    (∀ i, ofSource i s.quarantined = (P.outcome i).deadLetters) ∧
      s.deadLetterFile = (s.quarantined.map Prod.snd).flatMap (· ++ [newline])

theorem Reached.completed {metrics : ProcessingMetrics} (reached : Reached P s)
    (ok : s.main = .returned (.ok metrics)) : Completed s metrics := by
  have inv := reached.inv
  have justified := inv.justified
  rw [Justified, ok] at justified
  rcases justified with ⟨clear, rfl, closed, ended⟩
  have finished := inv.ends.main (by simp [ok])
  have clean := inv.errors clear (by simp [ok])
  have returned : ∀ i, s.closures i = .returned := by
    intro i
    apply Closure.eq_returned ((allFinished_iff s).mp finished i)
    intro cut
    have here := clean i
    rw [cut] at here
    exact here
  have rows := inv.counted.rows
  have errors := inv.counted.errors
  simp only [returned, Closure.uncountedRows, Finset.sum_const_zero, Nat.add_zero] at rows
  simp only [returned, Closure.uncountedErrors, Finset.sum_const_zero, Nat.add_zero] at errors
  constructor
  · apply P.allParsed_iff.mpr
    intro i
    have here := clean i
    rw [returned i] at here
    exact here
  · exact closed
  · exact inv.written_of_closed closed (by simp [returned])
  · rw [rows, errors]
  · exact ended
  · intro done
    have empty := (inv.ends.quarantine done).1
    have merged := inv.letters (by simp [Quarantine.Alive, done])
    have file := inv.file (by simp [done])
    constructor
    · intro i
      have complete := merged.complete i (by rw [returned i]; rfl)
      simpa [State.letterStream, done, Quarantine.holding, empty] using complete
    · simpa [done, Quarantine.begun] using file

end Parq.Pipeline
