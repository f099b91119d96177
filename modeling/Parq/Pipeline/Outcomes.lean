import Parq.Pipeline.LineNumbers
import Parq.Pipeline.Rows
import Parq.Pipeline.Schedule

/-!
# What a run may return

The result of a run is settled by its chunks up to two choices.  When some chunk
fails to parse, the run returns the error of one of the failing chunks, of any of
them, and never a failure of the two threads.  When all chunks are parsed, it
returns `Ok` with the counts of the input, or a failed I/O call of the two threads.
-/

namespace Parq.Pipeline

open Parq.Data
open Parq.Parser
open Parq.Sequence
open Parq.Transition

section Returned

variable {P : Plan} {s target : State P} {e : Error}

/-- The main thread waits for the writer only when all chunks are parsed. -/
theorem Inv.allParsed (inv : Inv s) (past : s.main ≠ .parsing) (clear : s.parseError = none)
    (going : ∀ e, s.main ≠ .returned (.error e)) : P.AllParsed := by
  have finished := inv.ends.main past
  have clean := inv.errors clear going
  rw [Plan.allParsed_iff]
  intro i
  have here := clean i
  cases state : s.closures i with
  | returned => rwa [state] at here
  | skipped =>
      rw [state] at here
      exact here.elim
  | _ =>
      have ended := (allFinished_iff s).mp finished i
      rw [state] at ended
      cases ended

/-- A failure of the two threads is returned only when all chunks are parsed. -/
def Masked (s : State P) : Prop :=
  ∀ e, s.main = .returned (.error e) → P.AllParsed ∨ ∃ i, (P.outcome i).result = .error e

theorem masked_initial (P : Plan) : Masked (.initial P) := by
  intro e returned
  cases returned

theorem Masked.moves {a : Action P} (masked : Masked s) (inv : Inv s) (blamed : Blamed s)
    (moves : Moves s a target) : Masked target := by
  intro e returned
  cases moves with
  | closure moved =>
      rw [moved.frame.1] at returned
      exact masked e returned
  | writer moved =>
      rw [moved.frame.2.1] at returned
      exact masked e returned
  | quarantine moved =>
      rw [moved.frame.2.1] at returned
      exact masked e returned
  | main moved =>
      have justified := inv.justified
      cases moved with
      | abort here finished failed =>
          cases returned
          exact .inr (blamed.recorded e failed)
      | writerFailed here | quarantineFailed here =>
          rw [Justified, here] at justified
          exact .inl (inv.allParsed (by simp [here]) justified.1 (by simp [here]))
      | proceed | joinWriter | joinQuarantine => cases returned

theorem Reached.masked (reached : Reached P s) : Masked s := by
  have both : (Inv s ∧ Blamed s) ∧ Masked s := by
    apply Reachable.invariant ⟨⟨inv_initial P, blamed_initial P⟩, masked_initial P⟩ _ reached
    rintro s a target ⟨⟨inv, blamed⟩, masked⟩ _ stepped
    have moves := moves_of_step stepped
    exact ⟨⟨inv.step stepped, blamed.moves inv.sound inv.ends moves⟩, masked.moves inv blamed moves⟩
  exact both.2

/-- An error that is returned is that of a chunk, or that of a failed I/O call when all
chunks are parsed. -/
theorem Reached.error_cases (reached : Reached P s) (returned : s.main = .returned (.error e)) :
    (∃ i, (P.outcome i).result = .error e) ∨ (P.AllParsed ∧ ∃ f : Fault, e = f.toError) := by
  rcases reached.masked e returned with all | failed
  · rcases reached.blamed.returned e returned with failed | failed | failed
    · exact .inl failed
    · exact .inr ⟨all, reached.failsByFault.writer e failed⟩
    · exact .inr ⟨all, reached.failsByFault.quarantine e failed⟩
  · exact .inl failed

/-- The dead-letter thread has not failed. -/
def QuarantineUnfailed (s : State P) : Prop :=
  ∀ e, s.quarantine ≠ .failed e

theorem QuarantineUnfailed.moves {a : Action P} (unfailed : QuarantineUnfailed s)
    (may : a.FaultFree) (moves : Moves s a target) : QuarantineUnfailed target := by
  cases moves with
  | closure moved =>
      rw [QuarantineUnfailed, moved.frame.2.1]
      exact unfailed
  | writer moved => cases moved <;> exact unfailed
  | quarantine moved =>
      cases moved with
      | fail => exact may.elim
      | _ => intro e failed; cases failed
  | main moved => cases moved <;> exact unfailed

/-- Any failed I/O call may be what a run returns when all chunks are parsed. -/
theorem exists_returned_fault (all : P.AllParsed) (f : Fault) :
    ∃ s, Reached P s ∧ s.main = .returned (.error f.toError) := by
  let failed : State P := { State.initial P with writer := .failed f.toError, channel := [] }
  have fails : Reached P failed :=
    .tail (a := .writer (some f)) .refl trivial rfl
  obtain ⟨target, reached, rest, settled⟩ := fails.can_settle
  rcases settled.main with ⟨result, returned⟩
  refine ⟨target, reached, ?_⟩
  have still : target.writer = .failed f.toError :=
    writer_failed_of_reachable rfl (rest.mono fun _ _ => trivial)
  have unfailed : QuarantineUnfailed target := by
    refine Reachable.invariant ?_
      (fun unfailed may stepped => unfailed.moves may (moves_of_step stepped)) rest
    intro e
    cases started : P.deadLetter <;> simp [failed, State.initial, started]
  cases result with
  | ok metrics =>
      have closed := (reached.completed returned).closed
      rw [still] at closed
      cases closed
  | error e =>
      rcases reached.blamed.returned e returned with ⟨i, refused⟩ | failed | failed
      · rw [all i] at refused
        cases refused
      · rw [still] at failed
        rw [returned, Writer.failed.inj failed]
      · exact absurd failed (unfailed e)

end Returned

/-- `parse_chunk` returns `Ok` on every chunk. -/
def Setup.ParsesAll (S : Setup) : Prop :=
  ∀ chunk ∈ S.chunks, ∃ parsed, (parseChunk S.json S.options S.config.limit chunk).result =
    .ok parsed

theorem Setup.parsesAll_iff (S : Setup) : S.ParsesAll ↔ S.plan.AllParsed := by
  rw [Plan.allParsed_iff]
  constructor
  · exact fun all i => all _ (List.getElem_mem i.isLt)
  · intro all chunk mem
    rcases List.mem_iff_getElem.mp mem with ⟨i, inside, rfl⟩
    exact all ⟨i, inside⟩

theorem Setup.exists_chunk_iff (S : Setup) (e : Error) :
    (∃ i, (S.plan.outcome i).result = .error e) ↔
      ∃ chunk ∈ S.chunks, (parseChunk S.json S.options S.config.limit chunk).result = .error e := by
  constructor
  · rintro ⟨i, failed⟩
    exact ⟨_, List.getElem_mem i.isLt, failed⟩
  · rintro ⟨chunk, mem, failed⟩
    rcases List.mem_iff_getElem.mp mem with ⟨i, inside, rfl⟩
    exact ⟨⟨i, inside⟩, failed⟩

/-- What `run_pipeline` may return once it is prepared, when the pool may start the chunks
in any order. -/
inductive Setup.MayReturn (S : Setup) : Except Error ProcessingMetrics → Prop
  | ok (all : S.ParsesAll) :
      MayReturn S (.ok ⟨S.input.length, S.accepted.length, S.refused.length, S.threads⟩)
  /-- The error of any chunk that fails. -/
  | refused {chunk : Bytes} {e : Error} (mem : chunk ∈ S.chunks)
      (failed : (parseChunk S.json S.options S.config.limit chunk).result = .error e) :
      MayReturn S (.error e)
  /-- A failed I/O call of the writer or the dead-letter thread. -/
  | fault (all : S.ParsesAll) (f : Fault) : MayReturn S (.error f.toError)

theorem Completed.metrics_eq {S : Setup} {s : State S.plan} {metrics : ProcessingMetrics}
    (completed : Completed s metrics) :
    metrics = ⟨S.input.length, S.accepted.length, S.refused.length, S.threads⟩ := by
  have delivered := completed.delivered
  rw [← delivered.processed, ← delivered.errored, completed.metrics]
  rfl

theorem Reached.mayReturn {S : Setup} {s : State S.plan} {result : Except Error ProcessingMetrics}
    (reached : Reached S.plan s) (returned : s.main = .returned result) : S.MayReturn result := by
  cases result with
  | ok metrics =>
      have completed := reached.completed returned
      rw [completed.metrics_eq]
      exact .ok (S.parsesAll_iff.mpr completed.parsed)
  | error e =>
      rcases reached.error_cases returned with failed | ⟨all, f, rfl⟩
      · obtain ⟨chunk, mem, failed⟩ := (S.exists_chunk_iff e).mp failed
        exact .refused mem failed
      · exact .fault (S.parsesAll_iff.mpr all) f

theorem Setup.MayReturn.exists_state {S : Setup} {result : Except Error ProcessingMetrics}
    (may : S.MayReturn result) : ∃ s : State S.plan, Reached S.plan s ∧ s.main =
      .returned result := by
  cases may with
  | ok all =>
      obtain ⟨s, result, reached, returned⟩ := exists_returned_faultFree S.plan
      obtain ⟨metrics, rfl⟩ := ok_of_faultFree (S.parsesAll_iff.mp all) reached returned
      have reached : Reached S.plan s := reached.mono fun _ _ => trivial
      exact ⟨s, reached, (reached.completed returned).metrics_eq ▸ returned⟩
  | refused mem failed =>
      obtain ⟨i, failed⟩ := (S.exists_chunk_iff _).mpr ⟨_, mem, failed⟩
      exact exists_returned failed
  | fault all f => exact exists_returned_fault (S.parsesAll_iff.mp all) f

/-- The interleavings of the threads, with the chunks started in any order, return exactly
these results. -/
theorem returned_iff (S : Setup) (result : Except Error ProcessingMetrics) :
    (∃ s : State S.plan, Reached S.plan s ∧ s.main = .returned result) ↔ S.MayReturn result := by
  constructor
  · rintro ⟨s, reached, returned⟩
    exact reached.mayReturn returned
  · exact fun may => may.exists_state

end Parq.Pipeline
