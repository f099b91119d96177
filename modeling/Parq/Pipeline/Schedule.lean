import Parq.Pipeline.Progress
import Parq.Pipeline.Setup

/-!
# What does not depend on the schedule

No interleaving blocks before `run_pipeline` returns, with faults or without.  When no
I/O call fails, what it returns is decided by the chunks: it is an error exactly when
`parse_chunk` fails on some chunk.  The look at `parse_error` that makes workers pass
over chunks costs no error, since a chunk is passed over only after another one has
failed.
-/

namespace Parq.Pipeline

open Parq.Data
open Parq.Parser
open Parq.Transition

variable {P : Plan} {s target : State P}

/-! ## No run blocks -/

/-- The pipeline cannot get stuck: as long as `run_pipeline` has not returned some
thread has a step that is not a fault, every step of every thread leaves less work, and
so no run is longer than the work at its start. -/
theorem never_stuck (P : Plan) :
    (∀ s, Reached P s → (∀ result, s.main ≠ .returned result) →
        ∃ a target, a.FaultFree ∧ step P s a = some target) ∧
      (∀ s a target, step P s a = some target → target.work < s.work) ∧
      ∀ actions s, run (step P) actions (.initial P) = some s →
        actions.length ≤ (State.initial P).work := by
  refine ⟨?_, ?_, ?_⟩
  · intro s _ going
    by_contra stuck
    have quiet : Quiescent (step P) Action.FaultFree s := by
      intro a free
      rw [Option.eq_none_iff_forall_ne_some]
      intro target stepped
      exact stuck ⟨a, target, free, stepped⟩
    obtain ⟨result, returned⟩ := (settled_of_quiescent quiet).main
    exact going result returned
  · intro s a target stepped
    exact work_decreasing P stepped
  · intro actions s ran
    have bounded := length_run_le (work_decreasing P) ran
    omega

/-- With a channel of depth `0` a worker waits to hand over its batch before the writer
listens, and the run goes on. -/
theorem never_stuck_rendezvous :
    ∃ (S : Setup) (s : State S.plan) (i : Fin S.plan.jobs) (batch : RecordBatch),
      S.plan.depth = 0 ∧ Reached S.plan s ∧ s.closures i = .sending [batch] ∧
        step S.plan s (.closure i) = none ∧
        ∃ a target, a.FaultFree ∧ step S.plan s a = some target := by
  let config := { PipelineConfig.default with channelDepth := 0 }
  let S := Setup.sample config (ascii "\x7b\"a\":1\x7d\n\x7b\"a\":true\x7d")
  let schedule : List (Action S.plan) := List.replicate 5 (.closure ⟨0, by decide⟩)
  have reached : Reached S.plan _ :=
    reachable_of_run (fun _ _ => trivial) (rfl : run (step S.plan) schedule (.initial _) = some _)
  refine ⟨S, _, ⟨0, by decide⟩, _, rfl, reached, rfl, rfl, (never_stuck S.plan).1 _ reached ?_⟩
  intro result returned
  cases returned

/-! ## Runs without faults -/

/-- Neither thread has failed. -/
structure Healthy (s : State P) : Prop where
  writer : ∀ e, s.writer ≠ .failed e
  quarantine : ∀ e, s.quarantine ≠ .failed e

theorem healthy_initial (P : Plan) : Healthy (.initial P) where
  writer e failed := by cases failed
  quarantine e := by
    cases started : P.deadLetter <;> simp [State.initial, started]

theorem Healthy.moves {a : Action P} (healthy : Healthy s) (may : a.FaultFree)
    (moves : Moves s a target) : Healthy target := by
  rcases healthy with ⟨writer, quarantine⟩
  cases moves with
  | closure moved =>
      cases moved with
      | handOver => exact ⟨fun e failed => (by cases failed), quarantine⟩
      | _ => exact ⟨writer, quarantine⟩
  | writer moved =>
      cases moved with
      | fail => exact absurd may id
      | _ => exact ⟨fun e failed => (by cases failed), quarantine⟩
  | quarantine moved =>
      cases moved with
      | fail => exact absurd may id
      | _ => exact ⟨writer, fun e failed => (by cases failed)⟩
  | main moved => cases moved <;> exact ⟨writer, quarantine⟩

theorem healthy_of_faultFree
    (reached : Reachable (step P) Action.FaultFree (.initial P) s) : Healthy s :=
  Reachable.invariant (healthy_initial P)
    (fun healthy may stepped => healthy.moves may (moves_of_step stepped)) reached

/-- Some run without faults returns. -/
theorem exists_returned_faultFree (P : Plan) :
    ∃ s result, Reachable (step P) Action.FaultFree (.initial P) s ∧ s.main = .returned result := by
  obtain ⟨s, reached, quiet⟩ :=
    exists_quiescent (work_decreasing P) Action.FaultFree (.initial P)
  obtain ⟨result, returned⟩ := (settled_of_quiescent quiet).main
  exact ⟨s, result, reached, returned⟩

/-- Without a fault and with every chunk parsed, a run can only return `Ok`. -/
theorem ok_of_faultFree (all : P.AllParsed)
    (reached : Reachable (step P) Action.FaultFree (.initial P) s)
    {result : Except Error ProcessingMetrics} (returned : s.main = .returned result) :
    ∃ metrics, result = .ok metrics := by
  cases result with
  | ok metrics => exact ⟨metrics, rfl⟩
  | error e =>
      have healthy := healthy_of_faultFree reached
      have blamed : Blamed s := Reached.blamed (reached.mono fun _ _ => trivial)
      rcases blamed.returned e returned with ⟨i, failed⟩ | failed | failed
      · exact absurd ⟨i, e, failed⟩ all.not_someFailed
      · exact absurd failed (healthy.writer e)
      · exact absurd failed (healthy.quarantine e)

/-- Without a fault and with some chunk that fails, a run can only return an error, and
one that a chunk gives. -/
theorem error_of_faultFree (failed : P.SomeFailed)
    (reached : Reachable (step P) Action.FaultFree (.initial P) s)
    {result : Except Error ProcessingMetrics} (returned : s.main = .returned result) :
    ∃ e, result = .error e := by
  cases result with
  | error e => exact ⟨e, rfl⟩
  | ok metrics =>
      have completed := Reached.completed (reached.mono fun _ _ => trivial) returned
      exact absurd failed completed.parsed.not_someFailed

/-- An error that a run without faults returns is that of some chunk. -/
theorem failed_of_faultFree (reached : Reachable (step P) Action.FaultFree (.initial P) s)
    {e : Error} (returned : s.main = .returned (.error e)) :
    ∃ i, (P.outcome i).result = .error e := by
  have healthy := healthy_of_faultFree reached
  have blamed : Blamed s := Reached.blamed (reached.mono fun _ _ => trivial)
  rcases blamed.returned e returned with failed | failed | failed
  · exact failed
  · exact absurd failed (healthy.writer e)
  · exact absurd failed (healthy.quarantine e)

/-! ## The result does not depend on the schedule -/

/-- Whatever the interleaving, a run on a list of chunks without faults ends, and it
returns an error exactly when the call on some chunk does, the error being the one of
such a call.  A closure is cut short only when some call fails. -/
theorem error_iff_call_fails (J : SerdeJson) (o : ParseOptions) (chunks : Fin P.jobs → Bytes)
    (calls : ∀ i, P.outcome i = parseChunk J o none (chunks i))
    (reached : Reachable (step P) Action.FaultFree (.initial P) s) :
    (Quiescent (step P) Action.FaultFree s → ∃ result, s.main = .returned result) ∧
      (∀ result, s.main = .returned result →
        ((∃ e, result = .error e) ↔ ∃ i e, (parseChunk J o none (chunks i)).result = .error e)) ∧
      (∀ e, s.main = .returned (.error e) →
        ∃ i, (parseChunk J o none (chunks i)).result = .error e) ∧
      ∀ i, s.closures i = .skipped →
        ∃ j e, (parseChunk J o none (chunks j)).result = .error e := by
  simp only [← calls]
  refine ⟨fun quiet => (settled_of_quiescent quiet).main, ?_, ?_, ?_⟩
  · intro result returned
    constructor
    · rintro ⟨e, rfl⟩
      obtain ⟨i, failed⟩ := failed_of_faultFree reached returned
      exact ⟨i, e, failed⟩
    · intro failed
      exact error_of_faultFree failed reached returned
  · intro e returned
    exact failed_of_faultFree reached returned
  · intro i cut
    exact (Reached.blamed (reached.mono fun _ _ => trivial)).cut i cut

/-- On a good chunk and a malformed one, a run that starts with the good one returns
the error of the other. -/
theorem error_iff_call_fails_two_chunks :
    ∃ (S : Setup) (s : State S.plan) (e : Error),
      Reachable (step S.plan) Action.FaultFree (.initial S.plan) s ∧
        s.main = .returned (.error e) ∧
        ∃ i, (parseChunk S.json S.options none (S.chunks.get i)).result = .error e := by
  let S := Setup.sample .default (ascii "\x7b\"a\":1\x7d\nx")
  let schedule : List (Action S.plan) :=
    .writer none :: List.replicate 7 (.closure ⟨0, by decide⟩) ++
      List.replicate 4 (.closure ⟨1, by decide⟩) ++ [.main]
  have free : ∀ a ∈ schedule, a.FaultFree := by
    simp [schedule, Action.FaultFree, or_imp, forall_and]
  have reached : Reachable (step S.plan) Action.FaultFree (.initial S.plan) _ :=
    reachable_of_run free (rfl : run (step S.plan) schedule (.initial _) = some _)
  obtain ⟨_, _, genuine, _⟩ :=
    error_iff_call_fails S.json S.options S.chunks.get (fun _ => rfl) reached
  obtain ⟨i, failed⟩ := genuine _ rfl
  exact ⟨S, _, _, reached, rfl, i, failed⟩

end Parq.Pipeline
