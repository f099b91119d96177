import Parq.Pipeline.Order
import Parq.Pipeline.Outcomes

/-!
# What a failing run leaves behind

`run_pipeline` returns the error of a chunk without joining the writer, which goes on as
long as the process does and closes the file.  The file then holds some of the chunks that
parse, each of them whole.  Nothing else is settled: every choice of these chunks in every
narrow order is what some run leaves behind, whichever chunk's error it returns.

No thread is left behind for good: a state in which none can move, not even with a failed
call, is one in which all have ended and nothing is left in the channels.
-/

namespace Parq.Pipeline

open Parq.Data
open Parq.Parser
open Parq.Sequence
open Parq.Transition

section Failing

variable {P : Plan} {s target : State P} {i : Fin P.jobs} {e : Error}

/-! ## The chunk that fails, and the chunks passed over -/

theorem exists_recording (here : s.closures i = .quarantining [])
    (failed : (P.outcome i).result = .error e) : ∃ target, Brings i (.recording e) s target :=
  ⟨_, brings_setClosure (by simp only [State.stepClosure, here, failed])⟩

/-- A free worker takes a chunk that fails and comes to record its error. -/
theorem exists_refused (here : s.closures i = .waiting) (free : s.running < P.workers)
    (clear : s.parseError = none) (failed : (P.outcome i).result = .error e) :
    ∃ target, Brings i (.recording e) s target := by
  obtain ⟨first, taken⟩ := exists_checking here free
  obtain ⟨second, begun⟩ := exists_parsing taken.here (taken.keeps.parseError.trans clear)
  obtain ⟨third, quarantined⟩ := exists_rid begun.here
  obtain ⟨target, recording⟩ := exists_recording quarantined.here failed
  exact ⟨target, ((taken.trans begun).trans quarantined).trans recording⟩

/-- A free worker passes over a chunk once an error is recorded. -/
theorem exists_skipped (here : s.closures i = .waiting) (free : s.running < P.workers)
    (slot : s.parseError = some e) : ∃ target, Brings i .skipped s target := by
  obtain ⟨first, taken⟩ := exists_checking here free
  have slot := taken.keeps.parseError.trans slot
  have skipped : Brings i .skipped first (first.setClosure i .skipped) :=
    brings_setClosure (by simp only [State.stepClosure, taken.here, slot])
  exact ⟨_, taken.trans skipped⟩

/-- No closure runs. -/
def Resting (s : State P) : Prop :=
  ∀ i, (s.closures i).isFinished = true ∨ s.closures i = .waiting

theorem Resting.free (resting : Resting s) : s.running < P.workers := by
  have idle : s.running = 0 := by
    apply running_eq_zero
    intro i
    rcases resting i with finished | waiting
    · cases here : s.closures i <;> simp_all [Closure.isFinished, Closure.isRunning]
    · rw [waiting]
      rfl
  rw [idle]
  exact P.workers_pos

theorem Resting.update (resting : Resting s) {c : Closure} (finished : c.isFinished = true)
    (moved : target.closures = Function.update s.closures i c) : Resting target := by
  intro j
  rw [moved]
  exact @forall_update P (fun _ c => c.isFinished = true ∨ c = .waiting) s.closures resting i c
    (.inl finished) j

/-- The chunks that still wait are passed over one by one. -/
theorem exists_all_skipped (slot : s.parseError = some e) (resting : Resting s)
    {pending : List (Fin P.jobs)} (listed : ∀ i, s.closures i = .waiting → i ∈ pending) :
    ∃ target, Goes s target ∧ Keeps s target ∧ target.allFinished = true := by
  induction pending generalizing s with
  | nil =>
      refine ⟨s, .refl, .refl s, (allFinished_iff s).mpr fun i => ?_⟩
      exact (resting i).resolve_right fun waiting => List.not_mem_nil (listed i waiting)
  | cons i rest ih =>
      by_cases waiting : s.closures i = .waiting
      · obtain ⟨middle, skipped⟩ := exists_skipped waiting resting.free slot
        have fewer : ∀ j, middle.closures j = .waiting → j ∈ rest := by
          intro j waits
          have other : j ≠ i := by
            rintro rfl
            cases skipped.here.symm.trans waits
          rw [skipped.closures, Function.update_of_ne other] at waits
          exact (List.mem_cons.mp (listed j waits)).resolve_left other
        obtain ⟨target, goes, keeps, finished⟩ :=
          ih (skipped.keeps.parseError.trans slot) (resting.update rfl skipped.closures) fewer
        exact ⟨target, skipped.goes.trans goes, skipped.keeps.trans keeps, finished⟩
      · refine ih slot resting fun j waits => ?_
        refine (List.mem_cons.mp (listed j waits)).resolve_left ?_
        rintro rfl
        exact waiting waits

/-! ## What may be left behind -/

/-- When another chunk fails, the chosen ones may be in the closed file, in any narrow
order. -/
theorem exists_left_behind {chosen : Finset (Fin P.jobs)}
    (parsed : ∀ i ∈ chosen, (P.outcome i).result = .ok (P.parsed i))
    {stream : List (Fin P.jobs × RecordBatch)}
    (complete : ∀ i, ofSource i stream = if i ∈ chosen then (P.parsed i).batches else [])
    (narrow : Narrow P.workers stream) (failed : (P.outcome i).result = .error e) :
    ∃ s, Reached P s ∧ s.main = .returned (.error e) ∧ s.writer = .closed ∧
      s.written = stream := by
  obtain ⟨s, t, goes, enacts, stream_eq, closed⟩ := exists_enacted parsed complete narrow
  have other : i ∉ chosen := by
    intro mem
    cases failed.symm.trans (parsed i mem)
  have resting : Resting s := by
    intro j
    by_cases mem : j ∈ chosen
    · rw [enacts.closure_eq mem (closed j)]
      exact .inl rfl
    · exact .inr (enacts.waiting j mem)
  obtain ⟨middle, recording⟩ :=
    exists_refused (enacts.waiting i other) resting.free enacts.clear failed
  -- The closure of the failing chunk returns with its error in the slot.
  let recorded : State P := { middle.setClosure i .returned with parseError := some e }
  have stepped : middle.stepClosure i = some recorded := by
    simp only [State.stepClosure, recording.here, recording.keeps.parseError, enacts.clear,
      Option.getD_none, recorded]
  have rests : Resting recorded := by
    refine resting.update (i := i) (c := .returned) rfl ?_
    exact (congrArg (Function.update · i Closure.returned) recording.closures).trans
      (Function.update_idem _ _ _)
  obtain ⟨last, skipped, keeps, finished⟩ :=
    @exists_all_skipped P recorded e rfl rests (List.finRange P.jobs) fun j _ => List.mem_finRange j
  have spent : Spent stream last := by
    refine ⟨finished, ?_⟩
    have writer := keeps.writer.trans (recording.keeps.writer.trans enacts.receiving)
    have channel := keeps.channel.trans (recording.keeps.channel.trans enacts.empty)
    have written := keeps.written.trans (recording.keeps.written.trans enacts.written)
    rw [State.batchStream, writer, channel, written, stream_eq]
    simp [Writer.holding]
  have going := ((goes.trans recording.goes).trans (Goes.closure stepped)).trans skipped
  obtain ⟨target, result, rest, returned, done, written⟩ := exists_closed_of_spent going spent
  have doomed : Doomed e target := by
    refine Reachable.invariant (.recorded keeps.parseError ?_)
      (fun doomed _ stepped => doomed.moves (moves_of_step stepped)) rest
    exact keeps.main.trans (recording.keeps.main.trans enacts.parsing)
  refine ⟨target, (going.trans rest).mono fun _ _ => trivial, ?_, done, written⟩
  cases doomed with
  | returned returned => exact returned
  | recorded _ parsing => cases parsing.symm.trans returned

/-- A closed file has all batches of a chunk, or none. -/
theorem Reached.whole_or_nothing (reached : Reached P s) (closed : s.writer = .closed)
    (i : Fin P.jobs) : ofSource i s.written = [] ∨
      (P.outcome i).result = .ok (P.parsed i) ∧ ofSource i s.written = (P.parsed i).batches := by
  have inv := reached.inv
  obtain ⟨empty, finished⟩ := inv.ends.writer (.inr closed)
  have merged := inv.batches (by simp [closed]) i
  have stream : s.batchStream = s.written := by
    simp [State.batchStream, closed, Writer.holding, empty]
  rw [stream] at merged
  by_cases cut : s.closures i = .skipped
  · rw [cut] at merged
    exact .inl (List.append_left_eq_self.mp merged)
  · have returned := Closure.eq_returned ((allFinished_iff s).mp finished i) cut
    rw [returned] at merged
    have whole : ofSource i s.written = (P.parsed i).batches :=
      (List.append_nil _).symm.trans merged
    cases outcome : (P.outcome i).result with
    | ok parsed =>
        rw [P.parsed_of_ok outcome] at whole ⊢
        exact .inr ⟨rfl, whole⟩
    | error e =>
        rw [P.parsed_of_error outcome] at whole
        exact .inl whole

end Failing

/-- `run_pipeline` may return this error and leave behind a closed file with these batches
of its chunks, in this order, when the pool may start the chunks in any order. -/
def LeavesBehind (S : Setup) (e : Error) (order : List (Fin S.plan.jobs × RecordBatch)) : Prop :=
  ∃ s : State S.plan, Reached S.plan s ∧ s.main = .returned (.error e) ∧ s.writer = .closed ∧
    s.written = order

/-- When some chunk fails, the closed files that runs leave behind have of each chunk all
batches, if it parses, or none, in a narrow order.  As the pool may start the chunks in any
order, they all occur with the error of every chunk that fails. -/
theorem leavesBehind_iff (S : Setup) (failing : ¬ S.ParsesAll) (e : Error)
    (order : List (Fin S.plan.jobs × RecordBatch)) :
    LeavesBehind S e order ↔
      (∃ chunk ∈ S.chunks, (parseChunk S.json S.options S.config.limit chunk).result = .error e) ∧
        (∀ i : Fin S.plan.jobs, ofSource i order = [] ∨ ∃ parsed,
          (parseChunk S.json S.options S.config.limit (S.chunks.get i)).result = .ok parsed ∧
            ofSource i order = parsed.batches) ∧
        Narrow S.workers order := by
  rw [S.parsesAll_iff] at failing
  rw [← S.exists_chunk_iff]
  constructor
  · rintro ⟨s, reached, returned, closed, rfl⟩
    refine ⟨?_, ?_, reached.written_narrow⟩
    · exact (reached.error_cases returned).resolve_right fun fault => failing fault.1
    · intro i
      exact (reached.whole_or_nothing closed i).imp_right fun both => ⟨_, both⟩
  · rintro ⟨⟨i, failed⟩, each, narrow⟩
    classical
    let chosen : Finset (Fin S.plan.jobs) :=
      Finset.univ.filter fun i => (S.plan.outcome i).result = .ok (S.plan.parsed i) ∧
        ofSource i order = (S.plan.parsed i).batches
    have parsed : ∀ i ∈ chosen, (S.plan.outcome i).result = .ok (S.plan.parsed i) :=
      fun i mem => (Finset.mem_filter.mp mem).2.1
    have complete : ∀ i, ofSource i order =
        if i ∈ chosen then (S.plan.parsed i).batches else [] := by
      intro i
      split
      · rename_i mem
        exact (Finset.mem_filter.mp mem).2.2
      · rename_i other
        refine (each i).resolve_right ?_
        rintro ⟨parsed, succeeded, whole⟩
        have same := S.plan.parsed_of_ok (i := i) succeeded
        rw [← same] at whole
        exact other
          (Finset.mem_filter.mpr ⟨Finset.mem_univ i, (same ▸ succeeded : _ = _), whole⟩)
    exact exists_left_behind parsed complete narrow failed

theorem leavesBehind_two_lines :
    ∃ (S : Setup) (e : Error) (s : State S.plan), ¬ S.ParsesAll ∧ LeavesBehind S e s.written ∧
      s.rowsWritten.length = 1 ∧ Narrow S.workers s.written := by
  let S := Setup.sample .default (ascii "\x7b\"a\":1\x7d\nx")
  let schedule : List (Action S.plan) :=
    .writer none :: List.replicate 7 (.closure ⟨0, by decide⟩) ++ List.replicate 2 (.writer none) ++
      List.replicate 4 (.closure ⟨1, by decide⟩) ++ .main :: List.replicate 2 (.writer none)
  have reached : Reached S.plan _ :=
    reachable_of_run (fun _ _ => trivial) (rfl : run (step S.plan) schedule (.initial _) = some _)
  have failing : ¬ S.ParsesAll := by
    intro all
    obtain ⟨parsed, succeeded⟩ := all (ascii "x") (by decide)
    cases succeeded
  have left : LeavesBehind S _ _ := ⟨_, reached, rfl, rfl, rfl⟩
  exact ⟨S, _, _, failing, left, rfl, ((leavesBehind_iff S failing _ _).mp left).2.2⟩

/-! ## When no thread can move -/

section Rest

variable {P : Plan} {s target : State P}

/-- A channel whose receiver is dropped is empty. -/
structure Drained (s : State P) : Prop where
  channel : s.writer.isListening = false → s.channel = []
  letters : s.quarantine.isListening = false → s.letters = []

theorem drained_initial (P : Plan) : Drained (.initial P) :=
  ⟨fun _ => rfl, fun _ => rfl⟩

theorem Drained.moves {a : Action P} (drained : Drained s) (moves : Moves s a target) :
    Drained target := by
  rcases drained with ⟨channel, letters⟩
  cases moves with
  | closure moved =>
      cases moved with
      | quarantine _ listening =>
          refine ⟨channel, fun deaf => ?_⟩
          cases listening.symm.trans deaf
      | push _ listening =>
          refine ⟨fun deaf => ?_, letters⟩
          cases listening.symm.trans deaf
      | handOver => exact ⟨fun deaf => (by cases deaf), letters⟩
      | _ => exact ⟨channel, letters⟩
  | writer moved =>
      cases moved with
      | disconnect _ empty => exact ⟨fun _ => empty, letters⟩
      | close here => exact ⟨fun _ => channel (by rw [here]; rfl), letters⟩
      | fail => exact ⟨fun _ => rfl, letters⟩
      | create | receive | write => exact ⟨fun deaf => (by cases deaf), letters⟩
  | quarantine moved =>
      cases moved with
      | disconnect _ empty => exact ⟨channel, fun _ => empty⟩
      | fail => exact ⟨channel, fun _ => rfl⟩
      | create | receive | writeLine | writeNewline =>
          exact ⟨channel, fun deaf => (by cases deaf)⟩
  | main moved => cases moved <;> exact ⟨channel, letters⟩

theorem Reached.drained (reached : Reached P s) : Drained s :=
  Reachable.invariant (drained_initial P)
    (fun drained _ stepped => drained.moves (moves_of_step stepped)) reached

/-- When the dead-letter thread has ended well, it has written all lines of a chunk, or
none. -/
theorem Reached.all_lines_or_none (reached : Reached P s) (done : s.quarantine = .done)
    (i : Fin P.jobs) :
    ofSource i s.quarantined = [] ∨ ofSource i s.quarantined = (P.outcome i).deadLetters := by
  have inv := reached.inv
  obtain ⟨empty, finished⟩ := inv.ends.quarantine done
  have merged := inv.letters (by simp [Quarantine.Alive, done]) i
  have stream : s.letterStream = s.quarantined := by
    simp [State.letterStream, done, Quarantine.holding, empty]
  rw [stream] at merged
  by_cases cut : s.closures i = .skipped
  · rw [cut] at merged
    exact .inl (List.append_left_eq_self.mp merged)
  · rw [Closure.eq_returned ((allFinished_iff s).mp finished i) cut] at merged
    exact .inr ((List.append_nil _).symm.trans merged)

/-- All threads have ended, nothing is left in the channels, and what was written without
a failed call is whole. -/
structure AtRest (s : State P) : Prop where
  settled : Settled s
  channel : s.channel = []
  letters : s.letters = []
  batches : s.writer = .closed → ∀ i, ofSource i s.written = [] ∨
    (P.outcome i).result = .ok (P.parsed i) ∧ ofSource i s.written = (P.parsed i).batches
  lines : s.quarantine = .done → ∀ i, ofSource i s.quarantined = [] ∨
    ofSource i s.quarantined = (P.outcome i).deadLetters

theorem Settled.channels (settled : Settled s) (drained : Drained s) :
    s.channel = [] ∧ s.letters = [] := by
  constructor
  · apply drained.channel
    rcases settled.writer with closed | ⟨e, failed⟩
    · rw [closed]
      rfl
    · rw [failed]
      rfl
  · apply drained.letters
    rcases settled.quarantine with absent | done | ⟨e, failed⟩
    · rw [absent]
      rfl
    · rw [done]
      rfl
    · rw [failed]
      rfl

/-- Threads that have ended do not move, and no call of theirs can fail. -/
theorem Settled.still (settled : Settled s) (a : Action P) : step P s a = none := by
  cases a with
  | closure i =>
      have finished := (allFinished_iff s).mp settled.finished i
      cases here : s.closures i with
      | skipped | returned => simp only [step, State.stepClosure, here]
      | _ =>
          rw [here] at finished
          cases finished
  | writer fault =>
      rcases settled.writer with ended | ⟨e, ended⟩ <;> simp [step, State.stepWriter, ended]
  | quarantine fault =>
      rcases settled.quarantine with ended | ended | ⟨e, ended⟩ <;>
        simp [step, State.stepQuarantine, ended]
  | main =>
      rcases settled.main with ⟨result, returned⟩
      simp only [step, State.stepMain, returned]

end Rest

/-- A run cannot go on, not even with a failed call, exactly when all threads have ended,
also those that an error left behind; then nothing is left in the channels, and a closed
output file and a finished dead-letter file have all or nothing of each chunk. -/
theorem comes_to_rest (S : Setup) {s : State S.plan} (reached : Reached S.plan s) :
    (∀ a, step S.plan s a = none) ↔ AtRest s := by
  constructor
  · intro stuck
    have settled := settled_of_quiescent fun a _ => stuck a
    obtain ⟨channel, letters⟩ := settled.channels reached.drained
    exact ⟨settled, channel, letters, reached.whole_or_nothing, reached.all_lines_or_none⟩
  · exact fun rest => rest.settled.still

theorem comes_to_rest_two_lines :
    ∃ (S : Setup) (s : State S.plan) (e : Error), Reached S.plan s ∧
      s.main = .returned (.error e) ∧ AtRest s := by
  let S := Setup.sample .default (ascii "\x7b\"a\":1\x7d\nx")
  let schedule : List (Action S.plan) :=
    .writer none :: List.replicate 4 (.closure ⟨1, by decide⟩) ++
      List.replicate 2 (.closure ⟨0, by decide⟩) ++ .main :: List.replicate 2 (.writer none)
  have reached : Reached S.plan _ :=
    reachable_of_run (fun _ _ => trivial) (rfl : run (step S.plan) schedule (.initial _) = some _)
  refine ⟨S, _, _, reached, rfl, (comes_to_rest S reached).mp fun a => ?_⟩
  cases a with
  | closure i =>
      match i with
      | ⟨0, _⟩ => rfl
      | ⟨1, _⟩ => rfl
  | writer fault => cases fault <;> rfl
  | quarantine fault => cases fault <;> rfl
  | main => rfl

end Parq.Pipeline
