import Parq.Drain.Schedule
import Parq.Pipeline.Backpressure

/-!
# The pipeline drains its chunks

To the output file the pipeline is a draining of the batches of its chunks: a worker
opens a chunk, its closure delivers the batches one by one, and returns.  The
dead-letter thread, the counters and the error slot decide when a closure goes on,
not what it delivers.

Every interleaving of the threads follows a draining, and every draining that gives
up no chunk is followed by an interleaving.
-/

namespace Parq.Pipeline

open Parq.Data
open Parq.Parser
open Parq.Sequence
open Parq.Transition

/-- The batches of the chunks, to be delivered by the workers of the pool. -/
abbrev Plan.sources (P : Plan) : Drain.Sources RecordBatch where
  count := P.jobs
  items := fun i => (P.parsed i).batches
  width := P.workers

/-- A closure as a source of batches. -/
def Closure.source (P : Plan) (i : Fin P.jobs) : Closure → Drain.Source RecordBatch
  | .waiting => .idle
  | .checking | .quarantining _ | .counting _ | .countingErrors _ => .opened (P.parsed i).batches
  | .sending rest => .opened rest
  | .recording _ => .opened []
  | .skipped => .closed (P.parsed i).batches
  | .returned => .closed []

variable {P : Plan} {s target : State P} {t : Drain.State P.sources}

theorem isOpen_source (P : Plan) (i : Fin P.jobs) (c : Closure) :
    (c.source P i).isOpen = c.isRunning := by
  cases c <;> rfl

/-- The sources that the closures are. -/
def State.drained (s : State P) : Fin P.jobs → Drain.Source RecordBatch :=
  fun i => (s.closures i).source P i

theorem drained_update (closures : Fin P.jobs → Closure) (i : Fin P.jobs) (c : Closure) :
    (fun j => (Function.update closures i c j).source P j) =
      Function.update (fun j => (closures j).source P j) i (c.source P i) := by
  funext j
  by_cases same : j = i
  · subst same
    rw [Function.update_self, Function.update_self]
  · rw [Function.update_of_ne same, Function.update_of_ne same]

/-- When the open sources are the running closures, there are as many. -/
theorem opened_eq_running
    (same : ∀ i : Fin P.jobs, (t.sources i).isOpen = (s.closures i).isRunning) :
    t.opened = s.running := by
  rw [← card_occupied, State.occupied, Drain.State.opened]
  simp only [same]

/-! ## Every interleaving follows a draining -/

/-- The draining has delivered what the writer has or has had, and, until the writer
fails, no more. -/
structure Follows (s : State P) (t : Drain.State P.sources) : Prop where
  inv : Inv s
  sources : t.sources = s.drained
  written : s.written <+: t.stream
  stream : (∀ e, s.writer ≠ .failed e) → t.stream = s.batchStream

theorem follows_initial (P : Plan) : Follows (.initial P) (.initial P.sources) where
  inv := inv_initial P
  sources := rfl
  written := List.nil_prefix
  stream _ := rfl

/-- A step of the pipeline is followed by steps of the draining. -/
abbrev Followed (target : State P) (t : Drain.State P.sources) : Prop :=
  ∃ t', Reachable (Drain.step P.sources) (fun _ => True) t t' ∧ Follows target t'

theorem drained_setClosure (s : State P) (i : Fin P.jobs) (c : Closure) :
    (s.setClosure i c).drained = Function.update s.drained i (c.source P i) :=
  drained_update s.closures i c

/-- A closure that owes the same as before is the same source. -/
theorem drained_of_source_eq (s : State P) {i : Fin P.jobs} {c : Closure}
    (same : c.source P i = (s.closures i).source P i) : (s.setClosure i c).drained = s.drained := by
  rw [drained_setClosure, same]
  exact Function.update_eq_self i s.drained

section Closure

variable (follows : Follows s t) (inv : Inv target) {i : Fin P.jobs}

include follows inv

/-- Nothing is delivered. -/
theorem Follows.still (drained : target.drained = s.drained) (written : target.written <+: t.stream)
    (stream : (∀ e, target.writer ≠ .failed e) →
      (∀ e, s.writer ≠ .failed e) ∧ target.batchStream = s.batchStream) : Followed target t := by
  refine ⟨t, .refl, inv, follows.sources.trans drained.symm, written, ?_⟩
  intro alive
  rw [(stream alive).2]
  exact follows.stream (stream alive).1

/-- A source is opened, closed or abandoned. -/
theorem Follows.turn {a : Drain.Action P.sources} {source : Drain.Source RecordBatch}
    (moves : Drain.Moves t a (t.setSource i source))
    (drained : target.drained = Function.update s.drained i source)
    (written : target.written = s.written)
    (stream : (∀ e, target.writer ≠ .failed e) →
      (∀ e, s.writer ≠ .failed e) ∧ target.batchStream = s.batchStream) : Followed target t := by
  refine ⟨_, .single trivial (Drain.moves_iff.mp moves), inv, ?_, written ▸ follows.written, ?_⟩
  · rw [drained, ← follows.sources]
    rfl
  · intro alive
    rw [(stream alive).2]
    exact follows.stream (stream alive).1

/-- A batch is delivered: to the writer, as long as it has not failed. -/
theorem Follows.deliver {batch : RecordBatch} {rest : List RecordBatch}
    (here : s.closures i = .sending (batch :: rest))
    (drained : target.drained = Function.update s.drained i (.opened rest))
    (written : target.written = s.written)
    (stream : (∀ e, target.writer ≠ .failed e) →
      (∀ e, s.writer ≠ .failed e) ∧ target.batchStream = s.batchStream ++ [(i, batch)]) :
    Followed target t := by
  have opened : t.sources i = .opened (batch :: rest) := by
    rw [follows.sources, State.drained, here]
    rfl
  refine ⟨_, .single trivial (Drain.moves_iff.mp (.deliver opened)), inv, ?_, ?_, ?_⟩
  · rw [drained, ← follows.sources]
    rfl
  · rw [written]
    exact follows.written.trans (List.prefix_append _ _)
  · intro alive
    rw [(stream alive).2, ← follows.stream (stream alive).1]

omit inv in
theorem Follows.source_eq {c : Closure} (here : s.closures i = c) :
    t.sources i = c.source P i := by
  rw [follows.sources, State.drained, here]

omit inv in
theorem Follows.opened_eq : t.opened = s.running := by
  apply opened_eq_running
  intro i
  rw [follows.sources]
  exact isOpen_source P i (s.closures i)

theorem Follows.closure (moved : ClosureStep i s target) : Followed target t := by
  have sound := follows.inv.sound i
  have running := moved.not_allFinished
  cases moved with
  | take here free =>
      rw [← follows.opened_eq] at free
      exact follows.turn inv (.start (follows.source_eq here) free) (drained_setClosure s i _) rfl
        fun alive => ⟨alive, rfl⟩
  | skip here =>
      exact follows.turn inv (.abandon (follows.source_eq here)) (drained_setClosure s i _) rfl
        fun alive => ⟨alive, rfl⟩
  | finish here | record here =>
      exact follows.turn inv (.close (follows.source_eq here)) (drained_setClosure s i _) rfl
        fun alive => ⟨alive, rfl⟩
  | parse here | quarantine here | lose here | parsed here | countRows here =>
      exact follows.still inv (drained_of_source_eq s (by rw [here]; rfl)) follows.written
        fun alive => ⟨alive, rfl⟩
  | refused here failed =>
      have nothing : (P.parsed i).batches = [] := by rw [P.parsed_of_error failed]
      exact follows.still inv
        (drained_of_source_eq s (by rw [here]; simp only [Closure.source, nothing])) follows.written
        fun alive => ⟨alive, rfl⟩
  | countErrors here =>
      rw [here] at sound
      have parsed := P.parsed_of_ok sound
      exact follows.still inv
        (drained_of_source_eq s (by rw [here]; simp only [Closure.source, parsed])) follows.written
        fun alive => ⟨alive, rfl⟩
  | push here =>
      exact follows.deliver inv here (drained_setClosure s i _) rfl
        fun alive => ⟨alive, (List.append_assoc _ _ _).symm⟩
  | handOver here rendezvous receiving =>
      have empty : s.channel = [] :=
        List.eq_nil_of_length_eq_zero (Nat.le_zero.mp (rendezvous ▸ follows.inv.bounded))
      refine follows.deliver inv here (drained_setClosure s i _) rfl fun _ => ⟨?_, ?_⟩
      · simp [receiving]
      · simp [State.batchStream, receiving, Writer.holding, empty]
  | drop here deaf =>
      refine follows.deliver inv here (drained_setClosure s i _) rfl fun alive => ?_
      rw [follows.inv.ends.writer_listens running alive] at deaf
      cases deaf

theorem Follows.writer {fault : Option Fault} (moved : WriterStep s fault target) :
    Followed target t := by
  cases moved with
  | create here =>
      exact follows.still inv rfl follows.written
        fun _ => ⟨by simp [here], by simp [State.batchStream, here, Writer.holding]⟩
  | receive here waiting =>
      exact follows.still inv rfl follows.written
        fun _ => ⟨by simp [here], by simp [State.batchStream, here, Writer.holding, waiting]⟩
  | disconnect here =>
      exact follows.still inv rfl follows.written
        fun _ => ⟨by simp [here], by simp [State.batchStream, here, Writer.holding]⟩
  | @write item here =>
      have alive : ∀ e, s.writer ≠ .failed e := by simp [here]
      refine follows.still inv rfl ?_
        fun _ => ⟨alive, by simp [State.batchStream, here, Writer.holding]⟩
      rw [follows.stream alive, State.batchStream, here]
      exact List.prefix_append _ _
  | close here =>
      exact follows.still inv rfl follows.written
        fun _ => ⟨by simp [here], by simp [State.batchStream, here, Writer.holding]⟩
  | fail => exact follows.still inv rfl follows.written fun alive => absurd rfl (alive _)

end Closure

theorem Follows.moves {a : Action P} (follows : Follows s t) (inv : Inv target)
    (moves : Moves s a target) : Followed target t := by
  cases moves with
  | closure moved => exact follows.closure inv moved
  | writer moved => exact follows.writer inv moved
  | quarantine moved =>
      cases moved <;> exact follows.still inv rfl follows.written fun alive => ⟨alive, rfl⟩
  | main moved =>
      cases moved <;> exact follows.still inv rfl follows.written fun alive => ⟨alive, rfl⟩

/-- The draining of the chunks simulates the pipeline. -/
theorem simulates_drain (P : Plan) :
    Simulates (step P) (fun _ => True) (Drain.step P.sources) (fun _ => True) Follows :=
  fun _ _ _ _ follows _ stepped =>
    follows.moves (follows.inv.step stepped) (moves_of_step stepped)

/-- Every state that an interleaving reaches follows a state of the draining. -/
theorem Reached.follows (reached : Reached P s) : ∃ t, Drain.Reached P.sources t ∧ Follows s t :=
  (simulates_drain P).reachable (follows_initial P) reached

end Parq.Pipeline
