import Parq.Pipeline.Invariant

/-!
# Progress and termination

Every step decreases a measure of the work left, so no run is longer than that.  A
state in which nothing is enabled but by a fault is one in which all threads have
ended, so no run blocks before `run_pipeline` returns.
-/

namespace Parq.Pipeline

open Parq.Data
open Parq.Parser
open Parq.Transition

variable {P : Plan} {s target : State P}

/-! ## The work left -/

/-- The work left in a closure.  A line to be sent counts for its way to the file,
and a batch likewise. -/
def Closure.work (P : Plan) (i : Fin P.jobs) : Closure → Nat
  | .waiting => 7 + 4 * (P.outcome i).deadLetters.length + 3 * (P.parsed i).batches.length
  | .checking => 6 + 4 * (P.outcome i).deadLetters.length + 3 * (P.parsed i).batches.length
  | .quarantining rest => 5 + 4 * rest.length + 3 * (P.parsed i).batches.length
  | .counting parsed => 4 + 3 * parsed.batches.length
  | .countingErrors parsed => 3 + 3 * parsed.batches.length
  | .sending rest => 2 + 3 * rest.length
  | .recording _ => 1
  | .skipped | .returned => 0

/-- The work left in the writer thread. -/
def Writer.work : Writer P → Nat
  | .creating | .writing _ => 3
  | .receiving => 2
  | .closing => 1
  | .closed | .failed _ => 0

/-- The work left in the dead-letter thread. -/
def Quarantine.work : Quarantine P → Nat
  | .writingLine _ => 3
  | .creating | .writingNewline _ => 2
  | .receiving => 1
  | .absent | .done | .failed _ => 0

/-- The work left in the main thread. -/
def Main.work : Main → Nat
  | .parsing => 3
  | .joiningWriter _ _ => 2
  | .joiningQuarantine _ _ => 1
  | .returned _ => 0

/-- The work left outside the closures. -/
def State.sharedWork (s : State P) : Nat :=
  2 * s.channel.length + s.writer.work + 3 * s.letters.length + s.quarantine.work + s.main.work

/-- The work left in the pipeline. -/
def State.work (s : State P) : Nat :=
  ∑ i, (s.closures i).work P i + s.sharedWork

/-- Moving one closure decreases the work when it loses more than it hands on. -/
theorem work_update_lt {closures : Fin P.jobs → Closure} {i : Fin P.jobs} {c : Closure}
    {shared shared' : Nat} (less : c.work P i + shared' < (closures i).work P i + shared) :
    ∑ j, (Function.update closures i c j).work P j + shared' <
      ∑ j, (closures j).work P j + shared := by
  have moved := sum_update (Closure.work P) closures i c
  omega

theorem ClosureStep.work_lt {i : Fin P.jobs} (moved : ClosureStep i s target) :
    target.work < s.work := by
  cases moved with
  | take here | skip here | parse here | countRows here | countErrors here | finish here
  | record here =>
      apply work_update_lt
      simp only [here, Closure.work, List.length_nil, State.sharedWork, setClosure_eta]
      omega
  | parsed here succeeded =>
      apply work_update_lt
      simp only [here, Closure.work, P.parsed_of_ok succeeded, State.sharedWork, setClosure_eta]
      omega
  | refused here =>
      apply work_update_lt
      simp only [here, Closure.work, State.sharedWork, setClosure_eta]
      omega
  | quarantine here | lose here | push here | drop here =>
      apply work_update_lt
      simp only [here, Closure.work, List.length_cons, List.length_append, List.length_nil,
        State.sharedWork, setClosure_eta]
      omega
  | handOver here _ receiving =>
      apply work_update_lt
      simp only [here, receiving, Closure.work, Writer.work, List.length_cons, State.sharedWork,
        setClosure_eta]
      omega

/-- What moves no closure decreases the work when it decreases what is left outside. -/
theorem State.work_lt_of_shared (closures : target.closures = s.closures)
    (less : target.sharedWork < s.sharedWork) : target.work < s.work := by
  rw [State.work, State.work, closures]
  exact Nat.add_lt_add_left less _

theorem WriterStep.work_lt {fault : Option Fault} (moved : WriterStep s fault target) :
    target.work < s.work := by
  apply State.work_lt_of_shared
  · cases moved <;> rfl
  · cases moved with
    | receive here waiting =>
        simp only [State.sharedWork, here, waiting, Writer.work, List.length_cons]
        omega
    | fail here =>
        rcases here with here | ⟨item, here⟩ | here <;>
          (simp only [State.sharedWork, here, Writer.work, List.length_nil]; omega)
    | create here | disconnect here | write here | close here =>
        simp only [State.sharedWork, here, Writer.work]
        omega

theorem QuarantineStep.work_lt {fault : Option Fault} (moved : QuarantineStep s fault target) :
    target.work < s.work := by
  apply State.work_lt_of_shared
  · cases moved <;> rfl
  · cases moved with
    | receive here waiting =>
        simp only [State.sharedWork, here, waiting, Quarantine.work, List.length_cons]
        omega
    | fail here =>
        rcases here with here | ⟨item, here⟩ | ⟨item, here⟩ <;>
          (simp only [State.sharedWork, here, Quarantine.work, List.length_nil]; omega)
    | create here | disconnect here | writeLine here | writeNewline here =>
        simp only [State.sharedWork, here, Quarantine.work]
        omega

theorem MainStep.work_lt (moved : MainStep s target) : target.work < s.work := by
  apply State.work_lt_of_shared
  · cases moved <;> rfl
  · cases moved with
    | abort here | proceed here | joinWriter here | writerFailed here | joinQuarantine here
    | quarantineFailed here =>
        simp only [State.sharedWork, here, Main.work]
        omega

/-- Every step leaves less work. -/
theorem work_decreasing (P : Plan) : Decreasing (step P) State.work := by
  intro s a target stepped
  cases moves_of_step stepped with
  | closure moved => exact moved.work_lt
  | writer moved => exact moved.work_lt
  | quarantine moved => exact moved.work_lt
  | main moved => exact moved.work_lt

/-! ## Nothing blocks before the end -/

/-- `tx.send` blocks: the channel is full, and the writer is not at `recv` to take a
batch directly. -/
structure Full (s : State P) : Prop where
  space : P.depth ≤ s.channel.length
  elsewhere : P.depth = 0 → s.writer ≠ .receiving
  listening : s.writer.isListening = true

/-- A closure without a step has returned, waits for a worker, or is blocked in
`tx.send`. -/
theorem blocked_closure {i : Fin P.jobs} (blocked : s.stepClosure i = none) :
    (s.closures i).isFinished = true ∨ (s.closures i = .waiting ∧ P.workers ≤ s.running) ∨
      Full s := by
  unfold State.stepClosure at blocked
  split at blocked
  · rename_i here
    split at blocked
    · cases blocked
    · rename_i busy
      exact .inr (.inl ⟨here, Nat.le_of_not_lt busy⟩)
  · split at blocked <;> cases blocked
  · cases blocked
  · split at blocked <;> cases blocked
  · cases blocked
  · cases blocked
  · unfold State.send at blocked
    split at blocked
    · cases blocked
    · rename_i listening
      split at blocked
      · rename_i rendezvous
        split at blocked
        · cases blocked
        · rename_i elsewhere
          exact .inr (.inr
            ⟨rendezvous ▸ Nat.zero_le _, fun _ => elsewhere, by simpa using listening⟩)
      · rename_i buffered
        split at blocked
        · cases blocked
        · rename_i full
          exact .inr (.inr ⟨Nat.le_of_not_lt full, (absurd · buffered), by simpa using listening⟩)
  · cases blocked
  · cases blocked
  · rename_i here
    exact .inl (by rw [here]; rfl)
  · rename_i here
    exact .inl (by rw [here]; rfl)

/-- A writer without a step has ended, or waits for the closures on an empty
channel. -/
theorem blocked_writer (blocked : s.stepWriter none = none) :
    (s.writer = .closed ∨ ∃ e, s.writer = .failed e) ∨
      (s.writer = .receiving ∧ s.channel = [] ∧ s.allFinished ≠ true) := by
  cases here : s.writer with
  | receiving =>
      cases waiting : s.channel with
      | nil => simp_all [State.stepWriter]
      | cons item rest => simp [State.stepWriter, here, waiting] at blocked
  | closed => exact .inl (.inl rfl)
  | failed e => exact .inl (.inr ⟨e, rfl⟩)
  | _ => simp [State.stepWriter, here] at blocked

theorem blocked_quarantine (blocked : s.stepQuarantine none = none) :
    (s.quarantine = .absent ∨ s.quarantine = .done ∨ ∃ e, s.quarantine = .failed e) ∨
      s.allFinished ≠ true := by
  cases here : s.quarantine with
  | receiving =>
      cases waiting : s.letters with
      | nil => simp_all [State.stepQuarantine]
      | cons item rest => simp [State.stepQuarantine, here, waiting] at blocked
  | absent => exact .inl (.inl rfl)
  | done => exact .inl (.inr (.inl rfl))
  | failed e => exact .inl (.inr (.inr ⟨e, rfl⟩))
  | _ => simp [State.stepQuarantine, here] at blocked

/-- The main thread without a step has returned, if what it joins has ended. -/
theorem blocked_main (blocked : s.stepMain = none) (finished : s.allFinished = true)
    (writer : s.writer = .closed ∨ ∃ e, s.writer = .failed e)
    (quarantine : s.quarantine = .absent ∨ s.quarantine = .done ∨
      ∃ e, s.quarantine = .failed e) : ∃ result, s.main = .returned result := by
  cases here : s.main with
  | parsing =>
      cases slot : s.parseError <;> simp [State.stepMain, here, finished, slot] at blocked
  | joiningWriter =>
      rcases writer with ended | ⟨e, ended⟩ <;> simp [State.stepMain, here, ended] at blocked
  | joiningQuarantine =>
      rcases quarantine with ended | ended | ⟨e, ended⟩ <;>
        simp [State.stepMain, here, ended] at blocked
  | returned result => exact ⟨result, rfl⟩

/-- All threads have ended. -/
structure Settled (s : State P) : Prop where
  finished : s.allFinished = true
  writer : s.writer = .closed ∨ ∃ e, s.writer = .failed e
  quarantine : s.quarantine = .absent ∨ s.quarantine = .done ∨ ∃ e, s.quarantine = .failed e
  main : ∃ result, s.main = .returned result

/-- When no closure runs, the pool has a worker for one that waits. -/
theorem running_eq_zero (idle : ∀ i, (s.closures i).isRunning = false) : s.running = 0 := by
  simp [State.running, idle]

/-- A state in which no thread can move without a fault has nothing left to do. -/
theorem settled_of_quiescent (quiet : Quiescent (step P) Action.FaultFree s) : Settled s := by
  have writer := blocked_writer (quiet (.writer none) trivial)
  have space : ¬ Full s := by
    rintro ⟨space, elsewhere, listening⟩
    rcases writer with (ended | ⟨e, ended⟩) | ⟨receiving, empty, -⟩
    · rw [ended] at listening
      cases listening
    · rw [ended] at listening
      cases listening
    · rw [empty] at space
      exact elsewhere (Nat.le_zero.mp space) receiving
  have stopped : ∀ i, (s.closures i).isFinished = true ∨
      (s.closures i = .waiting ∧ P.workers ≤ s.running) := by
    intro i
    rcases blocked_closure (quiet (.closure i) trivial) with ended | queued | full
    · exact .inl ended
    · exact .inr queued
    · exact absurd full space
  have idle : s.running = 0 := by
    apply running_eq_zero
    intro i
    rcases stopped i with ended | ⟨queued, -⟩
    · cases here : s.closures i <;> simp_all [Closure.isFinished, Closure.isRunning]
    · rw [queued]
      rfl
  have finished : s.allFinished = true := by
    apply (allFinished_iff s).mpr
    intro i
    rcases stopped i with ended | ⟨-, busy⟩
    · exact ended
    · rw [idle] at busy
      exact absurd P.workers_pos (Nat.not_lt.mpr busy)
  have writer := writer.resolve_right fun queued => queued.2.2 finished
  have quarantine : s.quarantine = .absent ∨ s.quarantine = .done ∨
      ∃ e, s.quarantine = .failed e :=
    (blocked_quarantine (quiet (.quarantine none) trivial)).resolve_right (absurd finished)
  exact
    ⟨finished, writer, quarantine, blocked_main (quiet .main trivial) finished writer quarantine⟩

/-- From every state that the pipeline reaches, it can go on until all threads have
ended without a further fault. -/
theorem Reached.can_settle (reached : Reached P s) :
    ∃ target, Reached P target ∧ Reachable (step P) Action.FaultFree s target ∧
      Settled target := by
  obtain ⟨target, rest, quiet⟩ := exists_quiescent (work_decreasing P) Action.FaultFree s
  refine ⟨target, ?_, rest, settled_of_quiescent quiet⟩
  exact Reachable.trans reached (rest.mono fun _ _ => trivial)

end Parq.Pipeline
