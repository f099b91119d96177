import Parq.Pipeline.Steps
import Parq.Sequence.Tagged
import Mathlib.Algebra.BigOperators.Fin
import Mathlib.Logic.Function.Basic

/-!
# Invariants of the threads

Each invariant concerns one thing that the threads share: the batch channel, the
dead-letter channel, the counters and the error slot.  The two channels conserve
what the chunks produce as long as their receiver does not fail.
-/

namespace Parq.Pipeline

open Parq.Data
open Parq.Parser
open Parq.Sequence
open Parq.Transition

variable {P : Plan} {s target : State P}

/-- What `parse_chunk` returns for a chunk, and nothing when it fails. -/
def Plan.parsed (P : Plan) (i : Fin P.jobs) : Parsed :=
  match (P.outcome i).result with
  | .ok parsed => parsed
  | .error _ => ⟨[], 0, 0⟩

theorem Plan.parsed_of_ok {i : Fin P.jobs} {parsed : Parsed}
    (succeeded : (P.outcome i).result = .ok parsed) : P.parsed i = parsed := by
  rw [Plan.parsed, succeeded]

theorem Plan.parsed_of_error {i : Fin P.jobs} {e : Error}
    (failed : (P.outcome i).result = .error e) : P.parsed i = ⟨[], 0, 0⟩ := by
  rw [Plan.parsed, failed]

/-! ## The closures -/

@[simp]
theorem setClosure_closures (s : State P) (i : Fin P.jobs) (c : Closure) :
    (s.setClosure i c).closures = Function.update s.closures i c :=
  rfl

@[simp]
theorem setClosure_eta (s : State P) (i : Fin P.jobs) (c : Closure) :
    s.setClosure i c = { s with closures := Function.update s.closures i c } :=
  rfl

theorem allFinished_iff (s : State P) :
    s.allFinished = true ↔ ∀ i, (s.closures i).isFinished = true := by
  simp [State.allFinished]

/-- A finished closure makes no step. -/
theorem ClosureStep.unfinished {i : Fin P.jobs} (moved : ClosureStep i s target) :
    (s.closures i).isFinished = false := by
  cases moved <;> simp_all [Closure.isFinished]

theorem ClosureStep.not_allFinished {i : Fin P.jobs} (moved : ClosureStep i s target) :
    s.allFinished ≠ true := by
  intro finished
  have here := (allFinished_iff s).mp finished i
  rw [moved.unfinished] at here
  cases here

/-- A property of each closure is kept when the closure that moves has it again. -/
theorem forall_update {holds : Fin P.jobs → Closure → Prop} {closures : Fin P.jobs → Closure}
    (before : ∀ j, holds j (closures j)) {i : Fin P.jobs} {c : Closure} (here : holds i c)
    (j : Fin P.jobs) : holds j (Function.update closures i c j) := by
  by_cases same : j = i
  · subst same
    rwa [Function.update_self]
  · rw [Function.update_of_ne same]
    exact before j

/-- A closure past `parse_chunk` holds what that returned. -/
def Closure.Sound (P : Plan) (i : Fin P.jobs) : Closure → Prop
  | .counting parsed | .countingErrors parsed => (P.outcome i).result = .ok parsed
  | .sending _ => ∃ parsed, (P.outcome i).result = .ok parsed
  | .recording e => (P.outcome i).result = .error e
  | _ => True

/-- All closures hold what `parse_chunk` returned. -/
def Sound (s : State P) : Prop :=
  ∀ i, (s.closures i).Sound P i

theorem sound_initial (P : Plan) : Sound (.initial P) :=
  fun _ => trivial

theorem Sound.moves {a : Action P} (sound : Sound s) (moves : Moves s a target) : Sound target := by
  cases moves with
  | closure moved =>
      rename_i i
      have here := sound i
      cases moved with
      | parsed _ succeeded => exact forall_update sound succeeded
      | refused _ failed => exact forall_update sound failed
      | countRows at_counting =>
          rw [at_counting] at here
          exact forall_update sound here
      | countErrors at_counting =>
          rw [at_counting] at here
          exact forall_update sound ⟨_, here⟩
      | push at_sending | handOver at_sending | drop at_sending =>
          rw [at_sending] at here
          exact forall_update sound here
      | _ => exact forall_update sound trivial
  | writer moved => cases moved <;> exact sound
  | quarantine moved => cases moved <;> exact sound
  | main moved => cases moved <;> exact sound

/-! ## The end of the channels -/

/-- A thread that waits for the closures goes on only when all have returned. -/
structure Ends (s : State P) : Prop where
  main : s.main ≠ .parsing → s.allFinished = true
  writer : s.writer = .closing ∨ s.writer = .closed → s.channel = [] ∧ s.allFinished = true
  quarantine : s.quarantine = .done → s.letters = [] ∧ s.allFinished = true

theorem ends_initial (P : Plan) : Ends (.initial P) where
  main past := absurd rfl past
  writer late := by simp [State.initial] at late
  quarantine late := by
    cases letter : P.deadLetter <;> simp [State.initial, letter] at late

/-- What no closure touches. -/
theorem ClosureStep.frame {i : Fin P.jobs} (moved : ClosureStep i s target) :
    target.main = s.main ∧ target.quarantine = s.quarantine ∧ target.written = s.written ∧
      target.quarantined = s.quarantined ∧ target.deadLetterFile = s.deadLetterFile := by
  cases moved <;> exact ⟨rfl, rfl, rfl, rfl, rfl⟩

theorem Ends.moves {a : Action P} (ends : Ends s) (moves : Moves s a target) : Ends target := by
  cases moves with
  | closure moved =>
      have running := moved.not_allFinished
      rcases moved.frame with ⟨main_eq, quarantine_eq, _⟩
      constructor
      · intro past
        rw [main_eq] at past
        exact absurd (ends.main past) running
      · intro late
        cases moved with
        | handOver => simp at late
        | _ => exact absurd (ends.writer late).2 running
      · intro late
        rw [quarantine_eq] at late
        exact absurd (ends.quarantine late).2 running
  | writer moved =>
      cases moved with
      | disconnect _ empty finished =>
          exact ⟨ends.main, fun _ => ⟨empty, finished⟩, ends.quarantine⟩
      | close here => exact ⟨ends.main, fun _ => ends.writer (.inl here), ends.quarantine⟩
      | _ => exact ⟨ends.main, fun late => by simp at late, ends.quarantine⟩
  | quarantine moved =>
      cases moved with
      | disconnect _ empty finished => exact ⟨ends.main, ends.writer, fun _ => ⟨empty, finished⟩⟩
      | _ => exact ⟨ends.main, ends.writer, fun late => by simp at late⟩
  | main moved =>
      cases moved with
      | abort _ finished | proceed _ finished =>
          exact ⟨fun _ => finished, ends.writer, ends.quarantine⟩
      | joinWriter here | writerFailed here | joinQuarantine here | quarantineFailed here =>
          exact ⟨fun _ => ends.main (by simp [here]), ends.writer, ends.quarantine⟩

/-! ## The batch channel -/

/-- The batches of chunk `i` that its closure has not sent. -/
def Closure.unsent (P : Plan) (i : Fin P.jobs) : Closure → List RecordBatch
  | .sending rest => rest
  | .recording _ | .returned => []
  | _ => (P.parsed i).batches

/-- The batch that the writer has received and not written. -/
def Writer.holding : Writer P → List (Fin P.jobs × RecordBatch)
  | .writing item => [item]
  | _ => []

/-- The batches on their way: written, in the hands of the writer, in the
channel. -/
def State.batchStream (s : State P) : List (Fin P.jobs × RecordBatch) :=
  s.written ++ s.writer.holding ++ s.channel

/-- The channel never holds more batches than its depth. -/
def ChannelBounded (s : State P) : Prop :=
  s.channel.length ≤ P.depth

theorem channelBounded_initial (P : Plan) : ChannelBounded (.initial P) :=
  Nat.zero_le _

theorem ChannelBounded.moves {a : Action P} (bounded : ChannelBounded s)
    (moves : Moves s a target) :
    ChannelBounded target := by
  unfold ChannelBounded at bounded ⊢
  cases moves with
  | closure moved =>
      cases moved with
      | push _ _ room =>
          rw [List.length_append]
          exact room
      | _ => exact bounded
  | writer moved =>
      cases moved with
      | receive _ waiting =>
          rw [waiting, List.length_cons] at bounded
          exact Nat.le_of_succ_le bounded
      | fail => exact Nat.zero_le _
      | _ => exact bounded
  | quarantine moved => cases moved <;> exact bounded
  | main moved => cases moved <;> exact bounded

/-- Until the writer fails, the batches of each chunk are those on their way,
followed by those not sent. -/
def BatchesConserved (s : State P) : Prop :=
  (∀ e, s.writer ≠ .failed e) →
    Merged (fun i => (P.parsed i).batches) (Closure.unsent P) s.batchStream s.closures

theorem batchesConserved_initial (P : Plan) : BatchesConserved (.initial P) :=
  fun _ _ => rfl

/-- A writer that has not failed listens as long as a closure runs. -/
theorem Ends.writer_listens (ends : Ends s) (running : s.allFinished ≠ true)
    (alive : ∀ e, s.writer ≠ .failed e) : s.writer.isListening = true := by
  cases state : s.writer with
  | closing => exact absurd (ends.writer (.inl state)).2 running
  | closed => exact absurd (ends.writer (.inr state)).2 running
  | failed e => exact absurd state (alive e)
  | _ => rfl

theorem BatchesConserved.moves {a : Action P} (conserved : BatchesConserved s) (sound : Sound s)
    (ends : Ends s) (bounded : ChannelBounded s) (moves : Moves s a target) :
    BatchesConserved target := by
  intro alive
  cases moves with
  | @closure i _ moved =>
      have here := sound i
      have running := moved.not_allFinished
      cases moved with
      | @push batch rest at_sending listening room =>
          have sent : Merged _ _ (s.batchStream ++ [(i, batch)])
              (Function.update s.closures i (.sending rest)) :=
            (conserved alive).send (by rw [at_sending]; rfl)
          simpa [State.batchStream] using sent
      | @handOver batch rest at_sending rendezvous receiving =>
          have empty : s.channel = [] := by
            apply List.eq_nil_of_length_eq_zero
            exact Nat.le_zero.mp (rendezvous ▸ bounded)
          have sent : Merged _ _ (s.batchStream ++ [(i, batch)])
              (Function.update s.closures i (.sending rest)) :=
            (conserved (by simp [receiving])).send (by rw [at_sending]; rfl)
          simpa [State.batchStream, receiving, Writer.holding, empty] using sent
      | drop at_sending deaf =>
          rw [ends.writer_listens running alive] at deaf
          cases deaf
      | refused at_end failed =>
          exact (conserved alive).keep
            (by rw [at_end]; simp [Closure.unsent, P.parsed_of_error failed])
      | countErrors at_counting =>
          rw [at_counting] at here
          exact (conserved alive).keep
            (by rw [at_counting]; simp [Closure.unsent, P.parsed_of_ok here])
      | finish at_sending => exact (conserved alive).keep (by rw [at_sending]; rfl)
      | record at_recording => exact (conserved alive).keep (by rw [at_recording]; rfl)
      | take at_start | skip at_start | parse at_start | quarantine at_start | lose at_start
      | parsed at_start | countRows at_start =>
          exact (conserved alive).keep (by rw [at_start]; rfl)
  | writer moved =>
      cases moved with
      | create here | disconnect here | close here =>
          simpa [State.batchStream, here, Writer.holding] using conserved (by simp [here])
      | receive here waiting =>
          simpa [State.batchStream, here, Writer.holding, waiting] using conserved (by simp [here])
      | write here =>
          simpa [State.batchStream, here, Writer.holding] using conserved (by simp [here])
      | fail => exact absurd rfl (alive _)
  | quarantine moved => cases moved <;> exact conserved alive
  | main moved => cases moved <;> exact conserved alive

/-! ## The dead-letter channel -/

/-- The lines of chunk `i` that its closure has not sent. -/
def Closure.unsentLetters (P : Plan) (i : Fin P.jobs) : Closure → List Bytes
  | .quarantining rest => rest
  | .waiting | .checking | .skipped => (P.outcome i).deadLetters
  | _ => []

/-- The line that the dead-letter thread has received and not completed. -/
def Quarantine.holding : Quarantine P → List (Fin P.jobs × Bytes)
  | .writingLine item | .writingNewline item => [item]
  | _ => []

/-- The bytes of the line in progress that are in the file already. -/
def Quarantine.begun : Quarantine P → Bytes
  | .writingNewline item => item.2
  | _ => []

/-- The lines on their way to the dead-letter file. -/
def State.letterStream (s : State P) : List (Fin P.jobs × Bytes) :=
  s.quarantined ++ s.quarantine.holding ++ s.letters

/-- The dead-letter thread exists and has not failed. -/
def Quarantine.Alive (q : Quarantine P) : Prop :=
  q ≠ .absent ∧ ∀ e, q ≠ .failed e

/-- Until the dead-letter thread fails, the rejected lines of each chunk are those
on their way, followed by those not sent. -/
def LettersConserved (s : State P) : Prop :=
  s.quarantine.Alive →
    Merged (fun i => (P.outcome i).deadLetters) (Closure.unsentLetters P) s.letterStream s.closures

theorem lettersConserved_initial (P : Plan) : LettersConserved (.initial P) := by
  intro _ i
  cases letter : P.deadLetter <;>
    simp [State.letterStream, State.initial, letter, Quarantine.holding, Closure.unsentLetters]

theorem Ends.quarantine_listens (ends : Ends s) (running : s.allFinished ≠ true)
    (alive : s.quarantine.Alive) : s.quarantine.isListening = true := by
  cases state : s.quarantine with
  | absent => exact absurd state alive.1
  | done => exact absurd (ends.quarantine state).2 running
  | failed e => exact absurd state (alive.2 e)
  | _ => rfl

theorem LettersConserved.moves {a : Action P} (conserved : LettersConserved s) (ends : Ends s)
    (moves : Moves s a target) : LettersConserved target := by
  intro alive
  cases moves with
  | @closure i _ moved =>
      have running := moved.not_allFinished
      cases moved with
      | @quarantine line rest at_sending listening =>
          have sent : Merged _ _ (s.letterStream ++ [(i, line)])
              (Function.update s.closures i (.quarantining rest)) :=
            (conserved alive).send (by rw [at_sending]; rfl)
          simpa [State.letterStream] using sent
      | lose at_sending deaf =>
          rw [ends.quarantine_listens running alive] at deaf
          cases deaf
      | take here | skip here | parse here | parsed here | refused here | countRows here
      | countErrors here | push here | handOver here | drop here | finish here | record here =>
          exact (conserved alive).keep (by rw [here]; rfl)
  | writer moved => cases moved <;> exact conserved alive
  | quarantine moved =>
      cases moved with
      | create here | disconnect here | writeLine here | writeNewline here =>
          simpa [State.letterStream, here, Quarantine.holding] using
            conserved (by simp [Quarantine.Alive, here])
      | receive here waiting =>
          simpa [State.letterStream, here, Quarantine.holding, waiting] using
            conserved (by simp [Quarantine.Alive, here])
      | fail => exact absurd rfl (alive.2 _)
  | main moved => cases moved <;> exact conserved alive

/-- Until the dead-letter thread fails, the file consists of the completed lines,
each with its newline, and the begun part of the line in progress. -/
def FileWritten (s : State P) : Prop :=
  (∀ e, s.quarantine ≠ .failed e) →
    s.deadLetterFile =
      (s.quarantined.map Prod.snd).flatMap (· ++ [newline]) ++ s.quarantine.begun

theorem fileWritten_initial (P : Plan) : FileWritten (.initial P) := by
  intro _
  cases letter : P.deadLetter <;> simp [State.initial, letter, Quarantine.begun]

theorem FileWritten.moves {a : Action P} (written : FileWritten s) (moves : Moves s a target) :
    FileWritten target := by
  intro alive
  cases moves with
  | closure moved => cases moved <;> exact written alive
  | writer moved => cases moved <;> exact written alive
  | quarantine moved =>
      cases moved with
      | create here | disconnect here | receive here | writeLine here =>
          simpa [here, Quarantine.begun] using written (by simp [here])
      | writeNewline here =>
          have before := written (by simp [here])
          simp [before, here, Quarantine.begun]
      | fail => exact absurd rfl (alive _)
  | main moved => cases moved <;> exact written alive

/-! ## The counters -/

/-- The rows of chunk `i` that are not yet in `total_rows`. -/
def Closure.uncountedRows (P : Plan) (i : Fin P.jobs) : Closure → Nat
  | .waiting | .checking | .quarantining _ | .counting _ | .skipped => (P.parsed i).rowsOk
  | _ => 0

/-- The skipped lines of chunk `i` that are not yet in `error_rows`. -/
def Closure.uncountedErrors (P : Plan) (i : Fin P.jobs) : Closure → Nat
  | .waiting | .checking | .quarantining _ | .counting _ | .countingErrors _ | .skipped =>
      (P.parsed i).rowsSkipped
  | _ => 0

/-- Moving one closure changes a sum over the closures by its own summand. -/
theorem sum_update (weight : Fin P.jobs → Closure → Nat) (closures : Fin P.jobs → Closure)
    (i : Fin P.jobs) (c : Closure) :
    ∑ j, weight j (Function.update closures i c j) + weight i (closures i) =
      ∑ j, weight j (closures j) + weight i c := by
  have rest : ∑ j ∈ Finset.univ.erase i, weight j (Function.update closures i c j) =
      ∑ j ∈ Finset.univ.erase i, weight j (closures j) := by
    apply Finset.sum_congr rfl
    intro j mem
    rw [Function.update_of_ne (Finset.ne_of_mem_erase mem)]
  rw [← Finset.add_sum_erase _ _ (Finset.mem_univ i), rest, Function.update_self,
    ← Finset.add_sum_erase _ (fun j => weight j (closures j)) (Finset.mem_univ i)]
  omega

/-- A counter and what is not counted yet stay balanced when the closure that moves
keeps the balance. -/
theorem balance_update {weight : Fin P.jobs → Closure → Nat} {closures : Fin P.jobs → Closure}
    {count count' total : Nat} (before : count + ∑ j, weight j (closures j) = total)
    {i : Fin P.jobs} {c : Closure} (balance : count' + weight i c = count + weight i (closures i)) :
    count' + ∑ j, weight j (Function.update closures i c j) = total := by
  have moved := sum_update weight closures i c
  omega

/-- Together with what is not counted yet, the counters make up the totals. -/
structure Counted (s : State P) : Prop where
  rows : s.totalRows + ∑ i, (s.closures i).uncountedRows P i = ∑ i, (P.parsed i).rowsOk
  errors : s.errorRows + ∑ i, (s.closures i).uncountedErrors P i = ∑ i, (P.parsed i).rowsSkipped

theorem counted_initial (P : Plan) : Counted (.initial P) where
  rows := Nat.zero_add _
  errors := Nat.zero_add _

theorem Counted.moves {a : Action P} (counted : Counted s) (sound : Sound s)
    (moves : Moves s a target) : Counted target := by
  cases moves with
  | @closure i _ moved =>
      have holds := sound i
      cases moved with
      | refused here failed =>
          constructor
          · apply balance_update counted.rows
            simp [here, Closure.uncountedRows, P.parsed_of_error failed]
          · apply balance_update counted.errors
            simp [here, Closure.uncountedErrors, P.parsed_of_error failed]
      | countRows here =>
          rw [here] at holds
          constructor
          · apply balance_update counted.rows
            simp [here, Closure.uncountedRows, P.parsed_of_ok holds]
          · apply balance_update counted.errors
            simp [here, Closure.uncountedErrors]
      | countErrors here =>
          rw [here] at holds
          constructor
          · apply balance_update counted.rows
            simp [here, Closure.uncountedRows]
          · apply balance_update counted.errors
            simp [here, Closure.uncountedErrors, P.parsed_of_ok holds]
      | take here | skip here | parse here | quarantine here | lose here | parsed here | push here
      | handOver here | drop here | finish here | record here =>
          constructor
          · apply balance_update counted.rows
            simp [here, Closure.uncountedRows]
          · apply balance_update counted.errors
            simp [here, Closure.uncountedErrors]
  | writer moved => cases moved <;> exact ⟨counted.rows, counted.errors⟩
  | quarantine moved => cases moved <;> exact ⟨counted.rows, counted.errors⟩
  | main moved => cases moved <;> exact ⟨counted.rows, counted.errors⟩

/-! ## The error slot and the main thread -/

/-- The closure was not cut short and did not fail. -/
def Closure.Clean (P : Plan) (i : Fin P.jobs) : Closure → Prop
  | .skipped => False
  | .returned => ∃ parsed, (P.outcome i).result = .ok parsed
  | _ => True

/-- As long as no error is recorded or returned, all closures are clean. -/
def ErrorsSeen (s : State P) : Prop :=
  s.parseError = none → (∀ e, s.main ≠ .returned (.error e)) → ∀ i, (s.closures i).Clean P i

theorem errorsSeen_initial (P : Plan) : ErrorsSeen (.initial P) :=
  fun _ _ _ => trivial

theorem ErrorsSeen.moves {a : Action P} (seen : ErrorsSeen s) (sound : Sound s)
    (moves : Moves s a target) : ErrorsSeen target := by
  intro clear going
  cases moves with
  | @closure i _ moved =>
      have here := sound i
      cases moved with
      | skip _ failed =>
          rw [setClosure_eta] at clear
          rw [failed] at clear
          cases clear
      | finish at_sending =>
          rw [at_sending] at here
          exact forall_update (seen clear going) here
      | record => cases clear
      | _ => exact forall_update (seen clear going) trivial
  | writer moved => cases moved <;> exact seen clear going
  | quarantine moved => cases moved <;> exact seen clear going
  | main moved =>
      cases moved with
      | abort | writerFailed | quarantineFailed => exact absurd rfl (going _)
      | proceed here | joinWriter here | joinQuarantine here => exact seen clear (by simp [here])

/-- What the main thread knows at each point: no error was recorded, the loaded
counters are final, and the joined threads ended well. -/
def Main.Justified (s : State P) : Main → Prop
  | .parsing => True
  | .joiningWriter rowsParsed rowsSkipped =>
      s.parseError = none ∧ rowsParsed = s.totalRows ∧ rowsSkipped = s.errorRows
  | .joiningQuarantine rowsParsed rowsSkipped =>
      s.parseError = none ∧ rowsParsed = s.totalRows ∧ rowsSkipped = s.errorRows ∧
        s.writer = .closed
  | .returned (.ok metrics) =>
      s.parseError = none ∧
        metrics = ⟨P.inputBytes, s.totalRows, s.errorRows, P.threadsUsed⟩ ∧
        s.writer = .closed ∧ (s.quarantine = .absent ∨ s.quarantine = .done)
  | .returned (.error _) => True

/-- The main thread's knowledge is right. -/
def Justified (s : State P) : Prop :=
  s.main.Justified s

/-- What the writer thread does not touch, and that it makes no step once closed. -/
theorem WriterStep.frame {fault : Option Fault} (moved : WriterStep s fault target) :
    s.writer ≠ .closed ∧ target.main = s.main ∧ target.parseError = s.parseError ∧
      target.totalRows = s.totalRows ∧ target.errorRows = s.errorRows := by
  cases moved with
  | fail here =>
      refine ⟨?_, rfl, rfl, rfl, rfl⟩
      rcases here with here | ⟨item, here⟩ | here <;> simp [here]
  | create here | receive here | disconnect here | write here | close here =>
      exact ⟨by simp [here], rfl, rfl, rfl, rfl⟩

/-- What the dead-letter thread does not touch, and that it makes no step once it has
ended. -/
theorem QuarantineStep.frame {fault : Option Fault} (moved : QuarantineStep s fault target) :
    ¬ (s.quarantine = .absent ∨ s.quarantine = .done) ∧ target.main = s.main ∧
      target.parseError = s.parseError ∧ target.totalRows = s.totalRows ∧
      target.errorRows = s.errorRows ∧ target.writer = s.writer := by
  cases moved with
  | fail here =>
      refine ⟨?_, rfl, rfl, rfl, rfl, rfl⟩
      rcases here with here | ⟨item, here⟩ | ⟨item, here⟩ <;> simp [here]
  | create here | receive here | disconnect here | writeLine here | writeNewline here =>
      exact ⟨by simp [here], rfl, rfl, rfl, rfl, rfl⟩

theorem Justified.moves {a : Action P} (justified : Justified s) (ends : Ends s)
    (moves : Moves s a target) : Justified target := by
  unfold Justified at justified ⊢
  cases moves with
  | closure moved =>
      have parsing : s.main = .parsing := by
        by_contra past
        exact moved.not_allFinished (ends.main past)
      rw [moved.frame.1, parsing]
      trivial
  | writer moved =>
      rcases moved.frame with ⟨unclosed, main_eq, error_eq, rows_eq, errors_eq⟩
      rw [main_eq]
      cases state : s.main with
      | parsing => trivial
      | joiningWriter rowsParsed rowsSkipped =>
          rw [state] at justified
          simpa only [Main.Justified, error_eq, rows_eq, errors_eq] using justified
      | joiningQuarantine rowsParsed rowsSkipped =>
          rw [state] at justified
          exact absurd justified.2.2.2 unclosed
      | returned result =>
          rw [state] at justified
          cases result with
          | ok metrics => exact absurd justified.2.2.1 unclosed
          | error e => trivial
  | quarantine moved =>
      rcases moved.frame with ⟨unended, main_eq, error_eq, rows_eq, errors_eq, writer_eq⟩
      rw [main_eq]
      cases state : s.main with
      | parsing => trivial
      | joiningWriter rowsParsed rowsSkipped =>
          rw [state] at justified
          simpa only [Main.Justified, error_eq, rows_eq, errors_eq] using justified
      | joiningQuarantine rowsParsed rowsSkipped =>
          rw [state] at justified
          simpa only [Main.Justified, error_eq, rows_eq, errors_eq, writer_eq] using justified
      | returned result =>
          rw [state] at justified
          cases result with
          | ok metrics => exact absurd justified.2.2.2 unended
          | error e => trivial
  | main moved =>
      cases moved with
      | abort | writerFailed | quarantineFailed => trivial
      | proceed _ _ clear => exact ⟨clear, rfl, rfl⟩
      | joinWriter here closed =>
          rw [here] at justified
          exact ⟨justified.1, justified.2.1, justified.2.2, closed⟩
      | joinQuarantine here ended =>
          rw [here] at justified
          rcases justified with ⟨clear, rfl, rfl, closed⟩
          exact ⟨clear, rfl, closed, ended⟩

/-! ## All invariants together -/

/-- The invariants of the pipeline. -/
structure Inv (s : State P) : Prop where
  sound : Sound s
  ends : Ends s
  bounded : ChannelBounded s
  batches : BatchesConserved s
  letters : LettersConserved s
  file : FileWritten s
  counted : Counted s
  errors : ErrorsSeen s
  justified : Justified s

theorem inv_initial (P : Plan) : Inv (.initial P) where
  sound := sound_initial P
  ends := ends_initial P
  bounded := channelBounded_initial P
  batches := batchesConserved_initial P
  letters := lettersConserved_initial P
  file := fileWritten_initial P
  counted := counted_initial P
  errors := errorsSeen_initial P
  justified := trivial

theorem Inv.step {a : Action P} (inv : Inv s) (stepped : step P s a = some target) : Inv target :=
  have moves := moves_of_step stepped
  { sound := inv.sound.moves moves
    ends := inv.ends.moves moves
    bounded := inv.bounded.moves moves
    batches := inv.batches.moves inv.sound inv.ends inv.bounded moves
    letters := inv.letters.moves inv.ends moves
    file := inv.file.moves moves
    counted := inv.counted.moves inv.sound moves
    errors := inv.errors.moves inv.sound moves
    justified := inv.justified.moves inv.ends moves }

/-- Every state that an interleaving reaches satisfies the invariants. -/
theorem Reached.inv (reached : Reached P s) : Inv s :=
  Reachable.invariant (inv_initial P) (fun inv _ stepped => inv.step stepped) reached

end Parq.Pipeline
