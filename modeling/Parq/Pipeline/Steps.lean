import Parq.Pipeline.Core

/-!
# What each step of a thread does

One inductive relation for each thread lists its steps, with the condition under
which each is taken and the state it leads to.  Every invariant of the pipeline is
proved from these lists and never from the step functions.
-/

namespace Parq.Pipeline

open Parq.Data
open Parq.Parser

variable {P : Plan} {s target : State P}

/-- The steps of the closure for chunk `i`. -/
inductive ClosureStep (i : Fin P.jobs) (s : State P) : State P → Prop
  | take (here : s.closures i = .waiting) (free : s.running < P.workers) :
      ClosureStep i s (s.setClosure i .checking)
  | skip {e : Error} (here : s.closures i = .checking) (failed : s.parseError = some e) :
      ClosureStep i s (s.setClosure i .skipped)
  | parse (here : s.closures i = .checking) (clear : s.parseError = none) :
      ClosureStep i s (s.setClosure i (.quarantining (P.outcome i).deadLetters))
  | quarantine {line : Bytes} {rest : List Bytes}
      (here : s.closures i = .quarantining (line :: rest))
      (listening : s.quarantine.isListening = true) :
      ClosureStep i s
        { s.setClosure i (.quarantining rest) with letters := s.letters ++ [(i, line)] }
  | lose {line : Bytes} {rest : List Bytes}
      (here : s.closures i = .quarantining (line :: rest))
      (deaf : s.quarantine.isListening = false) :
      ClosureStep i s (s.setClosure i (.quarantining rest))
  | parsed {parsed : Parsed} (here : s.closures i = .quarantining [])
      (succeeded : (P.outcome i).result = .ok parsed) :
      ClosureStep i s (s.setClosure i (.counting parsed))
  | refused {e : Error} (here : s.closures i = .quarantining [])
      (failed : (P.outcome i).result = .error e) :
      ClosureStep i s (s.setClosure i (.recording e))
  | countRows {parsed : Parsed} (here : s.closures i = .counting parsed) :
      ClosureStep i s
        { s.setClosure i (.countingErrors parsed) with totalRows := s.totalRows + parsed.rowsOk }
  | countErrors {parsed : Parsed} (here : s.closures i = .countingErrors parsed) :
      ClosureStep i s
        { s.setClosure i (.sending parsed.batches) with
          errorRows := s.errorRows + parsed.rowsSkipped }
  | push {batch : RecordBatch} {rest : List RecordBatch}
      (here : s.closures i = .sending (batch :: rest))
      (listening : s.writer.isListening = true) (room : s.channel.length < P.depth) :
      ClosureStep i s
        { s.setClosure i (.sending rest) with channel := s.channel ++ [(i, batch)] }
  | handOver {batch : RecordBatch} {rest : List RecordBatch}
      (here : s.closures i = .sending (batch :: rest)) (rendezvous : P.depth = 0)
      (receiving : s.writer = .receiving) :
      ClosureStep i s { s.setClosure i (.sending rest) with writer := .writing (i, batch) }
  | drop {batch : RecordBatch} {rest : List RecordBatch}
      (here : s.closures i = .sending (batch :: rest)) (deaf : s.writer.isListening = false) :
      ClosureStep i s (s.setClosure i (.sending rest))
  | finish (here : s.closures i = .sending []) : ClosureStep i s (s.setClosure i .returned)
  | record {e : Error} (here : s.closures i = .recording e) :
      ClosureStep i s
        { s.setClosure i .returned with parseError := some (s.parseError.getD e) }

/-- The steps of the writer thread. -/
inductive WriterStep (s : State P) : Option Fault → State P → Prop
  | create (here : s.writer = .creating) : WriterStep s none { s with writer := .receiving }
  | receive {item : Fin P.jobs × RecordBatch} {rest : List (Fin P.jobs × RecordBatch)}
      (here : s.writer = .receiving) (waiting : s.channel = item :: rest) :
      WriterStep s none { s with writer := .writing item, channel := rest }
  | disconnect (here : s.writer = .receiving) (empty : s.channel = [])
      (finished : s.allFinished = true) : WriterStep s none { s with writer := .closing }
  | write {item : Fin P.jobs × RecordBatch} (here : s.writer = .writing item) :
      WriterStep s none { s with writer := .receiving, written := s.written ++ [item] }
  | close (here : s.writer = .closing) : WriterStep s none { s with writer := .closed }
  | fail {f : Fault}
      (here : s.writer = .creating ∨ (∃ item, s.writer = .writing item) ∨ s.writer = .closing) :
      WriterStep s (some f) { s with writer := .failed f.toError, channel := [] }

/-- The steps of the dead-letter thread. -/
inductive QuarantineStep (s : State P) : Option Fault → State P → Prop
  | create (here : s.quarantine = .creating) :
      QuarantineStep s none { s with quarantine := .receiving }
  | receive {item : Fin P.jobs × Bytes} {rest : List (Fin P.jobs × Bytes)}
      (here : s.quarantine = .receiving) (waiting : s.letters = item :: rest) :
      QuarantineStep s none { s with quarantine := .writingLine item, letters := rest }
  | disconnect (here : s.quarantine = .receiving) (empty : s.letters = [])
      (finished : s.allFinished = true) : QuarantineStep s none { s with quarantine := .done }
  | writeLine {item : Fin P.jobs × Bytes} (here : s.quarantine = .writingLine item) :
      QuarantineStep s none
        { s with
          quarantine := .writingNewline item
          deadLetterFile := s.deadLetterFile ++ item.2 }
  | writeNewline {item : Fin P.jobs × Bytes} (here : s.quarantine = .writingNewline item) :
      QuarantineStep s none
        { s with
          quarantine := .receiving
          deadLetterFile := s.deadLetterFile ++ [newline]
          quarantined := s.quarantined ++ [item] }
  | fail {f : Fault}
      (here : s.quarantine = .creating ∨ (∃ item, s.quarantine = .writingLine item) ∨
        ∃ item, s.quarantine = .writingNewline item) :
      QuarantineStep s (some f) { s with quarantine := .failed f.toError, letters := [] }

/-- The steps of the main thread. -/
inductive MainStep (s : State P) : State P → Prop
  | abort {e : Error} (here : s.main = .parsing) (finished : s.allFinished = true)
      (failed : s.parseError = some e) :
      MainStep s { s with main := .returned (.error e), parseError := none }
  | proceed (here : s.main = .parsing) (finished : s.allFinished = true)
      (clear : s.parseError = none) :
      MainStep s { s with main := .joiningWriter s.totalRows s.errorRows }
  | joinWriter {rowsParsed rowsSkipped : Nat}
      (here : s.main = .joiningWriter rowsParsed rowsSkipped) (closed : s.writer = .closed) :
      MainStep s { s with main := .joiningQuarantine rowsParsed rowsSkipped }
  | writerFailed {rowsParsed rowsSkipped : Nat} {e : Error}
      (here : s.main = .joiningWriter rowsParsed rowsSkipped) (failed : s.writer = .failed e) :
      MainStep s { s with main := .returned (.error e) }
  | joinQuarantine {rowsParsed rowsSkipped : Nat}
      (here : s.main = .joiningQuarantine rowsParsed rowsSkipped)
      (ended : s.quarantine = .absent ∨ s.quarantine = .done) :
      MainStep s
        { s with
          main := .returned (.ok ⟨P.inputBytes, rowsParsed, rowsSkipped, P.threadsUsed⟩) }
  | quarantineFailed {rowsParsed rowsSkipped : Nat} {e : Error}
      (here : s.main = .joiningQuarantine rowsParsed rowsSkipped)
      (failed : s.quarantine = .failed e) :
      MainStep s { s with main := .returned (.error e) }

/-- The steps of the pipeline. -/
inductive Moves (s : State P) : Action P → State P → Prop
  | closure {i : Fin P.jobs} {target : State P} (moved : ClosureStep i s target) :
      Moves s (.closure i) target
  | writer {fault : Option Fault} {target : State P} (moved : WriterStep s fault target) :
      Moves s (.writer fault) target
  | quarantine {fault : Option Fault} {target : State P} (moved : QuarantineStep s fault target) :
      Moves s (.quarantine fault) target
  | main {target : State P} (moved : MainStep s target) : Moves s .main target

theorem closureStep_of_stepClosure {i : Fin P.jobs} (moved : s.stepClosure i = some target) :
    ClosureStep i s target := by
  unfold State.stepClosure at moved
  split at moved
  · rename_i here
    split at moved
    · rename_i free
      cases moved
      exact .take here free
    · cases moved
  · rename_i here
    split at moved
    · rename_i failed
      cases moved
      exact .skip here failed
    · rename_i clear
      cases moved
      exact .parse here clear
  · rename_i here
    dsimp only at moved
    split at moved
    · rename_i listening
      cases moved
      exact .quarantine here listening
    · rename_i deaf
      cases moved
      exact .lose here (Bool.eq_false_iff.mpr deaf)
  · rename_i here
    split at moved
    · rename_i succeeded
      cases moved
      exact .parsed here succeeded
    · rename_i failed
      cases moved
      exact .refused here failed
  · rename_i here
    cases moved
    exact .countRows here
  · rename_i here
    cases moved
    exact .countErrors here
  · rename_i here
    unfold State.send at moved
    split at moved
    · rename_i deaf
      cases moved
      exact .drop here (by simpa using deaf)
    · rename_i listening
      split at moved
      · rename_i rendezvous
        split at moved
        · rename_i receiving
          cases moved
          exact .handOver here rendezvous receiving
        · cases moved
      · split at moved
        · rename_i room
          cases moved
          exact .push here (by simpa using listening) room
        · cases moved
  · rename_i here
    cases moved
    exact .finish here
  · rename_i here
    cases moved
    exact .record here
  · cases moved
  · cases moved

theorem writerStep_of_stepWriter {fault : Option Fault} (moved : s.stepWriter fault = some target) :
    WriterStep s fault target := by
  unfold State.stepWriter at moved
  split at moved
  · rename_i here
    cases moved
    exact .create here
  · rename_i here
    split at moved
    · rename_i waiting
      cases moved
      exact .receive here waiting
    · rename_i empty
      split at moved
      · rename_i finished
        cases moved
        exact .disconnect here empty finished
      · cases moved
  · rename_i here
    cases moved
    exact .write here
  · rename_i here
    cases moved
    exact .close here
  · rename_i here
    cases moved
    exact .fail (.inl here)
  · rename_i here
    cases moved
    exact .fail (.inr (.inl ⟨_, here⟩))
  · rename_i here
    cases moved
    exact .fail (.inr (.inr here))
  · cases moved

theorem quarantineStep_of_stepQuarantine {fault : Option Fault}
    (moved : s.stepQuarantine fault = some target) : QuarantineStep s fault target := by
  unfold State.stepQuarantine at moved
  split at moved
  · rename_i here
    cases moved
    exact .create here
  · rename_i here
    split at moved
    · rename_i waiting
      cases moved
      exact .receive here waiting
    · rename_i empty
      split at moved
      · rename_i finished
        cases moved
        exact .disconnect here empty finished
      · cases moved
  · rename_i here
    cases moved
    exact .writeLine here
  · rename_i here
    cases moved
    exact .writeNewline here
  · rename_i here
    cases moved
    exact .fail (.inl here)
  · rename_i here
    cases moved
    exact .fail (.inr (.inl ⟨_, here⟩))
  · rename_i here
    cases moved
    exact .fail (.inr (.inr ⟨_, here⟩))
  · cases moved

theorem mainStep_of_stepMain (moved : s.stepMain = some target) : MainStep s target := by
  unfold State.stepMain at moved
  split at moved
  · rename_i here
    split at moved
    · rename_i finished
      split at moved
      · rename_i failed
        cases moved
        exact .abort here finished failed
      · rename_i clear
        cases moved
        exact .proceed here finished clear
    · cases moved
  · rename_i here
    split at moved
    · rename_i closed
      cases moved
      exact .joinWriter here closed
    · rename_i failed
      cases moved
      exact .writerFailed here failed
    · cases moved
  · rename_i here
    split at moved
    · rename_i ended
      cases moved
      exact .joinQuarantine here (.inl ended)
    · rename_i ended
      cases moved
      exact .joinQuarantine here (.inr ended)
    · rename_i failed
      cases moved
      exact .quarantineFailed here failed
    · cases moved
  · cases moved

/-- Every step of the pipeline is on one of the lists. -/
theorem moves_of_step {a : Action P} (moved : step P s a = some target) : Moves s a target := by
  cases a with
  | closure i => exact .closure (closureStep_of_stepClosure moved)
  | writer fault => exact .writer (writerStep_of_stepWriter moved)
  | quarantine fault => exact .quarantine (quarantineStep_of_stepQuarantine moved)
  | main => exact .main (mainStep_of_stepMain moved)

end Parq.Pipeline
