import Parq.Parser.Core
import Parq.Transition.Core
import Mathlib.Data.List.FinRange

/-!
# The threads of the pipeline

`run_pipeline` after its preparation: rayon runs one closure a chunk on a pool of
workers, a writer thread receives batches over a bounded channel, a dead-letter
thread receives lines over an unbounded one, and the main thread waits for the
closures and joins the two threads.

An action is the next step of one thread.  The step is determined by the state,
except that an I/O call may fault.  A run is therefore one interleaving of the
threads, and all interleavings are runs.
-/

namespace Parq.Pipeline

open Parq.Data
open Parq.Parser
open Parq.Transition

/-- What the threads work on: what `parse_chunk` does with each chunk, and the
sizes that the configuration gives. -/
structure Plan where
  jobs : Nat
  outcome : Fin jobs → ChunkOutcome
  /-- `channel_depth`; `0` is a rendezvous. -/
  depth : Nat
  /-- The threads of the pool. -/
  workers : Nat
  workers_pos : 0 < workers
  /-- Whether there is a dead-letter thread. -/
  deadLetter : Bool
  inputBytes : Nat
  threadsUsed : Nat

/-- The closure passed to `for_each_with`, at work on one chunk. -/
inductive Closure
  /-- No worker has taken the chunk. -/
  | waiting
  /-- About to look at `parse_error`. -/
  | checking
  /-- In `parse_chunk`, with the lines still to be sent to the dead-letter channel. -/
  | quarantining (rest : List Bytes)
  /-- About to add to `total_rows`. -/
  | counting (parsed : Parsed)
  /-- About to add to `error_rows`. -/
  | countingErrors (parsed : Parsed)
  /-- In the loop over `tx.send`, with the batches still to be sent. -/
  | sending (rest : List RecordBatch)
  /-- About to lock `parse_error`. -/
  | recording (e : Error)
  /-- Returned at the look at `parse_error`. -/
  | skipped
  /-- Returned at the end. -/
  | returned

namespace Closure

/-- The closure has returned. -/
def isFinished : Closure → Bool
  | .skipped | .returned => true
  | _ => false

/-- The closure occupies a worker. -/
def isRunning : Closure → Bool
  | .waiting => false
  | c => !c.isFinished

end Closure

/-- The writer thread. -/
inductive Writer (P : Plan)
  /-- In `ParquetStreamWriter::new`. -/
  | creating
  | receiving
  /-- In `write_batch`. -/
  | writing (item : Fin P.jobs × RecordBatch)
  /-- In `close`. -/
  | closing
  | closed
  | failed (e : Error)

/-- The receiver of the batch channel exists. -/
def Writer.isListening {P : Plan} : Writer P → Bool
  | .creating | .receiving | .writing _ => true
  | _ => false

/-- The dead-letter thread. -/
inductive Quarantine (P : Plan)
  | absent
  /-- In `File::create`. -/
  | creating
  | receiving
  /-- In `write_all(&line)`. -/
  | writingLine (item : Fin P.jobs × Bytes)
  /-- In `write_all(b"\n")`. -/
  | writingNewline (item : Fin P.jobs × Bytes)
  | done
  | failed (e : Error)

/-- The receiver of the dead-letter channel exists. -/
def Quarantine.isListening {P : Plan} : Quarantine P → Bool
  | .creating | .receiving | .writingLine _ | .writingNewline _ => true
  | _ => false

/-- `ProcessingMetrics`, without the output size and the durations. -/
structure ProcessingMetrics where
  inputBytes : Nat
  rowsProcessed : Nat
  rowsErrored : Nat
  threadsUsed : Nat

/-- The main thread, from `for_each_with` on. -/
inductive Main
  | parsing
  /-- Joining the writer, with `rows_parsed` and `rows_skipped` loaded. -/
  | joiningWriter (rowsParsed rowsSkipped : Nat)
  | joiningQuarantine (rowsParsed rowsSkipped : Nat)
  | returned (result : Except Error ProcessingMetrics)

/-- The state of all threads and of what they share.  Batches and lines carry the
chunk they come from, which the code does not see; `written` and `quarantined`
record the completed writes. -/
structure State (P : Plan) where
  closures : Fin P.jobs → Closure
  parseError : Option Error
  totalRows : Nat
  errorRows : Nat
  channel : List (Fin P.jobs × RecordBatch)
  writer : Writer P
  written : List (Fin P.jobs × RecordBatch)
  letters : List (Fin P.jobs × Bytes)
  quarantine : Quarantine P
  quarantined : List (Fin P.jobs × Bytes)
  deadLetterFile : Bytes
  main : Main

/-- A failed I/O call. -/
inductive Fault
  | io (message : String)
  | parquet (message : String)

/-- The error that a failed call returns. -/
def Fault.toError : Fault → Error
  | .io message => .io message
  | .parquet message => .parquet message

/-- The thread that moves next. -/
inductive Action (P : Plan)
  | closure (i : Fin P.jobs)
  | writer (fault : Option Fault)
  | quarantine (fault : Option Fault)
  | main

namespace State

variable {P : Plan}

/-- The state when `for_each_with` is entered. -/
def initial (P : Plan) : State P where
  closures := fun _ => .waiting
  parseError := none
  totalRows := 0
  errorRows := 0
  channel := []
  writer := .creating
  written := []
  letters := []
  quarantine := if P.deadLetter then .creating else .absent
  quarantined := []
  deadLetterFile := []
  main := .parsing

/-- Move one closure. -/
def setClosure (s : State P) (i : Fin P.jobs) (c : Closure) : State P :=
  { s with closures := Function.update s.closures i c }

/-- The workers that are occupied. -/
def running (s : State P) : Nat :=
  (List.finRange P.jobs).countP fun i => (s.closures i).isRunning

/-- All closures have returned, and with them all senders are dropped. -/
def allFinished (s : State P) : Bool :=
  (List.finRange P.jobs).all fun i => (s.closures i).isFinished

/-! ## The closures -/

/-- `tx.send(batch)`.  Without a receiver it returns an error, which is only
warned about; on a full channel it blocks, and on a channel of depth `0` until the
writer is at `recv`. -/
def send (s : State P) (i : Fin P.jobs) (batch : RecordBatch) (rest : List RecordBatch) :
    Option (State P) :=
  if !s.writer.isListening then
    some (s.setClosure i (.sending rest))
  else if P.depth = 0 then
    match s.writer with
    | .receiving => some { s.setClosure i (.sending rest) with writer := .writing (i, batch) }
    | _ => none
  else if s.channel.length < P.depth then
    some { s.setClosure i (.sending rest) with channel := s.channel ++ [(i, batch)] }
  else
    none

/-- The next step of the closure for chunk `i`. -/
def stepClosure (s : State P) (i : Fin P.jobs) : Option (State P) :=
  match s.closures i with
  | .waiting => if s.running < P.workers then some (s.setClosure i .checking) else none
  | .checking =>
      match s.parseError with
      | some _ => some (s.setClosure i .skipped)
      | none => some (s.setClosure i (.quarantining (P.outcome i).deadLetters))
  | .quarantining (line :: rest) =>
      let s := s.setClosure i (.quarantining rest)
      some (if s.quarantine.isListening then { s with letters := s.letters ++ [(i, line)] } else s)
  | .quarantining [] =>
      match (P.outcome i).result with
      | .ok parsed => some (s.setClosure i (.counting parsed))
      | .error e => some (s.setClosure i (.recording e))
  | .counting parsed =>
      some { s.setClosure i (.countingErrors parsed) with totalRows := s.totalRows + parsed.rowsOk }
  | .countingErrors parsed =>
      some { s.setClosure i (.sending parsed.batches) with
        errorRows := s.errorRows + parsed.rowsSkipped }
  | .sending (batch :: rest) => s.send i batch rest
  | .sending [] => some (s.setClosure i .returned)
  | .recording e =>
      some { s.setClosure i .returned with parseError := some (s.parseError.getD e) }
  | .skipped | .returned => none

/-! ## The other threads -/

/-- The next step of the writer thread.  Its receiver is dropped, and what is in
the channel with it, when it fails. -/
def stepWriter (s : State P) (fault : Option Fault) : Option (State P) :=
  match s.writer, fault with
  | .creating, none => some { s with writer := .receiving }
  | .receiving, none =>
      match s.channel with
      | item :: rest => some { s with writer := .writing item, channel := rest }
      | [] => if s.allFinished then some { s with writer := .closing } else none
  | .writing item, none => some { s with writer := .receiving, written := s.written ++ [item] }
  | .closing, none => some { s with writer := .closed }
  | .creating, some f | .writing _, some f | .closing, some f =>
      some { s with writer := .failed f.toError, channel := [] }
  | _, _ => none

/-- The next step of the dead-letter thread.  A `write_all` that fails may have written a part
of its bytes; here it writes none of them. -/
def stepQuarantine (s : State P) (fault : Option Fault) : Option (State P) :=
  match s.quarantine, fault with
  | .creating, none => some { s with quarantine := .receiving }
  | .receiving, none =>
      match s.letters with
      | item :: rest => some { s with quarantine := .writingLine item, letters := rest }
      | [] => if s.allFinished then some { s with quarantine := .done } else none
  | .writingLine item, none =>
      some { s with
        quarantine := .writingNewline item
        deadLetterFile := s.deadLetterFile ++ item.2 }
  | .writingNewline item, none =>
      some { s with
        quarantine := .receiving
        deadLetterFile := s.deadLetterFile ++ [newline]
        quarantined := s.quarantined ++ [item] }
  | .creating, some f | .writingLine _, some f | .writingNewline _, some f =>
      some { s with quarantine := .failed f.toError, letters := [] }
  | _, _ => none

/-- The next step of the main thread.  A recorded parse error returns at once and
leaves the two threads behind. -/
def stepMain (s : State P) : Option (State P) :=
  match s.main with
  | .parsing =>
      if s.allFinished then
        match s.parseError with
        | some e => some { s with main := .returned (.error e), parseError := none }
        | none => some { s with main := .joiningWriter s.totalRows s.errorRows }
      else none
  | .joiningWriter rowsParsed rowsSkipped =>
      match s.writer with
      | .closed => some { s with main := .joiningQuarantine rowsParsed rowsSkipped }
      | .failed e => some { s with main := .returned (.error e) }
      | _ => none
  | .joiningQuarantine rowsParsed rowsSkipped =>
      match s.quarantine with
      | .absent | .done =>
          some { s with
            main := .returned (.ok ⟨P.inputBytes, rowsParsed, rowsSkipped, P.threadsUsed⟩) }
      | .failed e => some { s with main := .returned (.error e) }
      | _ => none
  | .returned _ => none

end State

/-- One step of the pipeline. -/
def step (P : Plan) : Step (State P) (Action P)
  | s, .closure i => s.stepClosure i
  | s, .writer fault => s.stepWriter fault
  | s, .quarantine fault => s.stepQuarantine fault
  | s, .main => s.stepMain

/-- An action without a fault. -/
def Action.FaultFree {P : Plan} : Action P → Prop
  | .writer (some _) | .quarantine (some _) => False
  | _ => True

/-- A state that some interleaving of the threads reaches. -/
def Reached (P : Plan) (s : State P) : Prop :=
  Reachable (step P) (fun _ => True) (.initial P) s

end Parq.Pipeline
