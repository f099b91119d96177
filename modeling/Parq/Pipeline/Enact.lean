import Parq.Pipeline.Draining
import Parq.Pipeline.Schedule

/-!
# Every draining is enacted by the threads

A draining of some chunks that gives up none of them is followed by a run without
faults, when these chunks are parsed: a worker takes the chunk that is opened and brings
its closure to the loop over its batches, a delivered batch goes through the channel to
the file, and the closure of a closed chunk returns.  Between these steps the writer
waits at the empty channel, and the other chunks wait for a worker.
-/

namespace Parq.Pipeline

open Parq.Data
open Parq.Parser
open Parq.Sequence
open Parq.Transition

variable {P : Plan} {s middle target : State P} {chosen : Finset (Fin P.jobs)}

/-- Steps without a fault lead from `s` to `target`. -/
abbrev Goes (s target : State P) : Prop :=
  Reachable (step P) Action.FaultFree s target

theorem Goes.closure {i : Fin P.jobs} (stepped : s.stepClosure i = some target) : Goes s target :=
  .single (a := .closure i) trivial stepped

theorem Goes.writer (stepped : s.stepWriter none = some target) : Goes s target :=
  .single (a := .writer none) trivial stepped

/-! ## Up to the loop over the batches -/

/-- What the writer, the error slot and the main thread hold is as before. -/
structure Keeps (s target : State P) : Prop where
  writer : target.writer = s.writer
  channel : target.channel = s.channel
  written : target.written = s.written
  parseError : target.parseError = s.parseError
  main : target.main = s.main

theorem Keeps.refl (s : State P) : Keeps s s :=
  ⟨rfl, rfl, rfl, rfl, rfl⟩

theorem Keeps.trans (first : Keeps s middle) (rest : Keeps middle target) : Keeps s target where
  writer := rest.writer.trans first.writer
  channel := rest.channel.trans first.channel
  written := rest.written.trans first.written
  parseError := rest.parseError.trans first.parseError
  main := rest.main.trans first.main

/-- The closure for chunk `i` is brought to `c`, and nothing is sent. -/
structure Brings (i : Fin P.jobs) (c : Closure) (s target : State P) : Prop where
  goes : Goes s target
  closures : target.closures = Function.update s.closures i c
  keeps : Keeps s target

section Brings

variable {i : Fin P.jobs} {c c' : Closure}

theorem Brings.here (brings : Brings i c s target) : target.closures i = c := by
  rw [brings.closures, Function.update_self]

theorem Brings.trans (first : Brings i c s middle) (rest : Brings i c' middle target) :
    Brings i c' s target where
  goes := first.goes.trans rest.goes
  closures := by rw [rest.closures, first.closures, Function.update_idem]
  keeps := first.keeps.trans rest.keeps

/-- A step that only moves the closure. -/
theorem brings_setClosure (stepped : s.stepClosure i = some (s.setClosure i c)) :
    Brings i c s (s.setClosure i c) :=
  ⟨.closure stepped, rfl, ⟨rfl, rfl, rfl, rfl, rfl⟩⟩

theorem exists_checking (here : s.closures i = .waiting) (free : s.running < P.workers) :
    ∃ target, Brings i .checking s target :=
  ⟨_, brings_setClosure (by simp only [State.stepClosure, here, if_pos free])⟩

theorem exists_parsing (here : s.closures i = .checking) (clear : s.parseError = none) :
    ∃ target, Brings i (.quarantining (P.outcome i).deadLetters) s target :=
  ⟨_, brings_setClosure (by simp only [State.stepClosure, here, clear])⟩

/-- The rejected lines are got rid of, whether the dead-letter thread listens or not. -/
theorem exists_rid {lines : List Bytes} (here : s.closures i = .quarantining lines) :
    ∃ target, Brings i (.quarantining []) s target := by
  induction lines generalizing s with
  | nil => exact ⟨s, .refl, by rw [← here, Function.update_eq_self], .refl s⟩
  | cons line rest ih =>
      have first : ∃ middle, Brings i (.quarantining rest) s middle := by
        cases listening : s.quarantine.isListening with
        | true =>
            refine
              ⟨{ s.setClosure i (.quarantining rest) with letters := s.letters ++ [(i, line)] },
              .closure (i := i) ?_, rfl, ⟨rfl, rfl, rfl, rfl, rfl⟩⟩
            simp [State.stepClosure, here, listening]
        | false =>
            refine ⟨s.setClosure i (.quarantining rest), brings_setClosure ?_⟩
            simp [State.stepClosure, here, listening]
      obtain ⟨middle, first⟩ := first
      obtain ⟨target, rest⟩ := ih first.here
      exact ⟨target, first.trans rest⟩

theorem exists_counting {parsed : Parsed} (here : s.closures i = .quarantining [])
    (succeeded : (P.outcome i).result = .ok parsed) : ∃ target,
      Brings i (.counting parsed) s target :=
  ⟨_, brings_setClosure (by simp only [State.stepClosure, here, succeeded])⟩

theorem exists_counted {parsed : Parsed} (here : s.closures i = .counting parsed) :
    ∃ target, Brings i (.countingErrors parsed) s target :=
  ⟨{ s.setClosure i (.countingErrors parsed) with totalRows := s.totalRows + parsed.rowsOk },
    .closure (i := i) (by simp only [State.stepClosure, here]), rfl, ⟨rfl, rfl, rfl, rfl, rfl⟩⟩

theorem exists_errorsCounted {parsed : Parsed} (here : s.closures i = .countingErrors parsed) :
    ∃ target, Brings i (.sending parsed.batches) s target :=
  ⟨{ s.setClosure i (.sending parsed.batches) with errorRows := s.errorRows + parsed.rowsSkipped },
    .closure (i := i) (by simp only [State.stepClosure, here]), rfl, ⟨rfl, rfl, rfl, rfl, rfl⟩⟩

/-- A free worker takes a chunk and comes to its batches. -/
theorem exists_sending {parsed : Parsed} (here : s.closures i = .waiting)
    (free : s.running < P.workers) (clear : s.parseError = none)
    (succeeded : (P.outcome i).result = .ok parsed) :
    ∃ target, Brings i (.sending parsed.batches) s target := by
  obtain ⟨first, taken⟩ := exists_checking here free
  obtain ⟨second, begun⟩ := exists_parsing taken.here (taken.keeps.parseError.trans clear)
  obtain ⟨third, quarantined⟩ := exists_rid begun.here
  obtain ⟨fourth, counting⟩ := exists_counting quarantined.here succeeded
  obtain ⟨fifth, counted⟩ := exists_counted counting.here
  obtain ⟨target, sending⟩ := exists_errorsCounted counted.here
  have parsing := ((taken.trans begun).trans quarantined).trans counting
  exact ⟨target, (parsing.trans counted).trans sending⟩

end Brings

/-! ## The steps of a draining -/

/-- The batches of the chosen chunks, to be delivered by the workers of the pool. -/
abbrev Plan.sourcesOf (P : Plan) (chosen : Finset (Fin P.jobs)) : Drain.Sources RecordBatch where
  count := P.jobs
  items := fun i => if i ∈ chosen then (P.parsed i).batches else []
  width := P.workers

/-- The closure of a source, between its steps. -/
def enacted : Drain.Source RecordBatch → Closure
  | .idle => .waiting
  | .opened rest => .sending rest
  | .closed _ => .returned

variable {t : Drain.State (P.sourcesOf chosen)}

/-- The threads are where the draining of the chosen chunks is, the closures of the other
ones wait, and the writer waits at the empty channel. -/
structure Enacts (t : Drain.State (P.sourcesOf chosen)) (s : State P) : Prop where
  closures : ∀ i ∈ chosen, s.closures i = enacted (t.sources i)
  waiting : ∀ i, i ∉ chosen → s.closures i = .waiting
  /-- The draining has nothing of the other chunks. -/
  nothing : ∀ i, i ∉ chosen → (t.sources i).owed [] = []
  receiving : s.writer = .receiving
  empty : s.channel = []
  written : s.written = t.stream
  clear : s.parseError = none
  parsing : s.main = .parsing

theorem Enacts.closure_eq (enacts : Enacts t s) {i : Fin P.jobs} (mem : i ∈ chosen)
    {source : Drain.Source RecordBatch} (here : t.sources i = source) :
    s.closures i = enacted source :=
  (enacts.closures i mem).trans (congrArg enacted here)

/-- The running closures are among the open sources. -/
theorem Enacts.running_le (enacts : Enacts t s) : s.running ≤ t.opened := by
  rw [← card_occupied]
  apply Finset.card_le_card
  intro i
  rw [State.occupied, Finset.mem_filter, Finset.mem_filter]
  rintro ⟨mem, running⟩
  refine ⟨mem, ?_⟩
  by_cases drained : i ∈ chosen
  · rw [enacts.closures i drained] at running
    cases source : t.sources i with
    | opened rest => rfl
    | idle | closed =>
        rw [source] at running
        cases running
  · rw [enacts.waiting i drained] at running
    cases running

/-- The threads follow a step that only moves one closure. -/
theorem Enacts.brings (enacts : Enacts t s) {i : Fin P.jobs} (mem : i ∈ chosen)
    {source : Drain.Source RecordBatch} (brings : Brings i (enacted source) s target) :
    Enacts (t.setSource i source) target where
  closures j chosen_j := by
    by_cases same : j = i
    · subst same
      rw [brings.here, Drain.setSource_sources, Function.update_self]
    · rw [brings.closures, Function.update_of_ne same, enacts.closures j chosen_j,
        Drain.setSource_sources, Function.update_of_ne same]
  waiting j other := by
    rw [brings.closures, Function.update_of_ne (ne_of_mem_of_not_mem mem other).symm]
    exact enacts.waiting j other
  nothing j other := by
    rw [Drain.setSource_sources, Function.update_of_ne (ne_of_mem_of_not_mem mem other).symm]
    exact enacts.nothing j other
  receiving := brings.keeps.writer.trans enacts.receiving
  empty := brings.keeps.channel.trans enacts.empty
  written := brings.keeps.written.trans enacts.written
  clear := brings.keeps.parseError.trans enacts.clear
  parsing := brings.keeps.main.trans enacts.parsing

/-- The threads wait while the draining turns a source without items. -/
theorem Enacts.stays (enacts : Enacts t s) {i : Fin P.jobs} (other : i ∉ chosen)
    {source : Drain.Source RecordBatch} (nothing : source.owed [] = []) :
    Enacts (t.setSource i source) s where
  closures j mem := by
    rw [Drain.setSource_sources, Function.update_of_ne (ne_of_mem_of_not_mem mem other)]
    exact enacts.closures j mem
  waiting := enacts.waiting
  nothing j other_j := by
    rw [Drain.setSource_sources]
    by_cases same : j = i
    · rw [same, Function.update_self]
      exact nothing
    · rw [Function.update_of_ne same]
      exact enacts.nothing j other_j
  receiving := enacts.receiving
  empty := enacts.empty
  written := enacts.written
  clear := enacts.clear
  parsing := enacts.parsing

/-- A batch comes to the writer: through the channel, or from hand to hand. -/
theorem Enacts.goes_writing (enacts : Enacts t s) {i : Fin P.jobs} (mem : i ∈ chosen)
    {batch : RecordBatch} {rest : List RecordBatch} (here : t.sources i = .opened (batch :: rest)) :
    Goes s { s.setClosure i (.sending rest) with writer := .writing (i, batch) } := by
  have sending := enacts.closure_eq mem here
  have listening : s.writer.isListening = true := by rw [enacts.receiving]; rfl
  by_cases rendezvous : P.depth = 0
  · apply Goes.closure (i := i)
    simp only [State.stepClosure, sending, enacted, State.send, if_pos rendezvous,
      enacts.receiving]
    rfl
  · have room : s.channel.length < P.depth := by
      rw [enacts.empty]
      exact Nat.pos_of_ne_zero rendezvous
    have pushed : s.stepClosure i = some
        { s.setClosure i (.sending rest) with channel := s.channel ++ [(i, batch)] } := by
      simp only [State.stepClosure, sending, enacted, State.send, listening, if_neg rendezvous,
        if_pos room]
      rfl
    refine (Goes.closure pushed).trans (Goes.writer ?_)
    simp only [State.stepWriter, State.setClosure, enacts.receiving, enacts.empty, List.nil_append]

/-- A delivered batch is of a chosen chunk. -/
theorem Enacts.mem_of_deliver (enacts : Enacts t s) {i : Fin P.jobs} {batch : RecordBatch}
    {rest : List RecordBatch} (here : t.sources i = .opened (batch :: rest)) : i ∈ chosen := by
  by_contra other
  have nothing := enacts.nothing i other
  rw [here] at nothing
  cases nothing

/-- A delivered batch is written. -/
theorem Enacts.deliver (enacts : Enacts t s) {i : Fin P.jobs} {batch : RecordBatch}
    {rest : List RecordBatch} (here : t.sources i = .opened (batch :: rest)) :
    ∃ target, Goes s target ∧
      Enacts { t.setSource i (.opened rest) with stream := t.stream ++ [(i, batch)] } target := by
  have mem := enacts.mem_of_deliver here
  let writing : State P := { s.setClosure i (.sending rest) with writer := .writing (i, batch) }
  have wrote : writing.stepWriter none = some
      { writing with writer := .receiving, written := s.written ++ [(i, batch)] } := rfl
  refine ⟨_, (enacts.goes_writing mem here).trans (Goes.writer wrote), ?_, ?_, ?_, rfl,
    enacts.empty, ?_, enacts.clear, enacts.parsing⟩
  · intro j chosen_j
    by_cases same : j = i
    · subst same
      rw [Drain.setSource_sources, Function.update_self]
      exact Function.update_self j _ _
    · rw [Drain.setSource_sources, Function.update_of_ne same, ← enacts.closures j chosen_j]
      exact Function.update_of_ne same _ _
  · intro j other
    rw [← enacts.waiting j other]
    exact Function.update_of_ne (ne_of_mem_of_not_mem mem other).symm _ _
  · intro j other
    rw [Drain.setSource_sources, Function.update_of_ne (ne_of_mem_of_not_mem mem other).symm]
    exact enacts.nothing j other
  · rw [enacts.written]

/-- When the chosen chunks are parsed, the threads simulate the drainings that give up none
of them. -/
theorem simulates_step (parsed : ∀ i ∈ chosen, (P.outcome i).result = .ok (P.parsed i)) :
    Simulates (Drain.step (P.sourcesOf chosen)) Drain.Action.Thorough (step P) Action.FaultFree
      Enacts := by
  intro t a t' s enacts thorough stepped
  cases Drain.moves_iff.mpr stepped with
  | @start i here free =>
      by_cases mem : i ∈ chosen
      · have free := Nat.lt_of_le_of_lt enacts.running_le free
        obtain ⟨target, brings⟩ :=
          exists_sending (enacts.closure_eq mem here) free enacts.clear (parsed i mem)
        have items : (P.sourcesOf chosen).items i = (P.parsed i).batches := if_pos mem
        refine ⟨target, brings.goes, enacts.brings mem ?_⟩
        rwa [enacted, items]
      · exact ⟨s, .refl, enacts.stays mem (if_neg mem)⟩
  | deliver here => exact enacts.deliver here
  | @close i here =>
      by_cases mem : i ∈ chosen
      · have finished : Brings i .returned s (s.setClosure i .returned) :=
          brings_setClosure (by simp only [State.stepClosure, enacts.closure_eq mem here, enacted])
        exact ⟨_, finished.goes, enacts.brings mem finished⟩
      · exact ⟨s, .refl, enacts.stays mem rfl⟩
  | abandon => exact thorough.elim

/-! ## Ending a run -/

/-- All closures have returned, and these batches are on their way to the file. -/
structure Spent (stream : List (Fin P.jobs × RecordBatch)) (s : State P) : Prop where
  finished : s.allFinished = true
  stream : s.batchStream = stream

theorem Spent.moves {stream : List (Fin P.jobs × RecordBatch)} {a : Action P}
    (spent : Spent stream s) (may : a.FaultFree) (moves : Moves s a target) :
    Spent stream target := by
  rcases spent with ⟨finished, stream⟩
  cases moves with
  | closure moved => exact absurd finished moved.not_allFinished
  | writer moved =>
      cases moved with
      | create here | disconnect here | write here | close here =>
          refine ⟨finished, ?_⟩
          rw [← stream]
          simp [State.batchStream, here, Writer.holding]
      | receive here waiting =>
          refine ⟨finished, ?_⟩
          rw [← stream]
          simp [State.batchStream, here, Writer.holding, waiting]
      | fail => exact may.elim
  | quarantine moved => cases moved <;> exact ⟨finished, stream⟩
  | main moved => cases moved <;> exact ⟨finished, stream⟩

/-- A run without faults in which all closures have returned ends with the batches on their
way in a closed file. -/
theorem exists_closed_of_spent {stream : List (Fin P.jobs × RecordBatch)}
    (goes : Goes (.initial P) s) (spent : Spent stream s) :
    ∃ target result, Goes s target ∧ target.main = .returned result ∧ target.writer = .closed ∧
      target.written = stream := by
  have reached : Reached P s := goes.mono fun _ _ => trivial
  obtain ⟨target, reached_target, rest, settled⟩ := reached.can_settle
  rcases settled.main with ⟨result, returned⟩
  have closed : target.writer = .closed := by
    rcases settled.writer with closed | ⟨e, failed⟩
    · exact closed
    · exact absurd failed ((healthy_of_faultFree (goes.trans rest)).writer e)
  refine ⟨target, result, rest, returned, closed, ?_⟩
  have last : Spent stream target :=
    Reachable.invariant spent
      (fun spent may stepped => spent.moves may (moves_of_step stepped)) rest
  have empty := (reached_target.inv.ends.writer (.inr closed)).1
  rw [← last.stream, State.batchStream, closed, empty]
  simp [Writer.holding]

/-- Some run without faults delivers the batches of the chosen chunks in any narrow order,
while the other chunks wait. -/
theorem exists_enacted (parsed : ∀ i ∈ chosen, (P.outcome i).result = .ok (P.parsed i))
    {stream : List (Fin P.jobs × RecordBatch)}
    (complete : ∀ i, ofSource i stream = if i ∈ chosen then (P.parsed i).batches else [])
    (narrow : Narrow P.workers stream) :
    ∃ (s : State P) (t : Drain.State (P.sourcesOf chosen)), Goes (.initial P) s ∧ Enacts t s ∧
      t.stream = stream ∧ ∀ i, t.sources i = .closed [] := by
  have created : Goes (.initial P) { State.initial P with writer := .receiving } := Goes.writer rfl
  have enacts : Enacts (.initial (P.sourcesOf chosen))
      { State.initial P with writer := .receiving } :=
    ⟨fun _ _ => rfl, fun _ _ => rfl, fun _ _ => rfl, rfl, rfl, rfl, rfl, rfl⟩
  obtain ⟨t, drained, stream_eq, closed⟩ :=
    Drain.exists_leads (S := P.sourcesOf chosen) complete narrow P.workers_pos
  obtain ⟨s, goes, enacts⟩ := (simulates_step parsed).reachable enacts drained
  exact ⟨s, t, created.trans goes, enacts, stream_eq, closed⟩

/-- Every narrow order of the batches is the order of the file in some run. -/
theorem exists_run_of_narrow (all : P.AllParsed) {stream : List (Fin P.jobs × RecordBatch)}
    (complete : ∀ i, ofSource i stream = (P.parsed i).batches) (narrow : Narrow P.workers stream) :
    ∃ s metrics, Goes (.initial P) s ∧ s.main = .returned (.ok metrics) ∧ s.written = stream := by
  obtain ⟨s, t, goes, enacts, stream_eq, closed⟩ :=
    @exists_enacted P Finset.univ (fun i _ => all i) stream
      (fun i => (complete i).trans (if_pos (Finset.mem_univ i)).symm) narrow
  have spent : Spent stream s := by
    constructor
    · rw [allFinished_iff]
      intro i
      rw [enacts.closure_eq (Finset.mem_univ i) (closed i)]
      rfl
    · rw [State.batchStream, enacts.receiving, enacts.empty, enacts.written, stream_eq]
      simp [Writer.holding]
  obtain ⟨target, result, rest, returned, _, written⟩ := exists_closed_of_spent goes spent
  obtain ⟨metrics, rfl⟩ := ok_of_faultFree all (goes.trans rest) returned
  exact ⟨target, metrics, goes.trans rest, returned, written⟩

end Parq.Pipeline
