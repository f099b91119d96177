import Parq.Parser.Quarantine
import Parq.Pipeline.Progress
import Parq.Pipeline.Setup

/-!
# Runs cut short by a parse error

A recorded parse error makes the closures return and the senders go away, which the
writer cannot tell from the end of the data: it closes the file with what it has.
When some chunk fails to parse, one interleaving closes the file without a row.
-/

namespace Parq.Pipeline

open Parq.Data
open Parq.Parser
open Parq.Sequence
open Parq.Transition

variable {P : Plan} {s target : State P} {i : Fin P.jobs}

/-! ## The chunk that fails goes first -/

/-- The closure has not got past `parse_chunk`. -/
def Closure.isEarly : Closure → Bool
  | .waiting | .checking | .quarantining _ | .recording _ => true
  | _ => false

/-- Only the closure for chunk `i` has moved, and without success. -/
structure Failing (i : Fin P.jobs) (s : State P) : Prop where
  others : ∀ j, j ≠ i → s.closures j = .waiting
  own : (s.closures i).isEarly = true ∨
    (s.closures i).isFinished = true ∧ ∃ e, s.parseError = some e
  written : s.written = []
  channel : s.channel = []
  writer : s.writer = .creating

theorem failing_initial (i : Fin P.jobs) : Failing i (.initial P) where
  others _ _ := rfl
  own := .inl rfl
  written := rfl
  channel := rfl
  writer := rfl

theorem Failing.moves {e : Error} (failing : Failing i s) (failed : (P.outcome i).result = .error e)
    (moved : ClosureStep i s target) : Failing i target := by
  rcases failing with ⟨others, own, written, channel, writer⟩
  have apart (c : Closure) : ∀ j, j ≠ i → (s.setClosure i c).closures j = .waiting := by
    intro j ne
    rw [setClosure_closures, Function.update_of_ne ne]
    exact others j ne
  cases moved with
  | take | parse | refused | quarantine | lose =>
      exact ⟨apart _, .inl (by simp [Closure.isEarly]), written, channel, writer⟩
  | skip _ recorded =>
      exact ⟨apart _, .inr ⟨by simp [Closure.isFinished], _, recorded⟩, written, channel, writer⟩
  | record =>
      exact ⟨apart _, .inr ⟨by simp [Closure.isFinished], _, rfl⟩, written, channel, writer⟩
  | parsed _ succeeded =>
      rw [failed] at succeeded
      cases succeeded
  | countRows here | countErrors here | push here | handOver here | drop here | finish here =>
      simp [here, Closure.isEarly, Closure.isFinished] at own

/-- With nothing else running, the closure can go on until it has returned. -/
theorem Failing.finished {e : Error} (failing : Failing i s)
    (failed : (P.outcome i).result = .error e) (blocked : s.stepClosure i = none) :
    (s.closures i).isFinished = true ∧ ∃ e, s.parseError = some e := by
  apply failing.own.resolve_left
  intro early
  cases here : s.closures i with
  | waiting =>
      have idle : s.running = 0 := by
        apply running_eq_zero
        intro j
        by_cases same : j = i
        · rw [same, here]
          rfl
        · rw [failing.others j same]
          rfl
      simp [State.stepClosure, here, idle, P.workers_pos] at blocked
  | checking => cases slot : s.parseError <;> simp [State.stepClosure, here, slot] at blocked
  | quarantining rest =>
      cases rest with
      | nil => simp [State.stepClosure, here, failed] at blocked
      | cons line rest => simp [State.stepClosure, here] at blocked
  | recording => simp [State.stepClosure, here] at blocked
  | _ => simp [here, Closure.isEarly] at early

/-- The only error recorded is `e`, and the main thread still waits. -/
structure OnlyRecorded (e : Error) (s : State P) : Prop where
  recorded : ∀ e', s.parseError = some e' → e' = e
  parsing : s.main = .parsing

theorem onlyRecorded_initial (e : Error) : OnlyRecorded e (.initial P) where
  recorded := by
    intro e' recorded
    cases recorded
  parsing := rfl

theorem OnlyRecorded.moves {e : Error} (only : OnlyRecorded e s) (sound : Sound s)
    (failed : (P.outcome i).result = .error e) (moved : ClosureStep i s target) :
    OnlyRecorded e target := by
  have here := sound i
  have parsing : target.main = .parsing := moved.frame.1.trans only.parsing
  cases moved with
  | @record e' at_recording =>
      rw [at_recording] at here
      obtain rfl : e' = e := by
        rw [Closure.Sound, failed] at here
        exact (Except.error.inj here).symm
      refine ⟨?_, parsing⟩
      intro other recorded
      cases slot : s.parseError with
      | none =>
          simp only [slot, Option.getD_none, Option.some.injEq] at recorded
          exact recorded.symm
      | some first =>
          simp only [slot, Option.getD_some, Option.some.injEq] at recorded
          exact recorded ▸ only.recorded first slot
  | _ => exact ⟨only.recorded, parsing⟩

/-- Some interleaving starts with the chunk that fails, and records its error. -/
theorem exists_failing {e : Error} (failed : (P.outcome i).result = .error e) :
    ∃ s, Reached P s ∧ Failing i s ∧ (s.closures i).isFinished = true ∧ s.parseError = some e ∧
      s.main = .parsing := by
  obtain ⟨s, reached, quiet⟩ :=
    exists_quiescent (work_decreasing P) (· = Action.closure i) (.initial P)
  have all : Failing i s ∧ Sound s ∧ OnlyRecorded e s := by
    apply Reachable.invariant ⟨failing_initial i, sound_initial P, onlyRecorded_initial e⟩ _ reached
    rintro s a target ⟨failing, sound, only⟩ rfl stepped
    have moves := moves_of_step stepped
    cases moves with
    | closure moved =>
        exact
          ⟨failing.moves failed moved, sound.moves (.closure moved), only.moves sound failed moved⟩
  rcases all with ⟨failing, _, only⟩
  obtain ⟨finished, e', recorded⟩ := failing.finished failed (quiet _ rfl)
  rw [only.recorded e' recorded] at recorded
  exact ⟨s, reached.mono (fun _ _ => trivial), failing, finished, recorded, only.parsing⟩

/-! ## The rest is skipped -/

/-- The closure holds nothing that will reach the file. -/
def Closure.isHalted : Closure → Bool
  | .waiting | .checking | .skipped | .returned => true
  | _ => false

/-- A parse error is recorded, and nothing is on its way to the file. -/
structure Aborting (s : State P) : Prop where
  halted : ∀ j, (s.closures j).isHalted = true
  stopped : s.allFinished = true ∨ ∃ e, s.parseError = some e
  written : s.written = []
  channel : s.channel = []
  holding : s.writer.holding = []
  alive : ∀ e, s.writer ≠ .failed e

theorem Failing.aborting (failing : Failing i s) (finished : (s.closures i).isFinished = true)
    (recorded : ∃ e, s.parseError = some e) : Aborting s where
  halted j := by
    by_cases same : j = i
    · subst same
      cases here : s.closures j <;> simp_all [Closure.isFinished, Closure.isHalted]
    · rw [failing.others j same]
      rfl
  stopped := .inr recorded
  written := failing.written
  channel := failing.channel
  holding := by rw [failing.writer]; rfl
  alive e := by simp [failing.writer]

theorem Aborting.moves {a : Action P} (aborting : Aborting s) (may : a.FaultFree)
    (moves : Moves s a target) : Aborting target := by
  rcases aborting with ⟨halted, stopped, written, channel, holding, alive⟩
  cases moves with
  | @closure i _ moved =>
      have recorded := stopped.resolve_left moved.not_allFinished
      have here := halted i
      have halted {c : Closure} (next : c.isHalted = true) (j : Fin P.jobs) :
          (Function.update s.closures i c j).isHalted = true :=
        @forall_update P (fun _ c => c.isHalted = true) s.closures halted i c next j
      cases moved with
      | take | skip => exact ⟨halted rfl, .inr recorded, written, channel, holding, alive⟩
      | parse _ clear =>
          rcases recorded with ⟨e, recorded⟩
          rw [clear] at recorded
          cases recorded
      | quarantine state | lose state | parsed state | refused state | countRows state
      | countErrors state | push state | handOver state | drop state | finish state
      | record state => simp [state, Closure.isHalted] at here
  | writer moved =>
      cases moved with
      | create | disconnect | close =>
          exact ⟨halted, stopped, written, channel, rfl, fun e failed => (by cases failed)⟩
      | receive _ waiting => simp [channel] at waiting
      | write here => simp [here, Writer.holding] at holding
      | fail => exact absurd may id
  | quarantine moved => cases moved <;> exact ⟨halted, stopped, written, channel, holding, alive⟩
  | main moved =>
      cases moved with
      | abort _ finished => exact ⟨halted, .inl finished, written, channel, holding, alive⟩
      | _ => exact ⟨halted, stopped, written, channel, holding, alive⟩

/-- When some chunk fails to parse, some interleaving closes the file without a
row. -/
theorem exists_empty_file (failed : P.SomeFailed) :
    ∃ s, Reached P s ∧ s.writer = .closed ∧ s.written = [] := by
  rcases failed with ⟨i, e, failed⟩
  obtain ⟨s, reached, failing, finished, recorded, _⟩ := exists_failing failed
  obtain ⟨target, rest, quiet⟩ := exists_quiescent (work_decreasing P) Action.FaultFree s
  have aborting : Aborting target := by
    apply Reachable.invariant (failing.aborting finished ⟨e, recorded⟩) _ rest
    intro s a target aborting may stepped
    exact aborting.moves may (moves_of_step stepped)
  have closed : target.writer = .closed := by
    rcases (settled_of_quiescent quiet).writer with closed | ⟨e, dead⟩
    · exact closed
    · exact absurd dead (aborting.alive e)
  exact ⟨target, reached.trans (rest.mono fun _ _ => trivial), closed, aborting.written⟩

/-! ## Closed files -/

variable {S : Setup}

/-- A run whose input has no record writes nothing. -/
theorem written_eq_nil {s : State S.plan} (unlimited : S.config.limit = none)
    (barren : S.records = []) (reached : Reached S.plan s) (alive : ∀ e, s.writer ≠ .failed e) :
    s.written = [] := by
  rw [← S.accepted_eq unlimited, Setup.accepted, List.flatMap_eq_nil_iff] at barren
  have nothing : ∀ i, (S.plan.parsed i).batches = [] := by
    intro i
    cases outcome : (S.plan.outcome i).result with
    | error e => rw [S.plan.parsed_of_error outcome]
    | ok parsed =>
        rw [S.plan.parsed_of_ok outcome]
        exact (parseChunk_eq_ok outcome).1.batches_eq_nil (barren _ (List.getElem_mem i.isLt))
  have none_of : ∀ i, ofSource i s.written = (S.plan.parsed i).batches := by
    intro i
    have merged := reached.inv.batches alive i
    simp only [State.batchStream, ofSource_append, nothing, List.append_eq_nil_iff] at merged
    rw [merged.1.1.1, nothing]
  have perm := written_perm none_of
  have empty : S.plan.allBatches = [] := by simp [Plan.allBatches, nothing]
  rw [empty] at perm
  exact List.map_eq_nil_iff.mp perm.eq_nil

/-- Whenever the writer closes the file, it holds the rows of all records of the
input. -/
def NeverPartial (S : Setup) : Prop :=
  ∀ s : State S.plan, Reached S.plan s → s.writer = .closed →
    s.rowsWritten.Perm (S.records.map S.row)

/-- No interleaving closes a partial file exactly when every line of the input is
acceptable or no line is a record. -/
theorem neverPartial_iff (S : Setup) (unlimited : S.config.limit = none) :
    NeverPartial S ↔
      (∀ line ∈ splitLines S.input, LineOk S.json S.options line) ∨ S.records = [] := by
  rw [← S.allParsed_iff_lines unlimited]
  constructor
  · intro never
    by_cases all : S.plan.AllParsed
    · exact .inl all
    · right
      obtain ⟨s, reached, closed, written⟩ := exists_empty_file (S.plan.someFailed_of_not all)
      have rows := (never s reached closed).length_eq
      apply List.length_eq_zero_iff.mp
      simpa [State.rowsWritten, written] using rows.symm
  · rintro (all | barren) s reached closed
    · rw [← S.accepted_eq unlimited]
      apply rowsWritten_perm all
      apply reached.inv.written_of_closed closed
      intro i cut
      exact all.not_someFailed (reached.blamed.cut i cut)
    · have written := written_eq_nil unlimited barren reached (by simp [closed])
      simp [State.rowsWritten, written, barren]

/-- A lenient run rejects the malformed line between two records, and a strict run on
malformed lines alone has no row to lose. -/
theorem neverPartial_malformed_lines :
    NeverPartial (.sample { PipelineConfig.default with ignoreErrors := true }
        (ascii "\x7b\"a\":1\x7d\nx\n\x7b\"a\":true\x7d")) ∧
      NeverPartial (.sample .default (ascii "x\n\nx")) := by
  let S := Setup.sample { PipelineConfig.default with ignoreErrors := true }
    (ascii "\x7b\"a\":1\x7d\nx\n\x7b\"a\":true\x7d")
  have all : S.plan.AllParsed := S.plan.allParsed_iff.mpr fun
    | ⟨0, _⟩ => ⟨_, rfl⟩
    | ⟨1, _⟩ => ⟨_, rfl⟩
    | ⟨2, _⟩ => ⟨_, rfl⟩
  constructor
  · exact (neverPartial_iff S rfl).mpr (.inl ((S.allParsed_iff_lines rfl).mp all))
  · exact (neverPartial_iff _ rfl).mpr (.inr rfl)

/-- A malformed second line makes `run_pipeline` return an error and leaves a closed
file with the first of the two records. -/
theorem closed_file_partial :
    ∃ (S : Setup) (s : State S.plan), S.config.limit = none ∧ Reached S.plan s ∧
      (∃ e, s.main = .returned (.error e)) ∧ s.writer = .closed ∧ s.rowsWritten.length = 1 ∧
        S.records.length = 2 ∧ ¬ NeverPartial S := by
  let S := Setup.sample .default (ascii "\x7b\"a\":1\x7d\nx\n\x7b\"a\":1\x7d")
  let schedule : List (Action S.plan) :=
    .writer none :: List.replicate 7 (.closure ⟨0, by decide⟩) ++ List.replicate 2 (.writer none) ++
      List.replicate 4 (.closure ⟨1, by decide⟩) ++ List.replicate 2 (.closure ⟨2, by decide⟩) ++
        .main :: List.replicate 2 (.writer none)
  have reached : Reached S.plan _ :=
    reachable_of_run (fun _ _ => trivial) (rfl : run (step S.plan) schedule (.initial _) = some _)
  refine ⟨S, _, rfl, reached, ⟨_, rfl⟩, rfl, rfl, rfl, ?_⟩
  intro never
  have rows : 1 = (S.records.map S.row).length := (never _ reached rfl).length_eq
  exact absurd rows (by decide)

end Parq.Pipeline
