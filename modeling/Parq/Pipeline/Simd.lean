import Parq.Parser.Simd
import Parq.Pipeline.Setup
import Parq.Transition.Simulation

/-!
# The pipeline of the SIMD build

The two builds run the same threads and differ in what a call of `parse_chunk` returns, and
there in the source of a parse error only.  They are in lockstep: every interleaving of the
one is an interleaving of the other, in which the same batches and the same dead letters
pass through the same channels at the same time.
-/

namespace Parq.Pipeline

open Parq.Data
open Parq.Parser
open Parq.Transition

/-! ## A plan with other outcomes -/

/-- The plan in which the calls of `parse_chunk` have these outcomes. -/
abbrev Plan.withOutcome (P : Plan) (outcome : Fin P.jobs → ChunkOutcome) : Plan :=
  { P with outcome := outcome }

section Other

variable {P : Plan} {outcome : Fin P.jobs → ChunkOutcome}

/-- The same action of the other plan. -/
def Action.other : Action P → Action (P.withOutcome outcome)
  | .closure i => .closure i
  | .writer fault => .writer fault
  | .quarantine fault => .quarantine fault
  | .main => .main

theorem Action.other_surjective :
    Function.Surjective (Action.other : Action P → Action (P.withOutcome outcome)) := by
  intro a
  cases a with
  | closure i => exact ⟨.closure i, rfl⟩
  | writer fault => exact ⟨.writer fault, rfl⟩
  | quarantine fault => exact ⟨.quarantine fault, rfl⟩
  | main => exact ⟨.main, rfl⟩

/-- The writer thread in the same place. -/
def Writer.other : Writer P → Writer (P.withOutcome outcome)
  | .creating => .creating
  | .receiving => .receiving
  | .writing item => .writing item
  | .closing => .closing
  | .closed => .closed
  | .failed e => .failed e

/-- The dead-letter thread in the same place. -/
def Quarantine.other : Quarantine P → Quarantine (P.withOutcome outcome)
  | .absent => .absent
  | .creating => .creating
  | .receiving => .receiving
  | .writingLine item => .writingLine item
  | .writingNewline item => .writingNewline item
  | .done => .done
  | .failed e => .failed e

@[simp]
theorem Writer.isListening_other (writer : Writer P) :
    (writer.other : Writer (P.withOutcome outcome)).isListening = writer.isListening := by
  cases writer <;> rfl

@[simp]
theorem Quarantine.isListening_other (quarantine : Quarantine P) :
    (quarantine.other : Quarantine (P.withOutcome outcome)).isListening =
      quarantine.isListening := by
  cases quarantine <;> rfl

end Other

/-! ## States that differ in the sources of errors -/

/-- Two closures are in the same place, with the same data but for the source of an
error. -/
inductive Closure.Alike : Closure → Closure → Prop
  | same (c : Closure) : Alike c c
  | recording {e e' : Error} (variant : SameVariant e e') : Alike (.recording e) (.recording e')

theorem Closure.Alike.isFinished_eq {c c' : Closure} (alike : Closure.Alike c c') :
    c'.isFinished = c.isFinished := by
  cases alike <;> rfl

theorem Closure.Alike.isRunning_eq {c c' : Closure} (alike : Closure.Alike c c') :
    c'.isRunning = c.isRunning := by
  cases alike <;> rfl

/-- The main threads are in the same place; a result is the same `Ok`, or errors of one
variant. -/
inductive Main.Alike : Main → Main → Prop
  | same (main : Main) : Alike main main
  | failed {e e' : Error} (variant : SameVariant e e') :
      Alike (.returned (.error e)) (.returned (.error e'))

/-- The states are the same but for the sources of parse errors: the same counters, the
same batches and lines in the channels, and the same files. -/
structure State.Alike {P : Plan} {outcome : Fin P.jobs → ChunkOutcome} (s : State P)
    (t : State (P.withOutcome outcome)) : Prop where
  closures : ∀ i, Closure.Alike (s.closures i) (t.closures i)
  parseError : Option.Rel SameVariant s.parseError t.parseError
  totalRows : t.totalRows = s.totalRows
  errorRows : t.errorRows = s.errorRows
  channel : t.channel = s.channel
  writer : t.writer = s.writer.other
  written : t.written = s.written
  letters : t.letters = s.letters
  quarantine : t.quarantine = s.quarantine.other
  quarantined : t.quarantined = s.quarantined
  deadLetterFile : t.deadLetterFile = s.deadLetterFile
  main : Main.Alike s.main t.main

namespace State.Alike

variable {P : Plan} {outcome : Fin P.jobs → ChunkOutcome} {s : State P}
  {t : State (P.withOutcome outcome)}

theorem initial : State.Alike (.initial P) (.initial (P.withOutcome outcome)) where
  closures := fun _ => .same _
  parseError := .none
  totalRows := rfl
  errorRows := rfl
  channel := rfl
  writer := rfl
  written := rfl
  letters := rfl
  quarantine := by
    rw [State.initial, State.initial]
    cases P.deadLetter <;> rfl
  quarantined := rfl
  deadLetterFile := rfl
  main := .same _

variable (alike : State.Alike s t)

include alike

theorem setClosure (i : Fin P.jobs) {c c' : Closure} (same : Closure.Alike c c') :
    State.Alike (s.setClosure i c) (t.setClosure i c') := by
  refine { alike with closures := ?_ }
  intro k
  by_cases here : k = i
  · subst here
    simpa [State.setClosure] using same
  · simpa [State.setClosure, here] using alike.closures k

theorem withWriter (writer : Writer P) (channel written : List (Fin P.jobs × RecordBatch)) :
    State.Alike { s with writer := writer, channel := channel, written := written }
      { t with writer := writer.other, channel := channel, written := written } :=
  { alike with writer := rfl, channel := rfl, written := rfl }

theorem withQuarantine (quarantine : Quarantine P) (letters quarantined : List (Fin P.jobs × Bytes))
    (file : Bytes) :
    State.Alike
      { s with
        quarantine := quarantine
        letters := letters
        quarantined := quarantined
        deadLetterFile := file }
      { t with
        quarantine := quarantine.other
        letters := letters
        quarantined := quarantined
        deadLetterFile := file } :=
  { alike with quarantine := rfl, letters := rfl, quarantined := rfl, deadLetterFile := rfl }

theorem withMain {main main' : Main} (same : Main.Alike main main') {found found' : Option Error}
    (recorded : Option.Rel SameVariant found found') (writer : Writer P)
    (quarantine : Quarantine P) :
    State.Alike
      { s with main := main, parseError := found, writer := writer, quarantine := quarantine }
      { t with
        main := main'
        parseError := found'
        totalRows := s.totalRows
        errorRows := s.errorRows
        writer := writer.other
        quarantine := quarantine.other } :=
  { alike with
    main := same
    parseError := recorded
    totalRows := rfl
    errorRows := rfl
    writer := rfl
    quarantine := rfl }

theorem running_eq : t.running = s.running := by
  apply List.countP_congr
  intro i _
  rw [(alike.closures i).isRunning_eq]

theorem allFinished_eq : t.allFinished = s.allFinished := by
  apply List.all_congr rfl
  intro i
  exact (alike.closures i).isFinished_eq

/-! ## Steps -/

theorem send (i : Fin P.jobs) (batch : RecordBatch) (rest : List RecordBatch) :
    Option.Rel State.Alike (s.send i batch rest) (t.send i batch rest) := by
  have moved := alike.setClosure i (.same (.sending rest))
  unfold State.send
  rw [alike.writer, Writer.isListening_other, alike.channel]
  by_cases closed : s.writer.isListening = false
  · simp only [closed, Bool.not_false, if_true]
    exact .some moved
  · rw [Bool.not_eq_false] at closed
    simp only [closed, Bool.not_true, Bool.false_eq_true, if_false]
    by_cases rendezvous : P.depth = 0
    · rw [if_pos rendezvous, if_pos rendezvous]
      cases waiting : s.writer with
      | receiving => exact .some { moved with writer := rfl }
      | _ => exact .none
    · rw [if_neg rendezvous, if_neg rendezvous]
      by_cases room : s.channel.length < P.depth
      · rw [if_pos room, if_pos room]
        exact .some { moved with channel := rfl }
      · rw [if_neg room, if_neg room]
        exact .none

/-- A closure takes the same step when its call has an outcome that agrees. -/
theorem stepClosure {i : Fin P.jobs}
    (result : ResultsAgree (P.outcome i).result (outcome i).result)
    (letters : (outcome i).deadLetters = (P.outcome i).deadLetters) :
    Option.Rel State.Alike (s.stepClosure i) (t.stepClosure i) := by
  have here := alike.closures i
  unfold State.stepClosure
  generalize s.closures i = c, t.closures i = c' at here
  cases here with
  | recording variant =>
      have moved := alike.setClosure i (.same .returned)
      have recorded := alike.parseError
      generalize s.parseError = found, t.parseError = found' at recorded
      cases recorded with
      | none => exact .some { moved with parseError := .some variant }
      | some earlier => exact .some { moved with parseError := .some earlier }
  | same c =>
      cases c with
      | waiting =>
          dsimp only
          rw [alike.running_eq]
          by_cases free : s.running < P.workers
          · rw [if_pos free, if_pos free]
            exact .some (alike.setClosure i (.same .checking))
          · rw [if_neg free, if_neg free]
            exact .none
      | checking =>
          have recorded := alike.parseError
          dsimp only
          generalize s.parseError = found, t.parseError = found' at recorded
          cases recorded with
          | none =>
              dsimp only
              rw [letters]
              exact .some (alike.setClosure i (.same _))
          | some => exact .some (alike.setClosure i (.same .skipped))
      | quarantining lines =>
          cases lines with
          | nil =>
              dsimp only
              generalize (P.outcome i).result = ended, (outcome i).result = ended' at result
              cases result with
              | ok parsed => exact .some (alike.setClosure i (.same (.counting parsed)))
              | error variant => exact .some (alike.setClosure i (.recording variant))
          | cons line rest =>
              have moved := alike.setClosure i (.same (.quarantining rest))
              dsimp only
              apply Option.Rel.some
              have listening : (t.setClosure i (.quarantining rest)).quarantine.isListening =
                  (s.setClosure i (.quarantining rest)).quarantine.isListening := by
                rw [moved.quarantine, Quarantine.isListening_other]
              rw [listening]
              split
              · exact { moved with letters := congrArg (· ++ [(i, line)]) moved.letters }
              · exact moved
      | counting parsed =>
          have moved := alike.setClosure i (.same (.countingErrors parsed))
          dsimp only
          rw [alike.totalRows]
          exact .some { moved with totalRows := rfl }
      | countingErrors parsed =>
          have moved := alike.setClosure i (.same (.sending parsed.batches))
          dsimp only
          rw [alike.errorRows]
          exact .some { moved with errorRows := rfl }
      | sending batches =>
          cases batches with
          | nil => exact .some (alike.setClosure i (.same .returned))
          | cons batch rest => exact alike.send i batch rest
      | recording e =>
          have moved := alike.setClosure i (.same .returned)
          have recorded := alike.parseError
          dsimp only
          generalize s.parseError = found, t.parseError = found' at recorded
          cases recorded with
          | none => exact .some { moved with parseError := .some (.same e) }
          | some earlier => exact .some { moved with parseError := .some earlier }
      | skipped => exact .none
      | returned => exact .none

theorem stepWriter (fault : Option Fault) :
    Option.Rel State.Alike (s.stepWriter fault) (t.stepWriter fault) := by
  unfold State.stepWriter
  rw [alike.writer, alike.channel, alike.allFinished_eq, alike.written]
  cases s.writer with
  | creating =>
      cases fault with
      | none => exact .some (alike.withWriter _ _ _)
      | some f => exact .some (alike.withWriter _ _ _)
  | receiving =>
      cases fault with
      | some f => exact .none
      | none =>
          dsimp only [Writer.other]
          cases s.channel with
          | cons item rest => exact .some (alike.withWriter _ _ _)
          | nil =>
              by_cases ended : s.allFinished = true
              · simp only [ended, if_true]
                exact .some (alike.withWriter _ _ _)
              · simp only [ended]
                exact .none
  | writing item =>
      cases fault with
      | none => exact .some (alike.withWriter _ _ _)
      | some f => exact .some (alike.withWriter _ _ _)
  | closing =>
      cases fault with
      | none => exact .some (alike.withWriter _ _ _)
      | some f => exact .some (alike.withWriter _ _ _)
  | closed => exact .none
  | failed e => exact .none

theorem stepQuarantine (fault : Option Fault) :
    Option.Rel State.Alike (s.stepQuarantine fault) (t.stepQuarantine fault) := by
  unfold State.stepQuarantine
  rw [alike.quarantine, alike.letters, alike.allFinished_eq, alike.deadLetterFile,
    alike.quarantined]
  cases s.quarantine with
  | absent => exact .none
  | creating =>
      cases fault with
      | none => exact .some (alike.withQuarantine _ _ _ _)
      | some f => exact .some (alike.withQuarantine _ _ _ _)
  | receiving =>
      cases fault with
      | some f => exact .none
      | none =>
          dsimp only [Quarantine.other]
          cases s.letters with
          | cons item rest => exact .some (alike.withQuarantine _ _ _ _)
          | nil =>
              by_cases ended : s.allFinished = true
              · simp only [ended, if_true]
                exact .some (alike.withQuarantine _ _ _ _)
              · simp only [ended]
                exact .none
  | writingLine item =>
      cases fault with
      | none => exact .some (alike.withQuarantine _ _ _ _)
      | some f => exact .some (alike.withQuarantine _ _ _ _)
  | writingNewline item =>
      cases fault with
      | none =>
          exact .some (alike.withQuarantine _ _ _ _)
      | some f => exact .some (alike.withQuarantine _ _ _ _)
  | done => exact .none
  | failed e => exact .none

theorem stepMain : Option.Rel State.Alike s.stepMain t.stepMain := by
  have here := alike.main
  unfold State.stepMain
  rw [alike.allFinished_eq, alike.totalRows, alike.errorRows, alike.writer, alike.quarantine]
  generalize s.main = m, t.main = m' at here
  cases here with
  | failed variant => exact .none
  | same m =>
      cases m with
      | parsing =>
          dsimp only
          by_cases ended : s.allFinished = true
          · rw [if_pos ended, if_pos ended]
            have recorded := alike.parseError
            generalize s.parseError = found, t.parseError = found' at recorded
            cases recorded with
            | none => exact .some (alike.withMain (.same _) .none _ _)
            | some variant => exact .some (alike.withMain (.failed variant) .none _ _)
          · rw [if_neg ended, if_neg ended]
            exact .none
      | joiningWriter rowsParsed rowsSkipped =>
          dsimp only
          cases s.writer with
          | closed => exact .some (alike.withMain (.same _) alike.parseError _ _)
          | failed e => exact .some (alike.withMain (.same _) alike.parseError _ _)
          | _ => exact .none
      | joiningQuarantine rowsParsed rowsSkipped =>
          dsimp only
          cases s.quarantine with
          | absent => exact .some (alike.withMain (.same _) alike.parseError _ _)
          | done => exact .some (alike.withMain (.same _) alike.parseError _ _)
          | failed e => exact .some (alike.withMain (.same _) alike.parseError _ _)
          | _ => exact .none
      | returned result => exact .none

end State.Alike

/-- Outcomes that agree put the two plans in lockstep. -/
theorem lockstep_of_agree {P : Plan} {outcome : Fin P.jobs → ChunkOutcome}
    (agree : ∀ i, ResultsAgree (P.outcome i).result (outcome i).result ∧
      (outcome i).deadLetters = (P.outcome i).deadLetters) :
    Lockstep (step P) (step (P.withOutcome outcome)) Action.other State.Alike := by
  intro s t alike a
  cases a with
  | closure i => exact alike.stepClosure (agree i).1 (agree i).2
  | writer fault => exact alike.stepWriter fault
  | quarantine fault => exact alike.stepQuarantine fault
  | main => exact alike.stepMain

/-! ## The SIMD build -/

theorem sameVariant_symm {e e' : Error} (variant : SameVariant e e') : SameVariant e' e := by
  cases variant with
  | same => exact .same e
  | jsonParse line source source' => exact .jsonParse line source' source

/-- What the calls of `parse_chunk` do in the SIMD build; none of them panics. -/
def Setup.SimdOutcome (S : Setup) (B : SimdJson) (outcome : Fin S.plan.jobs → ChunkOutcome) :
    Prop :=
  ∀ i, parseChunkSimd S.json B S.options S.config.limit (S.chunks.get i) = some (outcome i)

theorem exists_simdOutcome {S : Setup} {B : SimdJson} (agrees : B.Agrees S.json) :
    ∃ outcome, S.SimdOutcome B outcome ∧
      ∀ i, ResultsAgree (S.plan.outcome i).result (outcome i).result ∧
        (outcome i).deadLetters = (S.plan.outcome i).deadLetters := by
  have each : ∀ i : Fin S.plan.jobs, ∃ outcome : ChunkOutcome,
      parseChunkSimd S.json B S.options S.config.limit (S.chunks.get i) = some outcome ∧
        ResultsAgree (S.plan.outcome i).result outcome.result ∧
        outcome.deadLetters = (S.plan.outcome i).deadLetters := by
    intro i
    obtain ⟨⟨s, ended⟩, parsed, state, errors⟩ := parseLinesSimd_agrees agrees S.options
      S.config.limit (splitLines (S.chunks.get i)) (.initial S.options.schema)
    have plain : S.plan.outcome i =
        parseChunk S.json S.options S.config.limit (S.chunks.get i) := rfl
    rw [plain]
    unfold parseChunkSimd parseChunk
    rw [parsed]
    generalize parseLines S.json S.options S.config.limit (splitLines (S.chunks.get i))
      (.initial S.options.schema) = last at state errors
    rcases last with ⟨s', ended'⟩
    obtain rfl : s = s' := state
    cases errors with
    | none => exact ⟨_, rfl, .refl _, rfl⟩
    | some variant => exact ⟨_, rfl, .error (sameVariant_symm variant), rfl⟩
  choose outcome called agree using each
  exact ⟨outcome, called, agree⟩

/-- The SIMD build is in lockstep with the default build.  No call of `parse_chunk` panics;
every list of actions is executed by both builds or by neither, and takes them to states
with the same counters, channels and files, whose errors differ in the source of a parse
error at most; and the SIMD build reaches no other states. -/
theorem simd_in_lockstep {S : Setup} {B : SimdJson} (agrees : B.Agrees S.json) :
    ∃ outcome, S.SimdOutcome B outcome ∧
      (∀ actions : List (Action S.plan),
        Option.Rel State.Alike (run (step S.plan) actions (.initial S.plan))
          (run (step (S.plan.withOutcome outcome)) (actions.map Action.other) (.initial _))) ∧
      ∀ t, Reached (S.plan.withOutcome outcome) t → ∃ s, Reached S.plan s ∧ State.Alike s t := by
  obtain ⟨outcome, called, agree⟩ := exists_simdOutcome agrees
  have lockstep := lockstep_of_agree agree
  refine ⟨outcome, called, fun actions => lockstep.run .initial actions, ?_⟩
  intro t reached
  exact lockstep.reachable Action.other_surjective .initial reached

/-- A chunk of one record and a chunk of a malformed line, which the strict run refuses. -/
theorem simd_in_lockstep_two_chunks :
    ∃ (S : Setup) (outcome : Fin S.plan.jobs → ChunkOutcome) (actions : List (Action S.plan))
      (s : State S.plan) (t : State (S.plan.withOutcome outcome)),
      S.SimdOutcome .sample outcome ∧ s.parseError.isSome = true ∧
        run (step S.plan) actions (.initial _) = some s ∧
        run (step (S.plan.withOutcome outcome)) (actions.map Action.other) (.initial _) = some t ∧
        State.Alike s t := by
  let S := Setup.sample .default (ascii "\x7b\"a\":1\x7d\nx")
  let actions : List (Action S.plan) :=
    .writer none :: List.replicate 7 (.closure ⟨0, by decide⟩) ++
      List.replicate 4 (.closure ⟨1, by decide⟩)
  obtain ⟨outcome, called, same, _⟩ := simd_in_lockstep (S := S) SimdJson.agrees_sample
  have ran : run (step S.plan) actions (.initial _) = some _ := rfl
  have followed := same actions
  rw [ran] at followed
  generalize followed_eq : run (step (S.plan.withOutcome outcome)) (actions.map Action.other)
    (.initial _) = last at followed
  cases followed with
  | some alike => exact ⟨S, outcome, actions, _, _, called, rfl, ran, followed_eq, alike⟩

end Parq.Pipeline
