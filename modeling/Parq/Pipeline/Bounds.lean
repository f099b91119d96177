import Parq.Data.Lines
import Parq.Pipeline.Letters
import Parq.Pipeline.Rows
import Mathlib.Algebra.Order.BigOperators.Group.Finset

/-!
# What a run holds is bounded by its input

The counters are machine words, which `fetch_add` wraps, and the dead-letter channel has
no bound of its own: with a dead-letter thread that does not keep up, all rejected lines
may be in it.  The input bounds both in every state that a run reaches.  The lines in the
channel and in the file are together no longer than the input and one line end, and each
row and each rejected line that is counted is two bytes of it, the last one a byte.
-/

namespace Parq.Pipeline

open Parq.Data
open Parq.Parser
open Parq.Sequence
open Parq.Transition

/-! ## The dead-letter lines -/

section Letters

variable {P : Plan} {s target : State P}

/-- The bytes that the dead-letter thread has received and not written. -/
def Quarantine.owed : Quarantine P → Nat
  | .writingLine item => item.2.length + 1
  | .writingNewline _ => 1
  | _ => 0

/-- The bytes that were sent to the dead-letter thread, as far as they were not lost. -/
def State.letterBytes (s : State P) : Nat :=
  s.deadLetterFile.length + s.quarantine.owed + lineBytes (s.letters.map Prod.snd)

/-- The bytes of the rejected lines that a closure has not sent. -/
def Closure.owed (P : Plan) (i : Fin P.jobs) (c : Closure) : Nat :=
  lineBytes (c.unsentLetters P i)

/-- The bytes sent and to be sent are no more than those of the rejected lines. -/
def LettersBounded (s : State P) : Prop :=
  ∑ i, (s.closures i).owed P i + s.letterBytes ≤ ∑ i, lineBytes (P.outcome i).deadLetters

theorem lettersBounded_initial (P : Plan) : LettersBounded (.initial P) := by
  have nothing : (State.initial P).letterBytes = 0 := by
    cases started :
      P.deadLetter <;> simp [State.letterBytes, State.initial, started, Quarantine.owed]
  unfold LettersBounded
  rw [nothing]
  exact Nat.le_refl _

/-- A closure may hand bytes on or lose them. -/
theorem LettersBounded.update (bounded : LettersBounded s) {i : Fin P.jobs} {c : Closure}
    (closures : target.closures = Function.update s.closures i c)
    (less : c.owed P i + target.letterBytes ≤ (s.closures i).owed P i + s.letterBytes) :
    LettersBounded target := by
  have moved := sum_update (Closure.owed P) s.closures i c
  unfold LettersBounded at bounded ⊢
  rw [closures]
  omega

theorem LettersBounded.of_le (bounded : LettersBounded s) (closures : target.closures = s.closures)
    (less : target.letterBytes ≤ s.letterBytes) : LettersBounded target := by
  unfold LettersBounded at bounded ⊢
  rw [closures]
  omega

theorem LettersBounded.moves {a : Action P} (bounded : LettersBounded s)
    (moves : Moves s a target) : LettersBounded target := by
  cases moves with
  | closure moved =>
      cases moved with
      | quarantine here =>
          apply bounded.update rfl
          simp only [here, Closure.owed, Closure.unsentLetters, State.letterBytes, setClosure_eta,
            List.map_append, List.map_cons, List.map_nil, lineBytes_append, lineBytes_cons,
            lineBytes_nil]
          omega
      | lose here =>
          apply bounded.update rfl
          simp only [here, Closure.owed, Closure.unsentLetters, State.letterBytes, setClosure_eta,
            lineBytes_cons]
          omega
      | take here | skip here | parse here | parsed here | refused here | countRows here
      | countErrors here | push here | handOver here | drop here | finish here | record here =>
          apply bounded.update rfl
          rw [here]
          exact Nat.le_refl _
  | writer moved => cases moved <;> exact bounded
  | quarantine moved =>
      cases moved with
      | create here | disconnect here =>
          refine bounded.of_le rfl ?_
          simp [State.letterBytes, here, Quarantine.owed]
      | receive here waiting =>
          refine bounded.of_le rfl ?_
          simp only [State.letterBytes, here, waiting, Quarantine.owed, List.map_cons,
            lineBytes_cons]
          omega
      | writeLine here | writeNewline here =>
          refine bounded.of_le rfl ?_
          simp only [State.letterBytes, here, Quarantine.owed, List.length_append,
            List.length_singleton]
          omega
      | fail here =>
          refine bounded.of_le rfl ?_
          simp only [State.letterBytes, Quarantine.owed, List.map_nil, lineBytes_nil]
          omega
  | main moved => cases moved <;> exact bounded

theorem Reached.lettersBounded (reached : Reached P s) : LettersBounded s :=
  Reachable.invariant (lettersBounded_initial P)
    (fun bounded _ stepped => bounded.moves (moves_of_step stepped)) reached

end Letters

/-! ## What the input bounds -/

section Input

variable (S : Setup)

/-- The calls accept records of the input, and each no more often than it is there. -/
theorem Setup.accepted_sublist : S.accepted.Sublist S.records := by
  rw [S.records_eq]
  apply List.Sublist.flatMap_right
  intro chunk _
  have lines := considered_prefix_self S.json S.config.flatten S.config.limit 0 (splitLines chunk)
  exact (lines.filterMap (record? S.json S.config.flatten)).sublist

theorem Setup.refused_sublist : S.refused.Sublist S.rejected := by
  rw [S.rejected_eq]
  apply List.Sublist.flatMap_right
  intro chunk _
  have lines := considered_prefix_self S.json S.config.flatten S.config.limit 0 (splitLines chunk)
  exact (lines.filterMap (rejected? S.json)).sublist

/-- The rows and rejected lines of a chunk that fails count for nothing. -/
theorem Setup.parsed_le (i : Fin S.plan.jobs) :
    (S.plan.parsed i).rowsOk ≤
        (recordsOf S.json S.config.flatten (S.taken S.chunks[i])).length ∧
      (S.plan.parsed i).rowsSkipped ≤ (rejectedOf S.json (S.taken S.chunks[i])).length := by
  cases outcome : (S.plan.outcome i).result with
  | error e =>
      rw [S.plan.parsed_of_error outcome]
      exact ⟨Nat.zero_le _, Nat.zero_le _⟩
  | ok parsed =>
      rw [S.plan.parsed_of_ok outcome]
      have delivers := (parseChunk_eq_ok outcome).1
      exact ⟨Nat.le_of_eq delivers.rowsOk, Nat.le_of_eq delivers.rowsSkipped⟩

theorem Setup.sum_rows_le :
    ∑ i, (S.plan.parsed i).rowsOk + ∑ i, (S.plan.parsed i).rowsSkipped ≤
      (nonBlankLines S.input).length := by
  have rows : ∑ i, (S.plan.parsed i).rowsOk ≤ S.accepted.length := by
    rw [Setup.accepted, List.length_flatMap, ← S.sum_chunks]
    exact Finset.sum_le_sum fun i _ => (S.parsed_le i).1
  have errors : ∑ i, (S.plan.parsed i).rowsSkipped ≤ S.refused.length := by
    rw [Setup.refused, List.length_flatMap, ← S.sum_chunks]
    exact Finset.sum_le_sum fun i _ => (S.parsed_le i).2
  have accepted := S.accepted_sublist.length_le
  have refused := S.refused_sublist.length_le
  have lines := S.length_records_add_rejected
  omega

theorem Setup.rejected_le : lineBytes S.rejected ≤ S.input.length + 1 := by
  have shorter : ∀ line text, rejected? S.json line = some text → text.length ≤ line.length := by
    intro line text rejects
    rw [← (trimmed?_eq_some_iff.mp (trimmed?_of_rejected? rejects)).1]
    exact length_trimAscii_le line
  rw [← lineBytes_splitLines]
  exact lineBytes_filterMap_le shorter _

theorem Setup.sum_letters_le :
    ∑ i, lineBytes (S.plan.outcome i).deadLetters ≤ S.input.length + 1 := by
  have sent : ∀ i : Fin S.plan.jobs, lineBytes (S.plan.outcome i).deadLetters ≤
      lineBytes (rejectedOf S.json (S.taken S.chunks[i])) := by
    intro i
    apply lineBytes_le_of_sublist
    exact List.IsPrefix.sublist <|
      deadLetters_prefix S.json S.options S.config.limit S.chunks[i]
  calc
    ∑ i, lineBytes (S.plan.outcome i).deadLetters
        ≤ ∑ i : Fin S.plan.jobs, lineBytes (rejectedOf S.json (S.taken S.chunks[i])) :=
      Finset.sum_le_sum fun i _ => sent i
    _ = lineBytes S.refused := by
      rw [Setup.refused, lineBytes_flatMap, ← S.sum_chunks]
    _ ≤ lineBytes S.rejected := lineBytes_le_of_sublist S.refused_sublist
    _ ≤ S.input.length + 1 := S.rejected_le

end Input

/-- In every state that a run reaches, the counters are half the input at most, and the
dead-letter file and the lines in its channel are together as long as the input and one
line end at most. -/
theorem bounded_by_input (S : Setup) {s : State S.plan} (reached : Reached S.plan s) :
    2 * (s.totalRows + s.errorRows) ≤ S.input.length + 1 ∧
      s.deadLetterFile.length + lineBytes (s.letters.map Prod.snd) ≤ S.input.length + 1 := by
  constructor
  · have rows := reached.inv.counted.rows
    have errors := reached.inv.counted.errors
    have totals := S.sum_rows_le
    have lines := two_mul_nonBlankLines_le S.input
    omega
  · have bounded := reached.lettersBounded
    have letters := S.sum_letters_le
    unfold LettersBounded State.letterBytes at bounded
    omega

/-- Two rejected lines of one byte fill the file and the channel. -/
theorem bounded_by_input_two_lines :
    ∃ (S : Setup) (s : State S.plan), Reached S.plan s ∧ s.deadLetterFile.length = 2 ∧
      lineBytes (s.letters.map Prod.snd) = 2 ∧ 2 * (s.totalRows + s.errorRows) = 4 ∧
        2 * (s.totalRows + s.errorRows) ≤ S.input.length + 1 := by
  let config : PipelineConfig :=
    { PipelineConfig.default with ignoreErrors := true, deadLetterPath := some "bad.jsonl" }
  let S := Setup.sample config (ascii "x\ny")
  let schedule : List (Action S.plan) :=
    List.replicate 7 (.closure ⟨0, by decide⟩) ++ List.replicate 4 (.quarantine none) ++
      List.replicate 6 (.closure ⟨1, by decide⟩)
  have reached : Reached S.plan _ :=
    reachable_of_run (fun _ _ => trivial) (rfl : run (step S.plan) schedule (.initial _) = some _)
  exact ⟨S, _, reached, rfl, rfl, rfl, (bounded_by_input S reached).1⟩

end Parq.Pipeline
