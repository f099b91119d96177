import Parq.Parser.Quarantine
import Parq.Pipeline.Setup

/-!
# The dead-letter file of a successful run

A lenient run that returns `Ok` has written every rejected line to the dead-letter
file, whatever the interleaving.  The file divides into these lines again, and
parsing it rejects them all.
-/

namespace Parq.Pipeline

open Parq.Data
open Parq.Parser
open Parq.Sequence
open Parq.Transition

section Present

variable {P : Plan} {s target : State P}

/-- A dead-letter thread that was started does not vanish. -/
theorem Moves.quarantine_present {a : Action P} (moves : Moves s a target)
    (present : s.quarantine ≠ .absent) : target.quarantine ≠ .absent := by
  cases moves with
  | closure moved =>
      rw [moved.frame.2.1]
      exact present
  | writer moved => cases moved <;> exact present
  | quarantine moved => cases moved <;> simp
  | main moved => cases moved <;> exact present

theorem Reached.quarantine_present (reached : Reached P s) (started : P.deadLetter = true) :
    s.quarantine ≠ .absent := by
  induction reached with
  | refl => simp [State.initial, started]
  | tail _ _ stepped ih => exact (moves_of_step stepped).quarantine_present ih

/-- Without a dead-letter path no line is written. -/
theorem Reached.quarantined_eq_nil (reached : Reached P s) (without : P.deadLetter = false) :
    s.quarantine = .absent ∧ s.quarantined = [] := by
  induction reached with
  | refl => simp [State.initial, without]
  | tail _ _ stepped ih =>
      rcases ih with ⟨absent, empty⟩
      cases moves_of_step stepped with
      | closure moved =>
          rw [moved.frame.2.1, moved.frame.2.2.2.1]
          exact ⟨absent, empty⟩
      | writer moved => cases moved <;> exact ⟨absent, empty⟩
      | quarantine moved =>
          cases moved with
          | create here | receive here | disconnect here | writeLine here | writeNewline here =>
              simp [absent] at here
          | fail here => simp [absent] at here
      | main moved => cases moved <;> exact ⟨absent, empty⟩

end Present

variable {S : Setup} {s : State S.plan}

/-- The completed lines of the dead-letter file are the lines that the calls
rejected, in some order. -/
theorem quarantined_perm (all : S.plan.AllParsed) (path : S.config.deadLetterPath.isSome = true)
    (each : ∀ i, ofSource i s.quarantined = (S.plan.outcome i).deadLetters) :
    (s.quarantined.map Prod.snd).Perm S.refused := by
  have perm := map_snd_perm_flatMap s.quarantined
  have letters : ((List.finRange S.plan.jobs).flatMap fun i => ofSource i s.quarantined) =
      S.refused := by
    rw [Setup.refused, ← S.flatMap_chunks]
    apply List.flatMap_congr
    intro i _
    rw [each i, (Setup.delivers_of_allParsed all i).2, if_pos path]
  rwa [letters] at perm

/-- A run without a row limit that returns `Ok` has written each rejected line to the
dead-letter file once, one a line, and has counted them; with the accepted lines they
make up the input, and a lenient call on the file rejects them again. -/
theorem deadLetterFile_of_ok_run (S : Setup) (unlimited : S.config.limit = none)
    (path : S.config.deadLetterPath.isSome = true) {s : State S.plan}
    (reached : Reached S.plan s) {metrics : ProcessingMetrics}
    (ok : s.main = .returned (.ok metrics)) :
    ∃ letters : List Bytes,
      s.deadLetterFile = letters.flatMap (· ++ [newline]) ∧
        letters.Perm S.rejected ∧
        letters.length = metrics.rowsErrored ∧
        (acceptedOf S.json (splitLines S.input) ++ letters).Perm (nonBlankLines S.input) ∧
        splitLines s.deadLetterFile = letters ++ [[]] ∧
        ∀ o : ParseOptions, o.ignoreErrors = true →
          (parseChunk S.json o none s.deadLetterFile).result = .ok ⟨[], 0, letters.length⟩ ∧
            (parseChunk S.json o none s.deadLetterFile).deadLetters =
              if o.deadLetterTx then letters else [] := by
  have completed := reached.completed ok
  have delivered := completed.delivered
  have done := completed.quarantine.resolve_left (reached.quarantine_present path)
  obtain ⟨each, file⟩ := completed.quarantined done
  have perm := quarantined_perm completed.parsed path each
  rw [S.refused_eq unlimited] at perm
  have errored := delivered.errored
  rw [S.refused_eq unlimited] at errored
  generalize s.quarantined.map Prod.snd = letters at file perm
  have rejected_again : ∀ text ∈ letters, rejected? S.json text = some text := by
    intro text mem
    obtain ⟨line, _, rejected⟩ := List.mem_filterMap.mp (perm.subset mem)
    exact rejected?_text rejected
  have free : ∀ text ∈ letters, newline ∉ text := by
    intro text mem
    exact newline_not_mem_of_rejected (perm.subset mem)
  refine ⟨letters, file, perm, ?_, ?_, ?_, ?_⟩
  · rw [errored]
    exact perm.length_eq
  · exact (perm.append_left _).trans (acceptedOf_append_rejectedOf_perm S.json _)
  · rw [file]
    exact splitLines_letterFile free
  · intro o lenient
    rw [file]
    exact parseChunk_letterFile lenient free rejected_again

/-- Two workers, of which the second is first to send its malformed line. -/
theorem deadLetterFile_two_malformed_lines :
    ∃ (S : Setup) (s : State S.plan) (letters : List Bytes), S.workers = 2 ∧
      Reached S.plan s ∧ S.rejected = [ascii "x", ascii "y"] ∧ s.deadLetterFile = ascii "y\nx\n" ∧
        letters.Perm S.rejected ∧
        (acceptedOf S.json (splitLines S.input) ++ letters).Perm (nonBlankLines S.input) := by
  let config := { PipelineConfig.default with ignoreErrors := true, deadLetterPath := some "q" }
  let S : Setup :=
    { Setup.sample config (ascii " x\n\x7b\"a\":1\x7d\ny") with
      workers := 2
      workers_pos := Nat.two_pos }
  let schedule : List (Action S.plan) :=
    .writer none :: .closure ⟨0, by decide⟩ :: List.replicate 7 (.closure ⟨1, by decide⟩) ++
      List.replicate 7 (.closure ⟨2, by decide⟩) ++ List.replicate 6 (.closure ⟨0, by decide⟩) ++
      List.replicate 4 (.writer none) ++ List.replicate 8 (.quarantine none) ++
      List.replicate 3 .main
  have reached : Reached S.plan _ :=
    reachable_of_run (fun _ _ => trivial) (rfl : run (step S.plan) schedule (.initial _) = some _)
  obtain ⟨letters, _, perm, _, whole, _⟩ := deadLetterFile_of_ok_run S rfl rfl reached rfl
  exact ⟨S, _, letters, rfl, reached, rfl, rfl, perm, whole⟩

end Parq.Pipeline
