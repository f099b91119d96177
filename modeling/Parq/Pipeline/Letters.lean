import Parq.Pipeline.Mark

/-!
# The dead-letter file at any time

The dead-letter thread writes a line and its newline with two calls, so a run that fails or
is killed can leave a line without its end.  Whatever happens in the run, the file is made
of whole rejected lines and at most one that is torn, which is the last: what is read from
it is what the calls rejected, each line no more often than they did and the lines of a chunk
in their order.
-/

namespace Parq.Pipeline

open Parq.Data
open Parq.Parser
open Parq.Sequence
open Parq.Transition

section Plan

variable {P : Plan} {s target : State P}

/-- The dead-letter lines of each chunk are written in the order in which its call sends
them, and the file has them with their ends and then at most a line without one. -/
structure Kept (s : State P) : Prop where
  order : ∀ i, ofSource i s.quarantined <+: (P.outcome i).deadLetters
  file : ∃ torn, s.deadLetterFile = s.linesQuarantined.flatMap (· ++ [newline]) ++ torn ∧
    (torn = [] ∨ ∃ i, torn ∈ (P.outcome i).deadLetters)

theorem kept_initial (P : Plan) : Kept (.initial P) where
  order _ := List.nil_prefix
  file := ⟨[], rfl, .inl rfl⟩

theorem Kept.of_same (kept : Kept s) (quarantined : target.quarantined = s.quarantined)
    (file : target.deadLetterFile = s.deadLetterFile) : Kept target := by
  constructor
  · rw [quarantined]
    exact kept.order
  · rw [State.linesQuarantined, quarantined, file]
    exact kept.file

/-- As long as the dead-letter thread lives, its channel accounts for what it wrote. -/
theorem Inv.kept_of_alive (inv : Inv s) (alive : s.quarantine.Alive) : Kept s := by
  have merged := inv.letters alive
  have written := inv.file alive.2
  constructor
  · intro i
    have whole := merged i
    rw [State.letterStream, ofSource_append, ofSource_append, List.append_assoc,
      List.append_assoc] at whole
    exact ⟨_, whole⟩
  · refine ⟨s.quarantine.begun, written, ?_⟩
    cases at_line : s.quarantine with
    | writingNewline item =>
        rcases item with ⟨i, line⟩
        have whole := merged i
        rw [State.letterStream, at_line, Quarantine.holding, ofSource_append, ofSource_append,
          ofSource_cons_self] at whole
        right
        refine ⟨i, ?_⟩
        dsimp only at whole
        rw [← whole]
        simp [Quarantine.begun]
    | _ => exact .inl rfl

theorem Kept.moves {a : Action P} (kept : Kept s) (inv : Inv target) (moves : Moves s a target) :
    Kept target := by
  cases moves with
  | closure moved => exact kept.of_same moved.frame.2.2.2.1 moved.frame.2.2.2.2
  | writer moved => cases moved <;> exact kept.of_same rfl rfl
  | main moved => cases moved <;> exact kept.of_same rfl rfl
  | quarantine moved =>
      cases moved with
      | fail => exact kept.of_same rfl rfl
      | _ => exact inv.kept_of_alive ⟨by simp, by simp⟩

theorem Reached.kept (reached : Reached P s) : Kept s := by
  induction reached with
  | refl => exact kept_initial P
  | tail before _ stepped ih =>
      have inv := Reached.inv (P := P) (.tail before trivial stepped)
      exact ih.moves inv (moves_of_step stepped)

end Plan

/-! ## Rejected lines -/

/-- A call sends the first of the lines that it would reject if nothing ended it. -/
theorem deadLetters_prefix (J : SerdeJson) (o : ParseOptions) (limit : Option Nat) (data : Bytes) :
    (parseChunk J o limit data).deadLetters <+:
      rejectedOf J (considered J o.flattenJson limit 0 (splitLines data)) := by
  have outcome := parseChunk_outcome J o limit data
  have sent : ∀ {lines before : List Bytes}, before <+: lines →
      (if o.deadLetterTx = true then rejectedOf J before else []) <+: rejectedOf J lines := by
    intro lines before pre
    split
    · exact pre.filterMap _
    · exact List.nil_prefix
  generalize parseChunk J o limit data = call at outcome
  cases outcome with
  | ok => exact sent (List.prefix_refl _)
  | reject split => exact sent ⟨_, split.symm⟩
  | spoil split => exact sent ⟨_, split.symm⟩

/-- Lines with their ends, and behind them text without one, divide at the ends. -/
theorem splitLines_torn {letters : List Bytes} {torn : Bytes}
    (free : ∀ letter ∈ letters, newline ∉ letter) (torn_free : newline ∉ torn) :
    splitLines (letters.flatMap (· ++ [newline]) ++ torn) = letters ++ [torn] := by
  induction letters with
  | nil =>
      have alone : splitLines (joinLines [torn]) = [torn] := by
        apply splitLines_joinLines
        · exact List.forall_mem_singleton.mpr torn_free
        · exact List.cons_ne_nil torn []
      rwa [joinLines, List.intercalate_singleton] at alone
  | cons letter rest ih =>
      rw [List.flatMap_cons, List.append_assoc, List.append_assoc, List.singleton_append,
        splitLines, List.splitOn_append_cons_self_of_not_mem (free letter List.mem_cons_self),
        List.cons_append]
      congr 1
      exact ih fun other mem => free other (List.mem_cons_of_mem letter mem)

theorem Setup.newline_not_mem_of_refused {S : Setup} {letter : Bytes} (mem : letter ∈ S.refused) :
    newline ∉ letter := by
  rcases List.mem_flatMap.mp mem with ⟨chunk, _, rejected⟩
  have lines := considered_prefix_self S.json S.config.flatten S.config.limit 0 (splitLines chunk)
  exact newline_not_mem_of_rejected ((lines.filterMap (rejected? S.json)).subset rejected)

variable {S : Setup} {s : State S.plan}

/-- Whatever has happened in a run, the dead-letter file divides at its line ends into the
lines written so far and one last text, which is empty or the start of a rejected line.
The lines are among those that the calls reject, each no more often than it is
rejected, and those of a chunk are the first that its call rejects, in their order. -/
theorem deadLetterFile_at_any_time (reached : Reached S.plan s) :
    ∃ torn, splitLines s.deadLetterFile = s.linesQuarantined ++ [torn] ∧
      (torn = [] ∨ ∃ letter ∈ S.refused, torn <+: letter) ∧
      s.linesQuarantined.Subperm S.refused ∧
      ∀ i : Fin S.plan.jobs, ofSource i s.quarantined <+:
        rejectedOf S.json (S.taken (S.chunks.get i)) := by
  have kept := reached.kept
  have sent : ∀ i : Fin S.plan.jobs, (S.plan.outcome i).deadLetters <+:
      rejectedOf S.json (S.taken (S.chunks.get i)) :=
    fun i => deadLetters_prefix S.json S.options S.config.limit (S.chunks.get i)
  have order : ∀ i : Fin S.plan.jobs, ofSource i s.quarantined <+:
      rejectedOf S.json (S.taken (S.chunks.get i)) :=
    fun i => (kept.order i).trans (sent i)
  have refused : ∀ {i : Fin S.plan.jobs} {letter : Bytes},
      letter ∈ rejectedOf S.json (S.taken (S.chunks.get i)) → letter ∈ S.refused := by
    intro i letter mem
    exact List.mem_flatMap.mpr ⟨_, List.get_mem _ _, mem⟩
  have among : s.linesQuarantined.Subperm S.refused := by
    have each := map_snd_perm_flatMap s.quarantined
    have all : S.refused = (List.finRange S.plan.jobs).flatMap fun i =>
        rejectedOf S.json (S.taken (S.chunks.get i)) :=
      (S.flatMap_chunks fun chunk => rejectedOf S.json (S.taken chunk)).symm
    rw [State.linesQuarantined, all]
    exact each.subperm.trans (List.Sublist.flatMap_right _ fun i _ => (order i).sublist).subperm
  obtain ⟨torn, file, torn_cases⟩ := kept.file
  have torn_refused : torn = [] ∨ torn ∈ S.refused := by
    rcases torn_cases with empty | ⟨i, mem⟩
    · exact .inl empty
    · exact .inr (refused ((sent i).subset mem))
  refine ⟨torn, ?_, ?_, among, order⟩
  · rw [file]
    apply splitLines_torn
    · exact fun letter mem => S.newline_not_mem_of_refused (among.subset mem)
    · rcases torn_refused with rfl | mem
      · exact List.not_mem_nil
      · exact S.newline_not_mem_of_refused mem
  · exact torn_refused.imp_right fun mem => ⟨torn, mem, List.prefix_refl _⟩

theorem deadLetterFile_torn :
    ∃ (S : Setup) (s : State S.plan) (torn : Bytes),
      Reached S.plan s ∧ s.quarantine = .failed (.io "No space left on device (os error 28)") ∧
        s.deadLetterFile = ascii "x" ∧ splitLines s.deadLetterFile = s.linesQuarantined ++ [torn] ∧
        (torn = [] ∨ ∃ letter ∈ S.refused, torn <+: letter) := by
  let config := { PipelineConfig.default with ignoreErrors := true, deadLetterPath := some "q" }
  let S := Setup.sample config (ascii "\x7b\"a\":1\x7d\nx")
  let schedule : List (Action S.plan) :=
    List.replicate 3 (.closure ⟨1, by decide⟩) ++ List.replicate 3 (.quarantine none) ++
      [.quarantine (some (.io "No space left on device (os error 28)"))]
  have reached : Reached S.plan _ :=
    reachable_of_run (fun _ _ => trivial) (rfl : run (step S.plan) schedule (.initial _) = some _)
  obtain ⟨torn, lines, torn_cases, _⟩ := deadLetterFile_at_any_time reached
  exact ⟨S, _, torn, reached, rfl, rfl, lines, torn_cases⟩

end Parq.Pipeline
