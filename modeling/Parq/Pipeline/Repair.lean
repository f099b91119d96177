import Parq.Pipeline.Shards

/-!
# The dead-letter file repaired

A run that returns `Ok` has the lines it rejected in its dead-letter file.  When they are
edited there and the file is converted by a second run that reads lines as the first one
does, the two runs together convert what one run converts of the input with the same
edits in it.
-/

namespace Parq.Pipeline

open Parq.Data
open Parq.Parser
open Parq.Sequence
open Parq.Transition

/-! ## Accepted lines -/

section Accepted

variable {J : SerdeJson}

/-- The records of a line are those of its text when it is accepted. -/
theorem record?_eq_accepted (J : SerdeJson) (flattenJson : Bool) (line : Bytes) :
    record? J flattenJson line = (accepted? J line).bind (record? J flattenJson) := by
  rcases trimmed?_cases J line with ⟨accepted, _⟩ | ⟨refused, none_accepted⟩
  · rw [← accepted]
    exact record?_eq_bind J flattenJson line
  · rw [none_accepted, Option.bind_none]
    cases rejected : rejected? J line with
    | none => rw [record?_eq_bind, refused, rejected, Option.bind_none]
    | some text => exact record?_of_rejected? flattenJson rejected

theorem recordsOf_acceptedOf (J : SerdeJson) (flattenJson : Bool) (lines : List Bytes) :
    recordsOf J flattenJson (acceptedOf J lines) = recordsOf J flattenJson lines := by
  rw [recordsOf, recordsOf, acceptedOf, List.filterMap_filterMap]
  apply List.filterMap_congr
  intro line _
  exact (record?_eq_accepted J flattenJson line).symm

theorem rejectedOf_acceptedOf (J : SerdeJson) (lines : List Bytes) :
    rejectedOf J (acceptedOf J lines) = [] := by
  rw [rejectedOf, acceptedOf, List.filterMap_filterMap, List.filterMap_eq_nil_iff]
  intro line _
  rcases trimmed?_cases J line with ⟨accepted, kept⟩ | ⟨_, none_accepted⟩
  · rw [← accepted, ← rejected?_eq_bind]
    exact kept
  · rw [none_accepted, Option.bind_none]

theorem lineOk_acceptedOf {o : ParseOptions} {lines : List Bytes}
    (each : ∀ line ∈ lines, LineOk J o line) : ∀ text ∈ acceptedOf J lines, LineOk J o text := by
  intro text mem
  rcases List.mem_filterMap.mp mem with ⟨line, line_mem, accepted⟩
  rcases trimmed?_cases J line with ⟨same, _⟩ | ⟨_, none_accepted⟩
  · exact (lineOk_of_trimmed (same.trans accepted)).mp (each line line_mem)
  · rw [none_accepted] at accepted
    cases accepted

/-- The accepted lines are the texts that are not among the rejected ones. -/
theorem acceptedOf_eq_filter (J : SerdeJson) {data : Bytes} {letters : List Bytes}
    (letters_iff : ∀ text, text ∈ letters ↔ text ∈ rejectedOf J (splitLines data)) :
    acceptedOf J (splitLines data) = (nonBlankLines data).filter (· ∉ letters) := by
  rw [acceptedOf, nonBlankLines, List.filter_filterMap]
  apply List.filterMap_congr
  intro line line_mem
  rcases trimmed?_cases J line with ⟨accepted, kept⟩ | ⟨rejected, none_accepted⟩
  · cases text : trimmed? line with
    | none => rw [← accepted, text, Option.filter_none]
    | some own =>
        have fresh : own ∉ letters := by
          intro mem
          obtain ⟨other, _, refused⟩ := List.mem_filterMap.mp ((letters_iff own).mp mem)
          rw [rejected?_eq_bind, text, Option.bind_some, rejected?_text refused] at kept
          cases kept
        rw [← accepted, text, Option.filter, if_pos (decide_eq_true fresh)]
  · cases text : trimmed? line with
    | none => rw [none_accepted, Option.filter_none]
    | some own =>
        have listed : own ∈ letters :=
          (letters_iff own).mpr (List.mem_filterMap.mpr ⟨line, line_mem, rejected ▸ text⟩)
        rw [none_accepted, Option.filter, if_neg (by simpa using listed)]

/-- The texts that are among the rejected ones are these, each as often. -/
theorem filter_mem_perm (J : SerdeJson) {data : Bytes} {letters : List Bytes}
    (perm : letters.Perm (rejectedOf J (splitLines data))) :
    ((nonBlankLines data).filter (· ∈ letters)).Perm letters := by
  have apart := List.filter_append_perm (fun text => decide (text ∈ letters)) (nonBlankLines data)
  have others : (nonBlankLines data).filter (fun text => !decide (text ∈ letters)) =
      acceptedOf J (splitLines data) := by
    rw [acceptedOf_eq_filter J fun _ => perm.mem_iff]
    simp only [decide_not]
  rw [others] at apart
  have divided := apart.trans (acceptedOf_append_rejectedOf_perm J (splitLines data)).symm
  exact ((List.perm_append_right_iff _).mp (divided.trans List.perm_append_comm)).trans perm.symm

end Accepted

/-! ## Two runs for one -/

/-- The run `whole` has the accepted lines of the run `dirty` and the lines of the run
`fixed`. -/
structure Setup.CompletedBy (dirty fixed whole : Setup) : Prop where
  second : dirty.ReadsAlike fixed
  one : dirty.ReadsAlike whole
  lines : (nonBlankLines whole.input).Perm
    (acceptedOf dirty.json (splitLines dirty.input) ++ nonBlankLines fixed.input)

section CompletedBy

variable {dirty fixed whole : Setup} (completed : dirty.CompletedBy fixed whole)

include completed

theorem Setup.CompletedBy.records_perm : whole.records.Perm (dirty.records ++ fixed.records) := by
  rw [completed.one.records, completed.second.records]
  refine (completed.lines.filterMap _).trans ?_
  rw [List.filterMap_append]
  exact .append_right _ (.of_eq (recordsOf_acceptedOf _ _ _))

theorem Setup.CompletedBy.rejected_perm : whole.rejected.Perm fixed.rejected := by
  rw [completed.one.rejected, completed.second.rejected]
  refine (completed.lines.filterMap _).trans ?_
  rw [List.filterMap_append]
  exact .append_right _ (.of_eq (rejectedOf_acceptedOf _ _))

theorem Setup.CompletedBy.allParsed_iff (converted : dirty.plan.AllParsed) :
    whole.plan.AllParsed ↔ fixed.plan.AllParsed := by
  rw [completed.one.allParsed_iff, completed.second.allParsed_iff]
  have accepted :=
    lineOk_acceptedOf ((dirty.allParsed_iff_lines completed.second.unlimited.1).mp converted)
  constructor
  · intro each text mem
    exact each text (completed.lines.mem_iff.mpr (List.mem_append_right _ mem))
  · intro each text mem
    rcases List.mem_append.mp (completed.lines.mem_iff.mp mem) with mem | mem
    · exact accepted text mem
    · exact each text mem

end CompletedBy

/-! ## Edited lines -/

/-- A line of an input and the lines that are put in its place. -/
structure Edit where
  line : Bytes
  lines : List Bytes

/-- The edits of the lines that are in the dead-letter file of the run. -/
def OkRun.repairs (first : OkRun) (edits : List Edit) : List Edit :=
  edits.filter fun edit => edit.line ∈ nonBlankLines first.state.deadLetterFile

/-- The run has a dead-letter file.  An edit of each line of its input leaves alone the
lines that are not in this file, the input of `fixed` is the file with the edits made in
it, and the input of `whole` is the input of the run with the edits made in it, both up
to the order of the lines. -/
structure OkRun.RepairedBy (first : OkRun) (edits : List Edit) (fixed whole : Setup) : Prop where
  path : first.setup.config.deadLetterPath.isSome = true
  second : first.setup.ReadsAlike fixed
  one : first.setup.ReadsAlike whole
  lines : (edits.map Edit.line).Perm (nonBlankLines first.setup.input)
  untouched : ∀ edit ∈ edits, edit.line ∉ nonBlankLines first.state.deadLetterFile →
    edit.lines = [edit.line]
  fixed : (nonBlankLines fixed.input).Perm ((first.repairs edits).flatMap Edit.lines)
  whole : (nonBlankLines whole.input).Perm (edits.flatMap Edit.lines)

/-- Two runs have converted what one run converts, and the second of them rejects what
that run rejects. -/
structure Resumed (first second one : OkRun) : Prop where
  rows : one.rows.Perm (first.rows ++ second.rows)
  processed : one.metrics.rowsProcessed =
    first.metrics.rowsProcessed + second.metrics.rowsProcessed
  errored : one.metrics.rowsErrored = second.metrics.rowsErrored
  rejected : one.setup.rejected.Perm second.setup.rejected
  letters : one.setup.config.deadLetterPath.isSome = true →
    second.setup.config.deadLetterPath.isSome = true → one.letters.Perm second.letters

section RepairedBy

variable {first : OkRun}

/-- The dead-letter file of a run without a limit has its rejected lines. -/
theorem OkRun.deadLetterLines_perm (path : first.setup.config.deadLetterPath.isSome = true)
    (unlimited : first.setup.config.limit = none) :
    (nonBlankLines first.state.deadLetterFile).Perm first.setup.rejected := by
  have done := first.completed.quarantine.resolve_left (first.reached.quarantine_present path)
  have file : first.state.deadLetterFile = letterFile first.letters :=
    (first.completed.quarantined done).2
  have perm := first.letters_perm path
  rw [first.setup.refused_eq unlimited] at perm
  have free : ∀ text ∈ first.letters, newline ∉ text :=
    fun text mem => newline_not_mem_of_rejected (perm.subset mem)
  have trimmed : first.letters.filterMap trimmed? = first.letters.filterMap some := by
    apply List.filterMap_congr
    intro text mem
    obtain ⟨line, _, rejected⟩ := List.mem_filterMap.mp (perm.subset mem)
    exact trimmed?_of_rejected? (rejected?_text rejected)
  have no_rest : [[]].filterMap trimmed? = [] := by
    decide
  rw [nonBlankLines, file, splitLines_letterFile free, List.filterMap_append, trimmed, no_rest,
    List.filterMap_some, List.append_nil]
  exact perm

variable {edits : List Edit} {fixed whole : Setup} (repaired : first.RepairedBy edits fixed whole)

include repaired

/-- Each line of the dead-letter file is edited once. -/
theorem OkRun.RepairedBy.lines_perm :
    ((first.repairs edits).map Edit.line).Perm (nonBlankLines first.state.deadLetterFile) := by
  have file := OkRun.deadLetterLines_perm repaired.path repaired.second.unlimited.1
  have listed :=
    repaired.lines.filter fun text => decide (text ∈ nonBlankLines first.state.deadLetterFile)
  rw [List.filter_map] at listed
  exact listed.trans (filter_mem_perm first.setup.json file)

/-- The lines that are not edited are the accepted ones. -/
theorem OkRun.RepairedBy.completedBy : first.setup.CompletedBy fixed whole := by
  refine ⟨repaired.second, repaired.one, ?_⟩
  have file := OkRun.deadLetterLines_perm repaired.path repaired.second.unlimited.1
  let others := edits.filter fun edit =>
    !decide (edit.line ∈ nonBlankLines first.state.deadLetterFile)
  have alone : ∀ edit ∈ others, edit.lines = [edit.line] := by
    intro edit mem
    obtain ⟨edit_mem, unlisted⟩ := List.mem_filter.mp mem
    exact repaired.untouched edit edit_mem (by simpa using unlisted)
  have rest : others.flatMap Edit.lines =
      (edits.map Edit.line).filter (· ∉ nonBlankLines first.state.deadLetterFile) := by
    calc
      others.flatMap Edit.lines = others.flatMap fun edit => [edit.line] := List.flatMap_congr alone
      _ = others.map Edit.line := List.map_eq_flatMap.symm
      _ = _ := by simp only [others, List.filter_map, Function.comp_def, decide_not]
  have apart := (List.filter_append_perm
    (fun edit => decide (edit.line ∈ nonBlankLines first.state.deadLetterFile)) edits).symm
  refine repaired.whole.trans ((apart.flatMap_right Edit.lines).trans ?_)
  rw [List.flatMap_append, rest, acceptedOf_eq_filter first.setup.json fun _ => file.mem_iff]
  refine List.perm_append_comm.trans ?_
  exact (repaired.lines.filter _).append repaired.fixed.symm

end RepairedBy

/-- The dead-letter file makes a conversion resumable.  A run has in it each line that is to
be edited, once; the input with all edits can be converted exactly when the edited file
can; and then the rows and counters of the two runs add up to those of one run, and the
second run rejects what that run rejects. -/
theorem repair_loses_nothing {first : OkRun} {edits : List Edit} {fixed whole : Setup}
    (repaired : first.RepairedBy edits fixed whole) :
    ((first.repairs edits).map Edit.line).Perm (nonBlankLines first.state.deadLetterFile) ∧
      ((∃ run : OkRun, run.setup = whole) ↔ ∃ run : OkRun, run.setup = fixed) ∧
      ∀ second one : OkRun, second.setup = fixed → one.setup = whole →
        Resumed first second one := by
  have completed := repaired.completedBy
  refine ⟨repaired.lines_perm, ?_, ?_⟩
  · rw [exists_okRun_iff, exists_okRun_iff]
    exact completed.allParsed_iff first.completed.parsed
  · rintro second one rfl rfl
    have own := completed.second.unlimited.1
    have own_fixed := completed.second.unlimited.2
    have own_whole := completed.one.unlimited.2
    constructor
    · refine (one.rows_perm own_whole).trans ((completed.records_perm.map _).trans ?_)
      rw [List.map_append, completed.one.row]
      have rest := second.rows_perm own_fixed
      rw [completed.second.row] at rest
      exact (first.rows_perm own).symm.append rest.symm
    · rw [one.processed_eq own_whole, first.processed_eq own, second.processed_eq own_fixed,
        completed.records_perm.length_eq, List.length_append]
    · rw [one.errored_eq own_whole, second.errored_eq own_fixed, completed.rejected_perm.length_eq]
    · exact completed.rejected_perm
    · intro path path'
      have kept := one.letters_perm path
      have kept' := second.letters_perm path'
      rw [one.setup.refused_eq own_whole] at kept
      rw [second.setup.refused_eq own_fixed] at kept'
      exact kept.trans (completed.rejected_perm.trans kept'.symm)

/-- Of two rejected lines one is repaired, and the other one is rejected again. -/
theorem repair_loses_nothing_three_lines :
    ∃ first second one : OkRun, first.metrics.rowsErrored = 2 ∧ second.metrics.rowsErrored = 1 ∧
      second.letters = [ascii "y"] ∧ Resumed first second one := by
  let config := { PipelineConfig.default with ignoreErrors := true, deadLetterPath := some "q" }
  let dirty := Setup.sample config (ascii "x\n\x7b\"a\":1\x7d\ny")
  let fixed := Setup.sample config (ascii "\x7b\"a\":true\x7d\ny")
  let whole := Setup.sample config (ascii "\x7b\"a\":true\x7d\n\x7b\"a\":1\x7d\ny")
  let edits : List Edit :=
    [⟨ascii "x", [ascii "\x7b\"a\":true\x7d"]⟩,
      ⟨ascii "\x7b\"a\":1\x7d", [ascii "\x7b\"a\":1\x7d"]⟩, ⟨ascii "y", [ascii "y"]⟩]
  let schedule : List (Action dirty.plan) :=
    .writer none :: List.replicate 7 (.closure ⟨0, by decide⟩) ++
      List.replicate 7 (.closure ⟨1, by decide⟩) ++ List.replicate 7 (.closure ⟨2, by decide⟩) ++
      List.replicate 4 (.writer none) ++ List.replicate 8 (.quarantine none) ++
      List.replicate 3 .main
  have reached : Reached dirty.plan _ := reachable_of_run (fun _ _ => trivial)
    (rfl : run (step dirty.plan) schedule (.initial _) = some _)
  let rest : List (Action fixed.plan) :=
    .writer none :: List.replicate 7 (.closure ⟨0, by decide⟩) ++
      List.replicate 7 (.closure ⟨1, by decide⟩) ++ List.replicate 4 (.writer none) ++
      List.replicate 5 (.quarantine none) ++ List.replicate 3 .main
  have reached_fixed : Reached fixed.plan _ := reachable_of_run (fun _ _ => trivial)
    (rfl : run (step fixed.plan) rest (.initial _) = some _)
  obtain ⟨first, setup, file, errored⟩ : ∃ first : OkRun, first.setup = dirty ∧
      first.state.deadLetterFile = ascii "x\ny\n" ∧ first.metrics.rowsErrored = 2 :=
    ⟨⟨dirty, _, _, reached, rfl⟩, rfl, rfl, rfl⟩
  let second : OkRun := ⟨fixed, _, _, reached_fixed, rfl⟩
  have repaired : first.RepairedBy edits fixed whole := by
    constructor
    case path =>
      rw [setup]
      rfl
    case second | one =>
      rw [setup]
      exact ⟨rfl, rfl, rfl, rfl, rfl, rfl⟩
    case lines =>
      rw [setup]
      decide
    case untouched =>
      rw [file]
      intro edit mem unlisted
      change edit ∈ [_, _, _] at mem
      rcases mem with _ | ⟨_, _ | ⟨_, _ | ⟨_, ⟨⟩⟩⟩⟩
      · exact absurd (by decide) unlisted
      · rfl
      · rfl
    case fixed =>
      rw [OkRun.repairs, file]
      decide
    case whole => decide
  obtain ⟨_, exists_iff, resumed⟩ := repair_loses_nothing repaired
  obtain ⟨one, one_eq⟩ := exists_iff.mpr ⟨second, rfl⟩
  exact ⟨first, second, one, errored, rfl, rfl, resumed second one rfl one_eq⟩

end Parq.Pipeline
