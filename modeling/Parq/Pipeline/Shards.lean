import Parq.Pipeline.Mark

/-!
# Conversions add up

Without a limit, what a run converts is settled by the trimmed texts of the lines that
are not blank, up to their order.  It does not matter how the input is cut, on how
many workers and in what batches, and an input may be divided among several runs that have
the same schema, mode and flattening.
-/

namespace Parq.Pipeline

open Parq.Chunk
open Parq.Data
open Parq.Parser
open Parq.Schema
open Parq.Sequence
open Parq.Transition

/-! ## Lines and their trimmed texts -/

section Texts

variable {J : SerdeJson} {line text : Bytes}

/-- Trimming again changes nothing. -/
theorem trimmed?_text (trimmed : trimmed? line = some text) : trimmed? text = some text := by
  obtain ⟨rfl, nonempty⟩ := trimmed?_eq_some_iff.mp trimmed
  exact trimmed?_eq_some_iff.mpr ⟨trimAscii_trimAscii line, nonempty⟩

theorem classify_of_trimmed (flattenJson : Bool) (trimmed : trimmed? line = some text) :
    classify J flattenJson line = classify J flattenJson text := by
  rw [classify, classify, trimmed, trimmed?_text trimmed]

theorem record?_eq_bind (J : SerdeJson) (flattenJson : Bool) (line : Bytes) :
    record? J flattenJson line = (trimmed? line).bind (record? J flattenJson) := by
  cases trimmed : trimmed? line with
  | none => rw [record?_of_blank flattenJson trimmed, Option.bind_none]
  | some text => rw [Option.bind_some, record?, record?, classify_of_trimmed flattenJson trimmed]

theorem rejected?_eq_bind (J : SerdeJson) (line : Bytes) :
    rejected? J line = (trimmed? line).bind (rejected? J) := by
  cases trimmed : trimmed? line with
  | none => rw [rejected?_of_blank trimmed, Option.bind_none]
  | some text => rw [Option.bind_some, rejected?, rejected?, classify_of_trimmed false trimmed]

/-- The records of some data are those of its trimmed texts. -/
theorem recordsOf_nonBlankLines (J : SerdeJson) (flattenJson : Bool) (data : Bytes) :
    recordsOf J flattenJson (nonBlankLines data) = recordsOf J flattenJson (splitLines data) := by
  rw [recordsOf, recordsOf, nonBlankLines, List.filterMap_filterMap]
  apply List.filterMap_congr
  intro line _
  exact (record?_eq_bind J flattenJson line).symm

theorem rejectedOf_nonBlankLines (J : SerdeJson) (data : Bytes) :
    rejectedOf J (nonBlankLines data) = rejectedOf J (splitLines data) := by
  rw [rejectedOf, rejectedOf, nonBlankLines, List.filterMap_filterMap]
  apply List.filterMap_congr
  intro line _
  exact (rejected?_eq_bind J line).symm

theorem lineOk_of_trimmed {o : ParseOptions} (trimmed : trimmed? line = some text) :
    LineOk J o line ↔ LineOk J o text := by
  simp only [LineOk, lineError, record?, classify_of_trimmed o.flattenJson trimmed]

/-- The lines of some data are acceptable when its trimmed texts are. -/
theorem lineOk_nonBlankLines (J : SerdeJson) (o : ParseOptions) (data : Bytes) :
    (∀ line ∈ splitLines data, LineOk J o line) ↔ ∀ text ∈ nonBlankLines data, LineOk J o text := by
  constructor
  · intro each text mem
    rcases List.mem_filterMap.mp mem with ⟨line, line_mem, trimmed⟩
    exact (lineOk_of_trimmed trimmed).mp (each line line_mem)
  · intro each line mem
    cases trimmed : trimmed? line with
    | none => exact lineOk_of_blank trimmed
    | some text =>
        exact (lineOk_of_trimmed trimmed).mpr
          (each text (List.mem_filterMap.mpr ⟨line, mem, trimmed⟩))

/-- Batches and the dead-letter channel have no part in whether a line is acceptable. -/
theorem lineOk_congr {o o' : ParseOptions} (schema : o'.schema = o.schema)
    (mode : o'.ignoreErrors = o.ignoreErrors) (flatten : o'.flattenJson = o.flattenJson) :
    LineOk J o' line ↔ LineOk J o line := by
  rw [LineOk, LineOk, lineError, lineError, schema, mode, flatten]

end Texts

/-! ## Runs that return Ok -/

/-- A run that has returned `Ok`, whatever failed on the way. -/
structure OkRun where
  setup : Setup
  state : State setup.plan
  metrics : ProcessingMetrics
  reached : Reached setup.plan state
  returned : state.main = .returned (.ok metrics)

namespace OkRun

variable (run : OkRun)

/-- The rows in the file. -/
def rows : List Row :=
  run.state.rowsWritten

/-- The lines in the dead-letter file. -/
def letters : List Bytes :=
  run.state.linesQuarantined

theorem completed : Completed run.state run.metrics :=
  run.reached.completed run.returned

theorem delivered : Delivered run.setup run.state run.metrics :=
  run.completed.delivered

theorem letters_perm (path : run.setup.config.deadLetterPath.isSome = true) :
    run.letters.Perm run.setup.refused := by
  have completed := run.completed
  have done := completed.quarantine.resolve_left (run.reached.quarantine_present path)
  exact quarantined_perm completed.parsed path (completed.quarantined done).1

/-- Without a dead-letter path there are no dead-letter lines. -/
theorem letters_eq_nil (without : run.setup.config.deadLetterPath.isSome = false) :
    run.letters = [] := by
  rw [letters, State.linesQuarantined, (run.reached.quarantined_eq_nil without).2]
  rfl

theorem rows_perm (unlimited : run.setup.config.limit = none) :
    run.rows.Perm (run.setup.records.map run.setup.row) := by
  rw [← run.setup.accepted_eq unlimited]
  exact run.delivered.rows

theorem processed_eq (unlimited : run.setup.config.limit = none) :
    run.metrics.rowsProcessed = run.setup.records.length := by
  rw [run.delivered.processed, run.setup.accepted_eq unlimited]

theorem errored_eq (unlimited : run.setup.config.limit = none) :
    run.metrics.rowsErrored = run.setup.rejected.length := by
  rw [run.delivered.errored, run.setup.refused_eq unlimited]

/-- Every accepted record can be stored. -/
theorem writable {obj : Map} (accepted : obj ∈ run.setup.accepted) :
    Writable run.setup.json run.setup.schema obj := by
  rcases List.mem_flatMap.mp accepted with ⟨chunk, chunk_mem, recorded⟩
  rcases List.mem_filterMap.mp recorded with ⟨line, line_mem, read⟩
  have ok := run.setup.allParsed_iff.mp run.completed.parsed chunk chunk_mem line line_mem
  exact ok.2 obj read

end OkRun

/-- A setup has a run that returns `Ok` exactly when all its chunks are parsed. -/
theorem exists_okRun_iff (S : Setup) : (∃ run : OkRun, run.setup = S) ↔ S.plan.AllParsed := by
  constructor
  · rintro ⟨run, rfl⟩
    exact run.completed.parsed
  · intro all
    obtain ⟨s, result, reached, returned⟩ := exists_returned_faultFree S.plan
    obtain ⟨metrics, rfl⟩ := ok_of_faultFree all reached returned
    exact ⟨⟨S, s, metrics, reached.mono fun _ _ => trivial, returned⟩, rfl⟩

/-! ## Runs that read lines alike -/

/-- The run `T` reads a line as the run `S` does, with its schema, mode and flattening, and
neither has a limit. -/
structure Setup.ReadsAlike (S T : Setup) : Prop where
  json : T.json = S.json
  schema : T.schema = S.schema
  mode : T.config.ignoreErrors = S.config.ignoreErrors
  flatten : T.config.flatten = S.config.flatten
  unlimited : S.config.limit = none ∧ T.config.limit = none

namespace Setup

variable {S T : Setup}

theorem ReadsAlike.records (alike : S.ReadsAlike T) :
    T.records = recordsOf S.json S.config.flatten (nonBlankLines T.input) := by
  rw [Setup.records, alike.json, alike.flatten, recordsOf_nonBlankLines]

theorem ReadsAlike.rejected (alike : S.ReadsAlike T) :
    T.rejected = rejectedOf S.json (nonBlankLines T.input) := by
  rw [Setup.rejected, alike.json, rejectedOf_nonBlankLines]

theorem ReadsAlike.row (alike : S.ReadsAlike T) : T.row = S.row := by
  funext obj
  rw [Setup.row, Setup.row, alike.json, alike.schema]

theorem ReadsAlike.allParsed_iff (alike : S.ReadsAlike T) :
    T.plan.AllParsed ↔ ∀ text ∈ nonBlankLines T.input, LineOk S.json S.options text := by
  rw [T.allParsed_iff_lines alike.unlimited.2, lineOk_nonBlankLines, alike.json]
  have congr : ∀ text, LineOk S.json T.options text ↔ LineOk S.json S.options text :=
    fun text => lineOk_congr alike.schema alike.mode alike.flatten
  simp only [congr]

theorem ReadsAlike.refl (unlimited : S.config.limit = none) : S.ReadsAlike S :=
  ⟨rfl, rfl, rfl, rfl, unlimited, unlimited⟩

end Setup

/-! ## An input divided among several runs -/

/-- The runs `shards` read lines as the run `S` does, with its schema, mode and flattening,
and the lines of their inputs, in any order, are those of the input of `S`. -/
structure Setup.DividedAmong (S : Setup) (shards : List Setup) : Prop where
  unlimited : S.config.limit = none
  alike : ∀ T ∈ shards, S.ReadsAlike T
  lines : (nonBlankLines S.input).Perm (shards.flatMap fun T => nonBlankLines T.input)

section Divided

variable {S : Setup} {shards : List Setup} (divided : S.DividedAmong shards)

include divided

theorem Setup.DividedAmong.records_perm : S.records.Perm (shards.flatMap Setup.records) := by
  have own := (Setup.ReadsAlike.refl divided.unlimited).records
  have each : shards.flatMap Setup.records =
      recordsOf S.json S.config.flatten (shards.flatMap fun T => nonBlankLines T.input) := by
    rw [recordsOf, List.filterMap_flatMap]
    exact List.flatMap_congr fun T mem => (divided.alike T mem).records
  rw [own, each]
  exact divided.lines.filterMap _

theorem Setup.DividedAmong.rejected_perm : S.rejected.Perm (shards.flatMap Setup.rejected) := by
  have own := (Setup.ReadsAlike.refl divided.unlimited).rejected
  have each : shards.flatMap Setup.rejected =
      rejectedOf S.json (shards.flatMap fun T => nonBlankLines T.input) := by
    rw [rejectedOf, List.filterMap_flatMap]
    exact List.flatMap_congr fun T mem => (divided.alike T mem).rejected
  rw [own, each]
  exact divided.lines.filterMap _

theorem Setup.DividedAmong.allParsed_iff :
    S.plan.AllParsed ↔ ∀ T ∈ shards, T.plan.AllParsed := by
  rw [(Setup.ReadsAlike.refl divided.unlimited).allParsed_iff]
  constructor
  · intro each T mem
    rw [(divided.alike T mem).allParsed_iff]
    intro text text_mem
    exact each text (divided.lines.mem_iff.mpr (List.mem_flatMap.mpr ⟨T, mem, text_mem⟩))
  · intro each text text_mem
    rcases List.mem_flatMap.mp (divided.lines.mem_iff.mp text_mem) with ⟨T, mem, text_mem⟩
    exact (divided.alike T mem).allParsed_iff.mp (each T mem) text text_mem

end Divided

/-- The parts of a conversion make up the whole. -/
structure AddUp (whole : OkRun) (parts : List OkRun) : Prop where
  rows : whole.rows.Perm (parts.flatMap OkRun.rows)
  processed : whole.metrics.rowsProcessed = (parts.map fun part => part.metrics.rowsProcessed).sum
  errored : whole.metrics.rowsErrored = (parts.map fun part => part.metrics.rowsErrored).sum
  letters : (∀ run ∈ whole :: parts, run.setup.config.deadLetterPath.isSome = true) →
    whole.letters.Perm (parts.flatMap OkRun.letters)

theorem addUp_of_divided {whole : OkRun} {parts : List OkRun}
    (divided : whole.setup.DividedAmong (parts.map OkRun.setup)) : AddUp whole parts := by
  have alike : ∀ part ∈ parts, whole.setup.ReadsAlike part.setup :=
    fun part mem => divided.alike part.setup (List.mem_map_of_mem mem)
  have records : whole.setup.records.Perm (parts.flatMap fun part => part.setup.records) := by
    rw [← List.flatMap_map OkRun.setup Setup.records]
    exact divided.records_perm
  have rejected : whole.setup.rejected.Perm (parts.flatMap fun part => part.setup.rejected) := by
    rw [← List.flatMap_map OkRun.setup Setup.rejected]
    exact divided.rejected_perm
  constructor
  · refine (whole.rows_perm divided.unlimited).trans ((records.map _).trans ?_)
    rw [List.map_flatMap]
    apply List.Perm.flatMap_left
    intro part mem
    rw [← (alike part mem).row]
    exact (part.rows_perm (alike part mem).unlimited.2).symm
  · rw [whole.processed_eq divided.unlimited, records.length_eq, List.length_flatMap]
    apply congrArg List.sum
    apply List.map_congr_left
    intro part mem
    exact (part.processed_eq (alike part mem).unlimited.2).symm
  · rw [whole.errored_eq divided.unlimited, rejected.length_eq, List.length_flatMap]
    apply congrArg List.sum
    apply List.map_congr_left
    intro part mem
    exact (part.errored_eq (alike part mem).unlimited.2).symm
  · intro kept
    have own := whole.letters_perm (kept whole List.mem_cons_self)
    rw [whole.setup.refused_eq divided.unlimited] at own
    refine own.trans (rejected.trans ?_)
    apply List.Perm.flatMap_left
    intro part mem
    have letters := part.letters_perm (kept part (List.mem_cons_of_mem whole mem))
    rw [part.setup.refused_eq (alike part mem).unlimited.2] at letters
    exact letters.symm

/-- An input that is divided among several runs with the same schema, mode and flattening
and without a limit is converted by them as by one such run: some run returns `Ok` on the
whole exactly when some run does on each part, and then, under any interleavings, rows,
counters and dead-letter lines add up. -/
theorem conversions_add_up {S : Setup} {shards : List Setup} (divided : S.DividedAmong shards) :
    ((∃ whole : OkRun, whole.setup = S) ↔ ∀ T ∈ shards, ∃ part : OkRun, part.setup = T) ∧
      ∀ (whole : OkRun) (parts : List OkRun), whole.setup = S → parts.map OkRun.setup = shards →
        AddUp whole parts := by
  constructor
  · simp only [exists_okRun_iff]
    exact divided.allParsed_iff
  · rintro whole parts rfl rfl
    exact addUp_of_divided divided

theorem conversions_add_up_two_lines :
    ∃ (whole : OkRun) (parts : List OkRun), parts.length = 2 ∧ AddUp whole parts := by
  let config := PipelineConfig.default
  let S := Setup.sample config (ascii "\x7b\"a\":1\x7d\n\x7b\"a\":true\x7d")
  let first := Setup.sample config (ascii "\x7b\"a\":true\x7d")
  let second := Setup.sample config (ascii "\x7b\"a\":1\x7d")
  have alike : ∀ input, S.ReadsAlike (.sample config input) :=
    fun _ => ⟨rfl, rfl, rfl, rfl, rfl, rfl⟩
  have divided : S.DividedAmong [first, second] :=
    ⟨rfl, by
      rintro T (_ | ⟨_, _ | ⟨_, ⟨⟩⟩⟩)
      · exact alike _
      · exact alike _, by decide⟩
  let schedule : List (Action S.plan) :=
    .writer none :: List.replicate 7 (.closure ⟨0, by decide⟩) ++
      List.replicate 7 (.closure ⟨1, by decide⟩) ++ List.replicate 6 (.writer none) ++
      List.replicate 3 .main
  have reached : Reached S.plan _ :=
    reachable_of_run (fun _ _ => trivial) (rfl : run (step S.plan) schedule (.initial _) = some _)
  let whole : OkRun := ⟨S, _, _, reached, rfl⟩
  have each := (conversions_add_up divided).1.mp ⟨whole, rfl⟩
  obtain ⟨part, part_eq⟩ := each first List.mem_cons_self
  obtain ⟨rest, rest_eq⟩ := each second (List.mem_cons_of_mem _ List.mem_cons_self)
  refine ⟨whole, [part, rest], rfl, (conversions_add_up divided).2 whole [part, rest] rfl ?_⟩
  rw [List.map_cons, List.map_singleton, part_eq, rest_eq]

/-! ## Other chunks, batches and threads -/

/-- The machines have the same files. -/
structure Host.SameFiles (host host' : Host) : Prop where
  openInput : host'.openInput = host.openInput
  readToString : host'.readToString = host.readToString

/-- The configurations differ at most in the batch size, the chunk size, the channel depth
and the number of threads. -/
structure PipelineConfig.Retuned (config config' : PipelineConfig) : Prop where
  inputPath : config'.inputPath = config.inputPath
  ignoreErrors : config'.ignoreErrors = config.ignoreErrors
  flatten : config'.flatten = config.flatten
  limit : config'.limit = config.limit
  schemaPath : config'.schemaPath = config.schemaPath
  deadLetterPath : config'.deadLetterPath = config.deadLetterPath

section Retuned

variable {J : SerdeJson} {host host' : Host} {config config' : PipelineConfig}

/-- The preparation fails alike, or gives runs that read the same lines alike. -/
theorem prepare_retuned (files : host.SameFiles host') (retuned : config.Retuned config')
    (unlimited : config.limit = none) :
    (∃ e, prepare J host config = .error e ∧ prepare J host' config' = .error e) ∨
      ∃ S S', prepare J host config = .ok S ∧ prepare J host' config' = .ok S' ∧
        S.ReadsAlike S' ∧ S'.input = S.input ∧ S.config = config ∧ S'.config = config' := by
  have chosen : ∀ input, chooseSchema J host' config' input = chooseSchema J host config input := by
    intro input
    rw [chooseSchema, chooseSchema, retuned.schemaPath, files.readToString]
  unfold prepare
  rw [files.openInput, retuned.inputPath]
  cases host.openInput config.inputPath with
  | error message => exact .inl ⟨_, rfl, rfl⟩
  | ok input =>
      simp only [chosen]
      cases chooseSchema J host config input with
      | error e => exact .inl ⟨e, rfl, rfl⟩
      | ok schema =>
          refine .inr ⟨_, _, rfl, rfl, ?_, rfl, rfl, rfl⟩
          exact ⟨rfl, rfl, retuned.ignoreErrors, retuned.flatten, unlimited,
            retuned.limit.trans unlimited⟩

end Retuned

/-- Two runs have converted the same: the rows and the dead-letter lines up to their
order, and the counters. -/
structure SameConversion (run run' : OkRun) : Prop where
  rows : run'.rows.Perm run.rows
  processed : run'.metrics.rowsProcessed = run.metrics.rowsProcessed
  errored : run'.metrics.rowsErrored = run.metrics.rowsErrored
  bytes : run'.metrics.inputBytes = run.metrics.inputBytes
  letters : run'.letters.Perm run.letters

theorem sameConversion_of_input {run run' : OkRun} (alike : run.setup.ReadsAlike run'.setup)
    (input : run'.setup.input = run.setup.input)
    (path : run'.setup.config.deadLetterPath = run.setup.config.deadLetterPath) :
    SameConversion run run' := by
  have records : run'.setup.records = run.setup.records := by
    rw [alike.records, input, (Setup.ReadsAlike.refl alike.unlimited.1).records]
  have rejected : run'.setup.rejected = run.setup.rejected := by
    rw [alike.rejected, input, (Setup.ReadsAlike.refl alike.unlimited.1).rejected]
  constructor
  · have rows := run'.rows_perm alike.unlimited.2
    rw [records, alike.row] at rows
    exact rows.trans (run.rows_perm alike.unlimited.1).symm
  · rw [run'.processed_eq alike.unlimited.2, records, run.processed_eq alike.unlimited.1]
  · rw [run'.errored_eq alike.unlimited.2, rejected, run.errored_eq alike.unlimited.1]
  · rw [run'.completed.metrics, run.completed.metrics]
    exact congrArg List.length input
  · cases kept : run.setup.config.deadLetterPath.isSome with
    | true =>
        have letters := run'.letters_perm (by rw [path, kept])
        rw [run'.setup.refused_eq alike.unlimited.2, rejected,
          ← run.setup.refused_eq alike.unlimited.1] at letters
        exact letters.trans (run.letters_perm kept).symm
    | false =>
        rw [run.letters_eq_nil kept, run'.letters_eq_nil (by rw [path, kept])]

/-- Without a limit, the batch size, the chunk size, the channel depth, the number of
threads and the machine have no part in what a run converts: the preparation fails
alike, there is a run that returns `Ok` on both sides or on neither, and any two
such runs have converted the same. -/
theorem tuning_transparent (J : SerdeJson) {host host' : Host} (files : host.SameFiles host')
    {config config' : PipelineConfig} (retuned : config.Retuned config')
    (unlimited : config.limit = none) :
    (∀ e, prepare J host config = .error e ↔ prepare J host' config' = .error e) ∧
      ((∃ run : OkRun, prepare J host config = .ok run.setup) ↔
        ∃ run' : OkRun, prepare J host' config' = .ok run'.setup) ∧
      ∀ run run' : OkRun, prepare J host config = .ok run.setup →
        prepare J host' config' = .ok run'.setup → SameConversion run run' := by
  rcases prepare_retuned files retuned unlimited (J := J) with
    ⟨e, failed, failed'⟩ | ⟨S, S', prepared, prepared', alike, input, own, own'⟩
  · rw [failed, failed']
    exact ⟨fun _ => Iff.rfl, ⟨fun ⟨_, bad⟩ => (by cases bad), fun ⟨_, bad⟩ => (by cases bad)⟩,
      fun _ _ bad => (by cases bad)⟩
  · rw [prepared, prepared']
    refine ⟨fun e => ⟨fun bad => (by cases bad), fun bad => (by cases bad)⟩, ?_, ?_⟩
    · have parsed : S.plan.AllParsed ↔ S'.plan.AllParsed := by
        rw [alike.allParsed_iff, input, (Setup.ReadsAlike.refl alike.unlimited.1).allParsed_iff]
      simp only [Except.ok.injEq, eq_comm (a := S), eq_comm (a := S'), exists_okRun_iff]
      exact parsed
    · rintro run run' same same'
      obtain rfl := Except.ok.inj same
      obtain rfl := Except.ok.inj same'
      refine sameConversion_of_input alike input ?_
      rw [own, own']
      exact retuned.deadLetterPath

/-- Two chunks on two workers are converted to what one chunk on one worker is. -/
theorem tuning_transparent_two_chunks :
    let input := ascii "\x7b\"a\":1\x7d\n\x7b\"a\":true\x7d"
    let host :=
      { Host.sample input with poolSize := fun _ => 2, poolSize_pos := fun _ => Nat.two_pos }
    let config :=
      { PipelineConfig.default with batchSize := 1, channelDepth := 0, chunkSize := some 1 }
    ∃ run run' : OkRun, prepare .sample (.sample input) .default = .ok run.setup ∧
      prepare .sample host config = .ok run'.setup ∧ run.setup.chunks.length = 1 ∧
      run'.setup.chunks.length = 2 ∧ run'.setup.workers = 2 ∧ SameConversion run run' := by
  intro input host config
  have files : (Host.sample input).SameFiles host := ⟨rfl, rfl⟩
  have retuned : PipelineConfig.default.Retuned config := ⟨rfl, rfl, rfl, rfl, rfl, rfl⟩
  obtain ⟨_, exists_iff, same⟩ := tuning_transparent .sample files retuned rfl
  let S := (prepare .sample (.sample input) .default).toOption.get rfl
  let schedule : List (Action S.plan) :=
    .writer none :: List.replicate 7 (.closure ⟨0, by decide⟩) ++
      List.replicate 4 (.writer none) ++ List.replicate 3 .main
  have reached : Reached S.plan _ :=
    reachable_of_run (fun _ _ => trivial) (rfl : run (step S.plan) schedule (.initial _) = some _)
  obtain ⟨run, prepared, alone⟩ : ∃ run : OkRun,
      prepare .sample (.sample input) .default = .ok run.setup ∧ run.setup.chunks.length = 1 :=
    ⟨⟨S, _, _, reached, rfl⟩, rfl, rfl⟩
  obtain ⟨run', prepared'⟩ := exists_iff.mp ⟨run, prepared⟩
  have cut : (prepare .sample host config).map (fun T => (T.chunks.length, T.workers)) =
      .ok (2, 2) := rfl
  rw [prepared'] at cut
  obtain ⟨chunks, workers⟩ := Prod.mk.inj (Except.ok.inj cut)
  exact ⟨run, run', prepared, prepared', alone, chunks, workers, same run run' prepared prepared'⟩

end Parq.Pipeline
