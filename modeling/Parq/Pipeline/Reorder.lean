import Parq.Pipeline.Columns
import Parq.Pipeline.WellFormed
import Parq.Schema.Blanks

/-!
# The order of the lines

Inference lists the columns in the order in which their keys first have a value.  This is
all that the order of the lines decides, as long as inference sees every line: with the
lines in another order the same conversions succeed, and a row has the same cells under
the same names.
-/

namespace Parq.Pipeline

open Parq.Data
open Parq.Parser
open Parq.Schema
open Parq.Transition

/-! ## Inputs that inference sees whole -/

/-- The input has no byte order mark, and its lines behind the first 10,000 are blank. -/
structure SeenWhole (input : Bytes) : Prop where
  unmarked : ¬ byteOrderMark <+: input
  within : ∀ line ∈ (splitLines input).drop 10000, trimmed? line = none

section SeenWhole

variable {J : SerdeJson} {input input' : Bytes} {schema schema' : Schema}

theorem SeenWhole.sampleTexts_eq (whole : SeenWhole input) :
    sampleTexts input 10000 = nonBlankLines input := by
  have plain : stripBom input = input := by
    rw [stripBom, if_neg]
    rw [List.isPrefixOf_iff_prefix]
    exact whole.unmarked
  rw [sampleTexts, sampleLines, plain]
  exact filterMap_take_of_blank (fun _ blank => blank) whole.within

/-- Trimmed texts are their own texts. -/
theorem filterMap_trimmed?_nonBlankLines (data : Bytes) :
    (nonBlankLines data).filterMap trimmed? = nonBlankLines data := by
  rw [nonBlankLines, List.filterMap_filterMap]
  apply List.filterMap_congr
  intro line _
  cases trimmed : trimmed? line with
  | none => rfl
  | some text => exact trimmed?_text trimmed

/-- The texts determine the schema. -/
theorem SeenWhole.determines (whole : SeenWhole input)
    (inferred : inferSchema J input 10000 = .ok schema) :
    Determines J (nonBlankLines input) schema := by
  have members : membersOf J (sampleLines input 10000) = membersOf J (nonBlankLines input) := by
    rw [membersOf_eq_textMembers, membersOf_eq_textMembers, filterMap_trimmed?_nonBlankLines,
      ← whole.sampleTexts_eq]
    rfl
  have determines := determines_of_inferSchema inferred
  constructor
  · rw [← members]
    exact determines.typed
  · rw [← members]
    exact determines.named
  · exact determines.nodup

theorem SeenWhole.inferSchema_isOk_iff (whole : SeenWhole input) :
    (∃ schema, inferSchema J input 10000 = .ok schema) ↔
      (∀ text ∈ nonBlankLines input, ∃ value, J.fromSlice text = .ok value) ∧
        nonBlankLines input ≠ [] := by
  rw [inferSchema_eq_inferTexts, whole.sampleTexts_eq, ← firstRefusal_eq_none_iff, inferTexts]
  cases firstRefusal J (nonBlankLines input) with
  | some found => simp
  | none =>
      by_cases empty : nonBlankLines input = []
      · simp [empty]
      · simp [empty]

end SeenWhole

/-! ## Other columns of the same texts -/

/-- The run `T` reads the texts that the run `S` reads, in any order, into some of its
columns. -/
structure Setup.ReadsSome (S T : Setup) : Prop where
  alike : S.ReadsAlike (T.selecting S.schema.fields)
  texts : (nonBlankLines T.input).Perm (nonBlankLines S.input)
  subset : T.schema.fields ⊆ S.schema.fields

section ReadsSome

variable {S T : Setup} (some : S.ReadsSome T)

include some

theorem Setup.ReadsSome.records_perm : T.records.Perm S.records := by
  have own := (Setup.ReadsAlike.refl some.alike.unlimited.1).records
  have other : T.records = recordsOf S.json S.config.flatten (nonBlankLines T.input) :=
    some.alike.records
  rw [own, other]
  exact some.texts.filterMap _

theorem Setup.ReadsSome.rejected_perm : T.rejected.Perm S.rejected := by
  have own := (Setup.ReadsAlike.refl some.alike.unlimited.1).rejected
  have other : T.rejected = rejectedOf S.json (nonBlankLines T.input) := some.alike.rejected
  rw [own, other]
  exact some.texts.filterMap _

theorem Setup.ReadsSome.row (obj : Map) :
    T.row obj = selectColumns S.schema.fields T.schema.fields (S.row obj) := by
  have json : T.json = S.json := some.alike.json
  rw [Setup.row, Setup.row, json]
  exact rowOf_selected some.subset obj

theorem Setup.ReadsSome.allParsed (nonempty : T.schema.fields ≠ []) (all : S.plan.AllParsed) :
    T.plan.AllParsed := by
  have whole : (T.selecting S.schema.fields).plan.AllParsed := by
    rw [some.alike.allParsed_iff]
    rw [(Setup.ReadsAlike.refl some.alike.unlimited.1).allParsed_iff] at all
    exact fun text mem => all text (some.texts.mem_iff.mp mem)
  exact (T.selecting S.schema.fields).allParsed_selecting some.subset nonempty whole

end ReadsSome

theorem selects_of_readsSome {run part : OkRun} (some : run.setup.ReadsSome part.setup)
    (path : part.setup.config.deadLetterPath = run.setup.config.deadLetterPath) :
    Selects part.setup.schema.fields run part := by
  have unlimited := some.alike.unlimited
  change _ ∧ part.setup.config.limit = none at unlimited
  constructor
  · have rows := part.rows_perm unlimited.2
    have same : part.setup.records.map part.setup.row =
        (part.setup.records.map run.setup.row).map
          (selectColumns run.setup.schema.fields part.setup.schema.fields) := by
      rw [List.map_map]
      exact List.map_congr_left fun obj _ => some.row obj
    rw [same] at rows
    refine rows.trans (List.Perm.map _ ?_)
    exact (some.records_perm.map _).trans (run.rows_perm unlimited.1).symm
  · rw [part.processed_eq unlimited.2, run.processed_eq unlimited.1]
    exact some.records_perm.length_eq
  · rw [part.errored_eq unlimited.2, run.errored_eq unlimited.1]
    exact some.rejected_perm.length_eq
  · intro kept
    have letters := part.letters_perm (by rw [path, kept])
    rw [part.setup.refused_eq unlimited.2] at letters
    refine letters.trans (some.rejected_perm.trans ?_)
    rw [← run.setup.refused_eq unlimited.1]
    exact (run.letters_perm kept).symm

/-! ## The lines in another order -/

/-- The inputs have the same texts, in any order, and inference sees both of them whole. -/
structure Reordered (input input' : Bytes) : Prop where
  texts : (nonBlankLines input').Perm (nonBlankLines input)
  whole : SeenWhole input
  whole' : SeenWhole input'

theorem Reordered.symm {input input' : Bytes} (reordered : Reordered input input') :
    Reordered input' input :=
  ⟨reordered.texts.symm, reordered.whole', reordered.whole⟩

theorem PipelineConfig.Retuned.symm {config config' : PipelineConfig}
    (retuned : config.Retuned config') : config'.Retuned config :=
  ⟨retuned.inputPath.symm, retuned.ignoreErrors.symm, retuned.flatten.symm, retuned.limit.symm,
    retuned.schemaPath.symm, retuned.deadLetterPath.symm⟩

section Reordered

variable {J : SerdeJson} {host host' : Host} {config config' : PipelineConfig}
  {input input' : Bytes}

/-- Two runs that are prepared with the lines in another order read each other's texts. -/
theorem Reordered.readsSome (reordered : Reordered input input') (retuned : config.Retuned config')
    (unlimited : config.limit = none) (inferred : config.schemaPath = none)
    (opened : host.openInput config.inputPath = .ok input)
    (opened' : host'.openInput config'.inputPath = .ok input') {S T : Setup}
    (prepared : prepare J host config = .ok S) (prepared' : prepare J host' config' = .ok T) :
    S.ReadsSome T ∧ T.schema.fields.Perm S.schema.fields := by
  obtain ⟨json, own, input_eq, schema⟩ := prepare_eq_ok inferred prepared
  obtain ⟨json', own', input_eq', schema'⟩ :=
    prepare_eq_ok (retuned.schemaPath.trans inferred) prepared'
  obtain rfl := Except.ok.inj (opened.symm.trans input_eq)
  obtain rfl := Except.ok.inj (opened'.symm.trans input_eq')
  have fields : T.schema.fields.Perm S.schema.fields :=
    (reordered.whole.determines schema).fields_perm (reordered.whole'.determines schema')
      reordered.texts
  refine ⟨⟨⟨json'.trans json.symm, rfl, ?_, ?_, ?_, ?_⟩, reordered.texts, fields.subset⟩, fields⟩
  · exact (congrArg _ own').trans (retuned.ignoreErrors.trans (congrArg _ own.symm))
  · exact (congrArg _ own').trans (retuned.flatten.trans (congrArg _ own.symm))
  · rw [own, unlimited]
  · exact (congrArg _ own').trans (retuned.limit.trans unlimited)

theorem Reordered.inferSchema_isOk (reordered : Reordered input input')
    (inferred : ∃ schema, inferSchema J input 10000 = .ok schema) :
    ∃ schema, inferSchema J input' 10000 = .ok schema := by
  rw [reordered.whole.inferSchema_isOk_iff] at inferred
  rw [reordered.whole'.inferSchema_isOk_iff]
  rcases inferred with ⟨readable, nonempty⟩
  refine ⟨fun text mem => readable text (reordered.texts.mem_iff.mp mem), ?_⟩
  intro empty
  have same := reordered.texts
  rw [empty] at same
  exact nonempty same.symm.eq_nil

/-- A conversion that can succeed can do so with the lines in another order. -/
theorem Reordered.exists_okRun (reordered : Reordered input input')
    (retuned : config.Retuned config') (unlimited : config.limit = none)
    (inferred : config.schemaPath = none) (opened : host.openInput config.inputPath = .ok input)
    (opened' : host'.openInput config'.inputPath = .ok input')
    (converts : ∃ run : OkRun, prepare J host config = .ok run.setup) :
    ∃ run : OkRun, prepare J host' config' = .ok run.setup := by
  obtain ⟨run, prepared⟩ := converts
  have all := run.completed.parsed
  have known := reordered.inferSchema_isOk
    ((prepare_isOk_iff inferred opened).mp ⟨run.setup, prepared⟩)
  obtain ⟨T, prepared'⟩ :=
    (prepare_isOk_iff (retuned.schemaPath.trans inferred) opened').mpr known
  obtain ⟨some, fields⟩ :=
    reordered.readsSome retuned unlimited inferred opened opened' prepared prepared'
  have parsed : T.plan.AllParsed := by
    by_cases empty : T.schema.fields = []
    · -- Without columns the schemas are the same, and the columns need not be selected.
      rw [empty] at fields
      have same : T.schema.fields = run.setup.schema.fields := by rw [empty, fields.symm.eq_nil]
      have alike := some.alike
      rw [← same] at alike
      refine alike.allParsed_iff.mpr ?_
      rw [(Setup.ReadsAlike.refl alike.unlimited.1).allParsed_iff] at all
      exact fun text mem => all text (some.texts.mem_iff.mp mem)
    · exact some.allParsed empty all
  obtain ⟨again, rfl⟩ := (exists_okRun_iff T).mpr parsed
  exact ⟨again, prepared'⟩

end Reordered

/-- The order of the lines, and with it the chunks, the batches and the threads, decides
nothing but the order of the columns and of the rows: when inference sees both inputs whole
and there is no limit, the conversion can succeed with both inputs or with neither, and then
the columns are the same up to their order, every row has the same cells under the same names,
and the counters and the dead-letter lines are the same. -/
theorem reordering_transparent (J : SerdeJson) {host host' : Host}
    {config config' : PipelineConfig} {input input' : Bytes} (reordered : Reordered input input')
    (retuned : config.Retuned config') (unlimited : config.limit = none)
    (inferred : config.schemaPath = none) (opened : host.openInput config.inputPath = .ok input)
    (opened' : host'.openInput config'.inputPath = .ok input') :
    ((∃ run : OkRun, prepare J host config = .ok run.setup) ↔
        ∃ run' : OkRun, prepare J host' config' = .ok run'.setup) ∧
      ∀ run run' : OkRun, prepare J host config = .ok run.setup →
        prepare J host' config' = .ok run'.setup →
          run'.setup.schema.fields.Perm run.setup.schema.fields ∧
            Selects run'.setup.schema.fields run run' := by
  constructor
  · constructor
    · exact reordered.exists_okRun retuned unlimited inferred opened opened'
    · exact reordered.symm.exists_okRun retuned.symm (retuned.limit.trans unlimited)
        (retuned.schemaPath.trans inferred) opened' opened
  · intro run run' prepared prepared'
    obtain ⟨some, fields⟩ :=
      reordered.readsSome retuned unlimited inferred opened opened' prepared prepared'
    refine ⟨fields, selects_of_readsSome some ?_⟩
    rw [(prepare_setup prepared).2.1, (prepare_setup prepared').2.1]
    exact retuned.deadLetterPath

theorem reordering_transparent_two_lines :
    ∃ run run' : OkRun, run.setup.input = ascii "\x7b\"a\":true\x7d\n\x7b\"a\":1\x7d" ∧
      run'.setup.input = ascii "\x7b\"a\":1\x7d\n\x7b\"a\":true\x7d" ∧
      Selects run'.setup.schema.fields run run' := by
  let host := Host.sample (ascii "\x7b\"a\":true\x7d\n\x7b\"a\":1\x7d")
  let host' := Host.sample (ascii "\x7b\"a\":1\x7d\n\x7b\"a\":true\x7d")
  let S := (prepare .sample host .default).toOption.get rfl
  let schedule : List (Action S.plan) :=
    .writer none :: List.replicate 7 (.closure ⟨0, by decide⟩) ++
      List.replicate 4 (.writer none) ++ List.replicate 3 .main
  have reached : Reached S.plan _ :=
    reachable_of_run (fun _ _ => trivial) (rfl : run (step S.plan) schedule (.initial _) = some _)
  let first : OkRun := ⟨S, _, _, reached, rfl⟩
  have prepared : prepare .sample host .default = .ok first.setup := rfl
  have reordered : Reordered (ascii "\x7b\"a\":true\x7d\n\x7b\"a\":1\x7d")
      (ascii "\x7b\"a\":1\x7d\n\x7b\"a\":true\x7d") :=
    ⟨by decide, ⟨by decide, by decide⟩, ⟨by decide, by decide⟩⟩
  have retuned : PipelineConfig.default.Retuned .default := ⟨rfl, rfl, rfl, rfl, rfl, rfl⟩
  have transparent := reordering_transparent .sample reordered retuned rfl rfl
    (rfl : host.openInput _ = .ok _) (rfl : host'.openInput _ = .ok _)
  obtain ⟨again, prepared'⟩ := transparent.1.mp ⟨first, prepared⟩
  have input := (prepare_setup prepared').2.2.1
  exact ⟨first, again, rfl, (Except.ok.inj input).symm, (transparent.2 _ _ prepared prepared').2⟩

end Parq.Pipeline
