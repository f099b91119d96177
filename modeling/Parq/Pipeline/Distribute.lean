import Parq.Pipeline.Reload
import Parq.Pipeline.Shards

/-!
# One schema for many runs

Runs that infer their schemas each from its own input may disagree on the types of a
column.  A schema that is printed once, with `--infer-schema-only` on the whole input, can
be given to every run with `--schema`: in the same error mode, with flattening in all of them
or in none, and without a limit, the runs then convert the parts as one run that infers the
schema converts the whole, wherever they run and however the lines are divided.
-/

namespace Parq.Pipeline

open Parq.Data
open Parq.Parser
open Parq.Schema
open Parq.Transition

/-- A run on some machine that takes a part of the lines and the printed schema, and reads
lines in the modes of `config` without a limit. -/
structure Shard (config : PipelineConfig) (printed : String) where
  host : Host
  own : PipelineConfig
  input : Bytes
  path : String
  opened : host.openInput own.inputPath = .ok input
  schemaPath : own.schemaPath = some path
  found : host.readToString path = .ok printed
  mode : own.ignoreErrors = config.ignoreErrors
  flatten : own.flatten = config.flatten
  unlimited : own.limit = none

section Shards

variable {J : SerdeJson} {pretty : List Value → Except JsonError String} {host : Host}
  {config : PipelineConfig} {printed text : String} {S : Setup}

/-- The printed schema loads as the schema of the run that infers it. -/
theorem loads_printed (inferred : config.schemaPath = none)
    (prepared : prepare J host config = .ok S)
    (parsesBack : ParsesBack J pretty (S.schema.fields.map entryOfField) text)
    (shown : inferSchemaOnly J pretty host config.inputPath = .ok printed) :
    loadSchemaFromFile J (.ok printed) = .ok S.schema := by
  obtain ⟨_, _, opened, schema⟩ := prepare_eq_ok inferred prepared
  have native : ∀ field ∈ S.schema.fields, field.dataType ∈ nativeTypes := by
    intro field mem
    exact ((determines_of_inferSchema schema).native mem).2
  have dumped : schemaToJsonString pretty S.schema = .ok text := by
    rw [schemaToJsonString, parsesBack.printed]
  obtain rfl : text ++ "\n" = printed := by
    simpa [inferSchemaOnly, opened, schema, dumped] using shown
  have bracket : ∃ rest, (text ++ "\n").toList = '[' :: rest := by
    rcases parsesBack.bracket with ⟨rest, opens⟩
    exact ⟨rest ++ ['\n'], by rw [String.toList_append, opens]; rfl⟩
  exact loadSchemaFromFile_eq_ok native bracket parsesBack.parsedLine

/-- A shard is prepared to read lines as the run that infers the schema does. -/
theorem Shard.exists_prepared (shard : Shard config printed) (unlimited : config.limit = none)
    (inferred : config.schemaPath = none) (prepared : prepare J host config = .ok S)
    (loads : loadSchemaFromFile J (.ok printed) = .ok S.schema) :
    ∃ T, prepare J shard.host shard.own = .ok T ∧ S.ReadsAlike T ∧ T.input = shard.input := by
  obtain ⟨json, own, _, _⟩ := prepare_eq_ok inferred prepared
  simp only [prepare, chooseSchema, shard.opened, shard.schemaPath, shard.found, loads]
  refine ⟨_, rfl, ⟨json.symm, rfl, ?_, ?_, ?_, shard.unlimited⟩, rfl⟩
  · rw [own]
    exact shard.mode
  · rw [own]
    exact shard.flatten
  · rw [own, unlimited]

end Shards

/-- With the printed schema a conversion without a limit can be divided: when runs on any
machines, in the same error mode and with the same flattening, are given the schema that was
printed for the whole input, and among them its lines, some run on the whole that infers the
schema returns `Ok` exactly when some run does on each part, and then, under any
interleavings, rows, counters and dead-letter lines add up. -/
theorem printed_schema_distributes {J : SerdeJson} {pretty : List Value → Except JsonError String}
    {host : Host} {config : PipelineConfig} {printed text : String} {S : Setup}
    (unlimited : config.limit = none) (inferred : config.schemaPath = none)
    (prepared : prepare J host config = .ok S)
    (parsesBack : ParsesBack J pretty (S.schema.fields.map entryOfField) text)
    (shown : inferSchemaOnly J pretty host config.inputPath = .ok printed)
    {shards : List (Shard config printed)}
    (lines : (nonBlankLines S.input).Perm
      (shards.flatMap fun shard => nonBlankLines shard.input)) :
    ((∃ whole : OkRun, whole.setup = S) ↔
        ∀ shard ∈ shards, ∃ part : OkRun, prepare J shard.host shard.own = .ok part.setup) ∧
      ∀ (whole : OkRun) (parts : List OkRun), whole.setup = S →
        parts.map (fun part => Except.ok part.setup) =
          shards.map (fun shard => prepare J shard.host shard.own) → AddUp whole parts := by
  have loads := loads_printed inferred prepared parsesBack shown
  have each := fun shard : Shard config printed =>
    shard.exists_prepared unlimited inferred prepared loads
  choose setup prepared' alike input using each
  have divided : S.DividedAmong (shards.map setup) := by
    refine ⟨by rw [(prepare_setup prepared).2.1, unlimited], ?_, ?_⟩
    · exact List.forall_mem_map.mpr fun shard _ => alike shard
    · simpa only [List.flatMap_map, input] using lines
  constructor
  · rw [exists_okRun_iff, divided.allParsed_iff, List.forall_mem_map]
    apply forall_congr'
    intro shard
    apply imp_congr_right
    intro _
    simp only [prepared' shard, Except.ok.injEq, eq_comm (a := setup shard), exists_okRun_iff]
  · rintro whole parts rfl same
    apply addUp_of_divided
    have setups : (parts.map OkRun.setup).map (Except.ok (ε := Error)) =
        (shards.map setup).map Except.ok := by
      rw [List.map_map, List.map_map]
      exact same.trans (List.map_congr_left fun shard _ => prepared' shard)
    rw [List.map_injective_iff.mpr (fun _ _ => Except.ok.inj) setups]
    exact divided

theorem printed_schema_distributes_two_lines :
    ∃ (whole : OkRun) (parts : List OkRun), parts.length = 2 ∧ AddUp whole parts := by
  let line := ascii "\x7b\"a\":1\x7d"
  let column : Field := ⟨"a", .int64, true⟩
  let J : SerdeJson :=
    .ofTable [(line, .object [("a", .number (.posInt 1))])]
      [(printedColumn, [entryOfField column]), (printedColumn ++ "\n", [entryOfField column])]
      ⟨"expected value at line 1 column 1"⟩ (fun _ => "") (fun _ => "") (by decide)
  let host := Host.sample (ascii "\x7b\"a\":1\x7d\n\x7b\"a\":1\x7d")
  let S := (prepare J host .default).toOption.get rfl
  let schedule : List (Action S.plan) :=
    .writer none :: List.replicate 7 (.closure ⟨0, by decide⟩) ++
      List.replicate 4 (.writer none) ++ List.replicate 3 .main
  have reached : Reached S.plan _ :=
    reachable_of_run (fun _ _ => trivial) (rfl : run (step S.plan) schedule (.initial _) = some _)
  let whole : OkRun := ⟨S, _, _, reached, rfl⟩
  let shard : Shard .default (printedColumn ++ "\n") :=
    { host := { Host.sample line with readToString := fun _ => .ok (printedColumn ++ "\n") }
      own := { PipelineConfig.default with schemaPath := some "schema.json" }
      input := line
      path := "schema.json"
      opened := rfl
      schemaPath := rfl
      found := rfl
      mode := rfl
      flatten := rfl
      unlimited := rfl }
  have parsesBack : ParsesBack J (fun _ => .ok printedColumn) [entryOfField column] printedColumn :=
    ⟨rfl, rfl, rfl, _, rfl⟩
  have distributes := printed_schema_distributes rfl rfl (rfl : prepare J host .default = .ok S)
    parsesBack (rfl : inferSchemaOnly J _ host _ = .ok (printedColumn ++ "\n"))
    (List.Perm.refl _ : (nonBlankLines S.input).Perm ([shard, shard].flatMap _))
  obtain ⟨part, prepared⟩ := distributes.1.mp ⟨whole, rfl⟩ shard List.mem_cons_self
  refine ⟨whole, [part, part], rfl, distributes.2 whole [part, part] rfl ?_⟩
  rw [List.map_cons, List.map_singleton, List.map_cons, List.map_singleton, prepared]

end Parq.Pipeline
