import Parq.Pipeline.Setup
import Parq.Schema.Dump

/-!
# Runs on a printed schema

`--infer-schema-only` prints the schema that a run without `--schema` would infer.  A
run with `--schema` on the printed file has the same plan, and therefore the same
interleavings with the same rows, counters and errors.
-/

namespace Parq.Pipeline

open Parq.Data
open Parq.Parser
open Parq.Schema

/-- What `main` prints with `--infer-schema-only`: the inferred schema and the newline
of `println!`. -/
def inferSchemaOnly (J : SerdeJson) (pretty : List Value → Except JsonError String) (host : Host)
    (inputPath : String) : Except Error String :=
  match host.openInput inputPath with
  | .error message => .error (.io message)
  | .ok data =>
      match inferSchema J data 10000 with
      | .error e => .error e
      | .ok schema =>
          match schemaToJsonString pretty schema with
          | .error e => .error e
          | .ok text => .ok (text ++ "\n")

/-- Loading the printed form of an inferred schema gives the schema, and a run with the
printed file as its schema has the plan of the run that infers it. -/
theorem reload_inferred (J : SerdeJson) (pretty : List Value → Except JsonError String)
    (host : Host) (config : PipelineConfig) {input : Bytes} {schema : Schema} {text : String}
    (opened : host.openInput config.inputPath = .ok input)
    (inferred : inferSchema J input 10000 = .ok schema)
    (parsesBack : ParsesBack J pretty (schema.fields.map entryOfField) text) :
    schemaToJsonString pretty schema = .ok text ∧
      loadSchemaFromFile J (.ok text) = .ok schema ∧
      ∀ path printed, inferSchemaOnly J pretty host config.inputPath = .ok printed →
        host.readToString path = .ok printed →
        ∃ S S', prepare J host { config with schemaPath := none } = .ok S ∧
          prepare J host { config with schemaPath := some path } = .ok S' ∧
          S.schema = schema ∧ S'.schema = schema ∧ S'.plan = S.plan := by
  have native : ∀ field ∈ schema.fields, field.dataType ∈ nativeTypes := by
    intro field mem
    exact ((determines_of_inferSchema inferred).native mem).2
  have dumped : schemaToJsonString pretty schema = .ok text := by
    rw [schemaToJsonString, parsesBack.printed]
  refine ⟨dumped, loadSchemaFromFile_eq_ok native parsesBack.bracket parsesBack.parsed, ?_⟩
  intro path printed shown found
  obtain rfl : text ++ "\n" = printed := by
    simpa [inferSchemaOnly, opened, inferred, dumped] using shown
  have bracket : ∃ rest, (text ++ "\n").toList = '[' :: rest := by
    rcases parsesBack.bracket with ⟨rest, opens⟩
    exact ⟨rest ++ ['\n'], by rw [String.toList_append, opens]; rfl⟩
  have loaded := loadSchemaFromFile_eq_ok native bracket parsesBack.parsedLine
  simp only [prepare, chooseSchema, opened, inferred, found, loaded]
  exact ⟨_, _, rfl, rfl, rfl, rfl, rfl⟩

/-- The printed form of the schema of one column of integers. -/
def printedColumn : String :=
  "[\n  \x7b\n    \"name\": \"a\",\n    \"nullable\": true,\n    \"type\": \"Int64\"\n  \x7d\n]"

/-- A truth value and, behind a blank line, an integer make a column of integers. -/
theorem reload_inferred_promoted :
    ∃ (J : SerdeJson) (host : Host) (S S' : Setup),
      prepare J host PipelineConfig.default = .ok S ∧
        prepare J host { PipelineConfig.default with schemaPath := some "schema.json" } = .ok S' ∧
        S'.schema = ⟨[⟨"a", .int64, true⟩]⟩ ∧ S'.plan = S.plan := by
  let column : Field := ⟨"a", .int64, true⟩
  let input := ascii "\x7b\"a\":true\x7d\n\n\x7b\"a\":1\x7d"
  let J : SerdeJson :=
    .ofTable
      [(ascii "\x7b\"a\":true\x7d", .object [("a", .bool true)]),
        (ascii "\x7b\"a\":1\x7d", .object [("a", .number (.posInt 1))])]
      [(printedColumn, [entryOfField column]), (printedColumn ++ "\n", [entryOfField column])]
      ⟨"expected value at line 1 column 1"⟩ (fun _ => "") (fun _ => "") (by decide)
  let host : Host :=
    { Host.sample input with
      readToString := fun _ => .ok (printedColumn ++ "\n") }
  have parsesBack : ParsesBack J (fun _ => .ok printedColumn) [entryOfField column] printedColumn :=
    ⟨rfl, rfl, rfl, _, rfl⟩
  obtain ⟨_, _, same⟩ := reload_inferred J (fun _ => .ok printedColumn) host .default
    (rfl : host.openInput _ = .ok input)
    (rfl : inferSchema J input 10000 = .ok ⟨[column]⟩) parsesBack
  obtain ⟨S, S', prepared, prepared', _, schema, plan⟩ := same "schema.json" _ rfl rfl
  exact ⟨J, host, S, S', prepared, prepared', schema, plan⟩

end Parq.Pipeline
