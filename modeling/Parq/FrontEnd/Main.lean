import Parq.Cli.Telemetry
import Parq.Pipeline.Outcomes
import Parq.Pipeline.Reload

/-!
# The front ends

`main` of the command line tool and `convert` of the Python module make the configuration
of one run of `run_pipeline` and report its result.  Under `--machine-telemetry` the
report is one line on one of the two streams, and a listener who decodes it learns what
`run_pipeline` returned.
-/

namespace Parq.FrontEnd

open Parq.Cli
open Parq.Data
open Parq.Json
open Parq.Parser
open Parq.Pipeline
open Parq.Transition

/-! ## Codecs -/

/-- `parquet::basic::Compression`, with the default levels. -/
inductive Compression
  | snappy
  | gzip
  | brotli
  | zstd
  | lz4
  | uncompressed
  deriving DecidableEq, Repr

/-- `COMPRESSION_OPTIONS`. -/
def COMPRESSION_OPTIONS : List String :=
  ["snappy", "gzip", "brotli", "zstd", "lz4", "none"]

/-- The codec with a lowercase name, in `parse_compression` and in `convert`. -/
def codec? : String → Option Compression
  | "snappy" => some .snappy
  | "gzip" => some .gzip
  | "brotli" => some .brotli
  | "zstd" => some .zstd
  | "lz4" => some .lz4
  | "none" | "uncompressed" => some .uncompressed
  | _ => none

/-- How the standard library and the crates write what the front ends print. -/
structure Formats where
  /-- `str::to_lowercase`. -/
  toLowercase : String → String
  chars : CharTable
  /-- `ArrowError` as `Display` writes it. -/
  arrow : ArrowError → String
  /-- `serde_json::to_string_pretty`. -/
  pretty : List Value → Except JsonError String
  /-- `ProcessingMetrics` as `Display` writes it. -/
  report : ProcessingMetrics → String
  /-- An `anyhow::Error` as `{:?}` writes it. -/
  debug : Error → String
  /-- An `anyhow::Error` made from a message, as `{:?}` writes it. -/
  debugMessage : String → String

/-- `parse_compression`. -/
def parseCompression (F : Formats) (s : String) : Except String Compression :=
  match codec? (F.toLowercase s) with
  | some codec => .ok codec
  | none =>
      .error ("Unknown compression '" ++ F.toLowercase s ++ "'. Options: [" ++
        ", ".intercalate (COMPRESSION_OPTIONS.map (debugStr F.chars)) ++ "]")

/-! ## The command line tool -/

/-- `struct Cli`, without the level of the log. -/
structure Cli where
  input : String
  output : Option String
  compression : String
  threads : Nat
  batchSize : Nat
  channelDepth : Nat
  ignoreErrors : Bool
  flatten : Bool
  limit : Option Nat
  schema : Option String
  chunkSize : Option Nat
  deadLetterPath : Option String
  machineTelemetry : Bool
  inferSchemaOnly : Bool
  quiet : Bool
  /-- `required_unless_present`. -/
  output_given : inferSchemaOnly = false → output.isSome = true

/-- The defaults of the options, for two paths. -/
def Cli.default (input output : String) : Cli where
  input := input
  output := some output
  compression := "snappy"
  threads := 0
  batchSize := 65536
  channelDepth := 8
  ignoreErrors := false
  flatten := false
  limit := none
  schema := none
  chunkSize := none
  deadLetterPath := none
  machineTelemetry := false
  inferSchemaOnly := false
  quiet := false
  output_given := fun _ => rfl

/-- The configuration that `main` makes. -/
def Cli.config (cli : Cli) : PipelineConfig where
  inputPath := cli.input
  batchSize := cli.batchSize
  numThreads := cli.threads
  ignoreErrors := cli.ignoreErrors
  flatten := cli.flatten
  limit := cli.limit
  schemaPath := cli.schema
  channelDepth := cli.channelDepth
  chunkSize := cli.chunkSize
  deadLetterPath := cli.deadLetterPath

/-- What a process leaves: its output streams and its exit code. -/
structure Exit where
  stdout : String
  stderr : String
  code : Nat

/-- What `println!` and `eprintln!` add to a stream. -/
def printed (line : String) : String :=
  line ++ "\n"

/-- A `main` that returns an error. -/
def exitWith (debugged : String) : Exit where
  stdout := ""
  stderr := printed ("Error: " ++ debugged)
  code := 1

/-- The end of `main`, for what `run_pipeline` returned. -/
def finish (F : Formats) (machineTelemetry : Bool) : Except Error ProcessingMetrics → Exit
  | .ok metrics =>
      if machineTelemetry then
        ⟨printed (successLine metrics), "", 0⟩
      else
        ⟨printed ("\n" ++ F.report metrics), "", 0⟩
  | .error err =>
      if machineTelemetry then
        ⟨"", printed (telemetryLine F.chars F.arrow err), 1⟩
      else
        exitWith (F.debug err)

/-- Log lines on stdout in front of the output.  There are none when `main` starts no
log. -/
inductive Logged (cli : Cli) (exit : Exit) : Exit → Prop
  | logged (logs : String) (silent : cli.quiet = true ∨ cli.machineTelemetry = true → logs = "") :
      Logged cli exit { exit with stdout := logs ++ exit.stdout }

/-- The ways in which `main` may end, without the log. -/
inductive Ends (F : Formats) (J : SerdeJson) (host : Host) (cli : Cli) : Exit → Prop
  | inferred {text : String} (only : cli.inferSchemaOnly = true)
      (shown : inferSchemaOnly J F.pretty host cli.input = .ok text) :
      Ends F J host cli ⟨text, "", 0⟩
  | notInferred {e : Error} (only : cli.inferSchemaOnly = true)
      (refused : inferSchemaOnly J F.pretty host cli.input = .error e) :
      Ends F J host cli (exitWith (F.debug e))
  | unknownCodec {message : String} (converts : cli.inferSchemaOnly = false)
      (unknown : parseCompression F cli.compression = .error message) :
      Ends F J host cli (exitWith (F.debugMessage message))
  | finished {codec : Compression} {result : Except Error ProcessingMetrics}
      (converts : cli.inferSchemaOnly = false)
      (known : parseCompression F cli.compression = .ok codec)
      (returns : Returns J host cli.config result) :
      Ends F J host cli (finish F cli.machineTelemetry result)

/-- The process of the command line tool may end so. -/
def Exits (F : Formats) (J : SerdeJson) (host : Host) (cli : Cli) (exit : Exit) : Prop :=
  ∃ quietly, Ends F J host cli quietly ∧ Logged cli quietly exit

section Exits

variable {F : Formats} {J : SerdeJson} {host : Host} {cli : Cli} {exit : Exit}

/-- The log may be empty. -/
theorem Ends.exits (ends : Ends F J host cli exit) : Exits F J host cli exit := by
  have logged : Logged cli exit { exit with stdout := "" ++ exit.stdout } := .logged "" fun _ => rfl
  rw [String.empty_append] at logged
  exact ⟨exit, ends, logged⟩

/-- Under `--machine-telemetry` there is no log. -/
theorem Exits.ends (exits : Exits F J host cli exit) (telemetry : cli.machineTelemetry = true) :
    Ends F J host cli exit := by
  rcases exits with ⟨quietly, ends, ⟨logs, silent⟩⟩
  rw [silent (.inr telemetry), String.empty_append]
  exact ends

end Exits

/-! ## What a listener learns -/

/-- The stream is this line and its end. -/
def OneLine (stream line : String) : Prop :=
  stream = line ++ "\n" ∧ '\n' ∉ line.toList

theorem oneLine_telemetryLine (F : Formats) (err : Error) :
    OneLine (printed (telemetryLine F.chars F.arrow err)) (telemetryLine F.chars F.arrow err) := by
  refine ⟨rfl, ?_⟩
  rw [toList_telemetryLine]
  exact newline_not_mem_render _ (newline_not_mem_encode F.chars) _

theorem oneLine_successLine (F : Formats) (metrics : ProcessingMetrics) :
    OneLine (printed (successLine metrics)) (successLine metrics) := by
  refine ⟨rfl, ?_⟩
  rw [toList_successLine F.chars]
  exact newline_not_mem_render _ (newline_not_mem_encode F.chars) _

/-- What a listener to a run of `main` under `--machine-telemetry` learns from its exit, with
the runs of `run_pipeline` behind it. -/
inductive Answer (F : Formats) (J : SerdeJson) (host : Host) (cli : Cli) (exit : Exit) : Prop
  /-- One line on stdout says how many rows the file has. -/
  | success {S : Setup} {s : State S.plan} {metrics : ProcessingMetrics} {line : String}
      (prepared : prepare J host cli.config = .ok S) (reached : Reached S.plan s)
      (returned : s.main = .returned (.ok metrics)) (code : exit.code = 0)
      (stderr : exit.stderr = "") (stdout : OneLine exit.stdout line)
      (decoded : decode line.toList = some (.object
        [("status", .string "success"), ("rows_processed", natTree s.rowsWritten.length)]))
  /-- One line on stderr is the payload of the error, or cannot be decoded because of a
  character in the texts of the error. -/
  | failure {err : Error} {line : String} (returns : Returns J host cli.config (.error err))
      (code : exit.code = 1) (stdout : exit.stdout = "") (stderr : OneLine exit.stderr line)
      (decoded : decode line.toList =
        if (quoted F.arrow err).all (debugEncoder F.chars).readable then some (payload F.arrow err)
        else none)

/-- Under `--machine-telemetry` a conversion with a known codec answers with exactly one
line on exactly one stream: on stdout with exit code 0 and the number of rows in the
file, or on stderr with exit code 1 and the error that `run_pipeline` returned. -/
theorem answers_in_one_line (F : Formats) (J : SerdeJson) (host : Host) (cli : Cli)
    (telemetry : cli.machineTelemetry = true) (converts : cli.inferSchemaOnly = false)
    {codec : Compression} (known : parseCompression F cli.compression = .ok codec) {exit : Exit}
    (exits : Exits F J host cli exit) : Answer F J host cli exit := by
  cases exits.ends telemetry with
  | inferred only | notInferred only => cases only.symm.trans converts
  | unknownCodec _ unknown => cases unknown.symm.trans known
  | @finished _ result _ _ returns =>
      rw [telemetry]
      cases result with
      | error err =>
          exact .failure returns rfl rfl (oneLine_telemetryLine F err)
            (decode_telemetryLine F.chars F.arrow err)
      | ok metrics =>
          unfold Returns at returns
          cases prepared : prepare J host cli.config with
          | error e =>
              rw [prepared] at returns
              cases returns
          | ok S =>
              rw [prepared] at returns
              obtain ⟨s, reached, returned⟩ := returns
              have delivered := Reached.delivered reached returned
              have rows : metrics.rowsProcessed = s.rowsWritten.length := by
                rw [delivered.processed, delivered.rows.length_eq, List.length_map]
              refine .success prepared reached returned rfl rfl (oneLine_successLine F metrics) ?_
              rw [← rows]
              exact decode_successLine metrics

/-- A lenient run on two records with a number between them answers that there are two
rows. -/
theorem answers_in_one_line_two_rows :
    let input := ascii "\x7b\"a\":1\x7d\n5\n\x7b\"a\":1\x7d"
    ∃ (F : Formats) (cli : Cli) (exit : Exit),
      exit.stdout = "\x7b\"status\":\"success\",\"rows_processed\":2\x7d\n" ∧
        Answer F .objectAndNumber (.sample input) cli exit := by
  intro input
  let F : Formats :=
    { toLowercase := String.toLower
      chars := .sample
      arrow := fun _ => "Invalid argument error"
      pretty := fun _ => .ok "[]"
      report := fun _ => ""
      debug := fun _ => ""
      debugMessage := id }
  let cli : Cli :=
    { Cli.default "data.jsonl" "data.parquet" with machineTelemetry := true, ignoreErrors := true }
  let host := Host.sample input
  let S := (prepare .objectAndNumber host cli.config).toOption.get rfl
  let schedule : List (Action S.plan) :=
    .writer none :: List.replicate 7 (.closure ⟨0, by decide⟩) ++
      List.replicate 4 (.writer none) ++ List.replicate 3 .main
  have reached : Reached S.plan _ :=
    reachable_of_run (fun _ _ => trivial) (rfl : run (step S.plan) schedule (.initial _) = some _)
  have returns : Returns .objectAndNumber host cli.config (.ok ⟨17, 2, 1, 1⟩) := by
    rw [Returns, (rfl : prepare .objectAndNumber host cli.config = .ok S)]
    exact ⟨_, reached, rfl⟩
  have known : parseCompression F cli.compression = .ok .snappy := by decide +kernel
  have exits : Exits F .objectAndNumber host cli _ := Ends.exits (.finished rfl known returns)
  exact ⟨F, cli, _, rfl, answers_in_one_line F .objectAndNumber host cli rfl rfl known exits⟩

end Parq.FrontEnd
