import Parq.FrontEnd.Main
import Parq.Pipeline.Session

/-!
# The Python module

`convert` runs `run_pipeline` as `main` does, with an exception for the exit code 1.  For
the same options the two may end alike, and this is so for every call of a process that
makes many, although all of them run on the pool that the first one builds.
-/

namespace Parq.FrontEnd

open Parq.Cli
open Parq.Data
open Parq.Json
open Parq.Pipeline

/-- The arguments of `convert`. -/
structure Arguments where
  inputPath : String
  outputPath : String
  compression : String
  threads : Nat
  batchSize : Nat
  channelDepth : Nat
  ignoreErrors : Bool
  flatten : Bool
  limit : Option Nat
  schema : Option String
  chunkSize : Option Nat
  deadLetterPath : Option String

/-- The configuration that `convert` makes. -/
def Arguments.config (args : Arguments) : PipelineConfig where
  inputPath := args.inputPath
  batchSize := args.batchSize
  numThreads := args.threads
  ignoreErrors := args.ignoreErrors
  flatten := args.flatten
  limit := args.limit
  schemaPath := args.schema
  channelDepth := args.channelDepth
  chunkSize := args.chunkSize
  deadLetterPath := args.deadLetterPath

/-- The options of the tool as arguments, with the output path that `main` unwraps. -/
def Cli.arguments (cli : Cli) (converts : cli.inferSchemaOnly = false) : Arguments where
  inputPath := cli.input
  outputPath := cli.output.get (cli.output_given converts)
  compression := cli.compression
  threads := cli.threads
  batchSize := cli.batchSize
  channelDepth := cli.channelDepth
  ignoreErrors := cli.ignoreErrors
  flatten := cli.flatten
  limit := cli.limit
  schema := cli.schema
  chunkSize := cli.chunkSize
  deadLetterPath := cli.deadLetterPath

/-- `ConversionMetrics`, without the output size and the durations. -/
structure ConversionMetrics where
  inputBytes : Nat
  rowsProcessed : Nat
  rowsErrored : Nat
  threadsUsed : Nat

/-- What Python gets of the metrics of `run_pipeline`. -/
def ConversionMetrics.of (m : ProcessingMetrics) : ConversionMetrics where
  inputBytes := m.inputBytes
  rowsProcessed := m.rowsProcessed
  rowsErrored := m.rowsErrored
  threadsUsed := m.threadsUsed

/-- The text of the `RuntimeError` for a codec that is not known. -/
def unknownCodec (name : String) : String :=
  "Unknown compression codec '" ++ name ++ "'. Options: snappy, gzip, brotli, zstd, lz4, none"

/-- The text of the `RuntimeError` for an error of `run_pipeline`. -/
def conversionFailed (F : Formats) (e : Error) : String :=
  "Parquet conversion failed: " ++ displayError F.arrow e

/-- `convert` may return these metrics or raise a `RuntimeError` with this text. -/
inductive Converts (F : Formats) (J : SerdeJson) (host : Host) (args : Arguments) :
    Except String ConversionMetrics → Prop
  | unknown (unknown : codec? (F.toLowercase args.compression) = none) :
      Converts F J host args (.error (unknownCodec (F.toLowercase args.compression)))
  | converted {codec : Compression} {m : ProcessingMetrics}
      (known : codec? (F.toLowercase args.compression) = some codec)
      (returns : Returns J host args.config (.ok m)) :
      Converts F J host args (.ok (.of m))
  | failed {codec : Compression} {e : Error}
      (known : codec? (F.toLowercase args.compression) = some codec)
      (returns : Returns J host args.config (.error e)) :
      Converts F J host args (.error (conversionFailed F e))

theorem parseCompression_eq_ok {F : Formats} {s : String} {codec : Compression} :
    parseCompression F s = .ok codec ↔ codec? (F.toLowercase s) = some codec := by
  unfold parseCompression
  cases codec? (F.toLowercase s) with
  | some known => simp
  | none => simp

theorem exists_parseCompression_eq_error {F : Formats} {s : String} :
    (∃ message, parseCompression F s = .error message) ↔ codec? (F.toLowercase s) = none := by
  unfold parseCompression
  cases codec? (F.toLowercase s) with
  | some known => simp
  | none => simp

/-! ## One conversion -/

/-- What a listener learns: the rows of a conversion that succeeded, or that it failed. -/
inductive Tells (exit : Exit) : Option Nat → Prop
  | rows {rows : Nat} {line : String} (code : exit.code = 0) (stdout : OneLine exit.stdout line)
      (decoded : decode line.toList = some (.object
        [("status", .string "success"), ("rows_processed", natTree rows)])) :
      Tells exit (some rows)
  | failure (code : exit.code = 1) : Tells exit none

/-- The same of an outcome of `convert`. -/
def rowsOf : Except String ConversionMetrics → Option Nat
  | .ok metrics => some metrics.rowsProcessed
  | .error _ => none

/-- Numbers with the same decimal digits are the same. -/
theorem eq_of_repr_eq {m n : Nat} (same : m.repr = n.repr) : m = n := by
  have digits := congrArg (fun text => Nat.ofDigitChars 10 text.toList 0) same
  simpa only [Nat.toList_repr, Nat.ofDigitChars_ten_toDigits] using digits

/-- The printed line of a success tells the number of rows, and no other. -/
theorem tells_successLine_iff (F : Formats) (metrics : ProcessingMetrics) (told : Option Nat) :
    Tells (finish F true (.ok metrics)) told ↔ told = some metrics.rowsProcessed := by
  constructor
  · intro tells
    cases tells with
    | failure code => cases code
    | @rows rows line _ stdout decoded =>
        obtain rfl : successLine metrics = line := (String.append_left_inj "\n").mp stdout.1
        rw [decode_successLine] at decoded
        have same : metrics.rowsProcessed.repr = rows.repr := by
          simpa [natTree] using decoded
        rw [eq_of_repr_eq same]
  · rintro rfl
    exact .rows rfl (oneLine_successLine F metrics) (decode_successLine metrics)

theorem tells_telemetryLine_iff (F : Formats) (e : Error) (told : Option Nat) :
    Tells (finish F true (.error e)) told ↔ told = none := by
  constructor
  · intro tells
    cases tells with
    | failure => rfl
    | rows code => cases code
  · rintro rfl
    exact .failure rfl

theorem tells_exitWith_iff (debugged : String) (told : Option Nat) :
    Tells (exitWith debugged) told ↔ told = none := by
  constructor
  · intro tells
    cases tells with
    | failure => rfl
    | rows code => cases code
  · rintro rfl
    exact .failure rfl

/-- The options of a conversion, and the machine as it is at the time. -/
structure Request where
  host : Host
  cli : Cli
  converts : cli.inferSchemaOnly = false
  telemetry : cli.machineTelemetry = true

/-- The same options for `convert`. -/
def Request.args (request : Request) : Arguments :=
  request.cli.arguments request.converts

variable (F : Formats) (J : SerdeJson)

/-- What `convert` may come to for a request is what the tool may tell. -/
theorem converts_iff_tells (request : Request) (told : Option Nat) :
    (∃ outcome, Converts F J request.host request.args outcome ∧ rowsOf outcome = told) ↔
      ∃ exit, Exits F J request.host request.cli exit ∧ Tells exit told := by
  rcases request with ⟨host, cli, converts, telemetry⟩
  constructor
  · rintro ⟨outcome, converted, rfl⟩
    cases converted with
    | unknown unknown =>
        obtain ⟨message, refused⟩ := exists_parseCompression_eq_error.mpr unknown
        exact ⟨_, Ends.exits (.unknownCodec converts refused), (tells_exitWith_iff _ _).mpr rfl⟩
    | converted known returns =>
        have ends := Ends.finished converts (parseCompression_eq_ok.mpr known) returns
        rw [telemetry] at ends
        exact ⟨_, ends.exits, (tells_successLine_iff F _ _).mpr rfl⟩
    | failed known returns =>
        have ends := Ends.finished converts (parseCompression_eq_ok.mpr known) returns
        rw [telemetry] at ends
        exact ⟨_, ends.exits, (tells_telemetryLine_iff F _ _).mpr rfl⟩
  · rintro ⟨exit, exits, tells⟩
    cases exits.ends telemetry with
    | inferred only | notInferred only => cases only.symm.trans converts
    | unknownCodec _ refused =>
        obtain rfl := (tells_exitWith_iff _ _).mp tells
        exact ⟨_, .unknown (exists_parseCompression_eq_error.mp ⟨_, refused⟩), rfl⟩
    | @finished _ result _ known returns =>
        rw [telemetry] at tells
        cases result with
        | ok metrics =>
            obtain rfl := (tells_successLine_iff F _ _).mp tells
            exact ⟨_, .converted (parseCompression_eq_ok.mp known) returns, rfl⟩
        | error e =>
            obtain rfl := (tells_telemetryLine_iff F _ _).mp tells
            exact ⟨_, .failed (parseCompression_eq_ok.mp known) returns, rfl⟩

/-! ## Many conversions in one process -/

/-- The pool that a process has after a call.  A call with an unknown codec returns before
it comes to the pool. -/
def Request.poolAfter (request : Request) (pool : Option Pool) : Option Pool :=
  match codec? (F.toLowercase request.args.compression) with
  | some _ => some (request.host.poolAfter request.args.config pool)
  | none => pool

/-- The calls that a Python process makes one after the other, from one that has `pool`,
and what it learns from each. -/
inductive Process : Option Pool → List (Request × Option Nat) → Prop
  | done {pool : Option Pool} : Process pool []
  | call {pool : Option Pool} {request : Request} {outcome : Except String ConversionMetrics}
      {rest : List (Request × Option Nat)}
      (converts : Converts F J (request.host.inProcess pool) request.args outcome)
      (others : Process (request.poolAfter F pool) rest) :
      Process pool ((request, rowsOf outcome) :: rest)

/-- A pool changes nothing for `convert`. -/
theorem converts_inProcess (host : Host) (pool : Option Pool) (args : Arguments)
    (outcome : Except String ConversionMetrics) :
    Converts F J (host.inProcess pool) args outcome ↔ Converts F J host args outcome := by
  constructor
  · intro converts
    cases converts with
    | unknown unknown => exact .unknown unknown
    | converted known returns => exact .converted known ((returns_inProcess ..).mp returns)
    | failed known returns => exact .failed known ((returns_inProcess ..).mp returns)
  · intro converts
    cases converts with
    | unknown unknown => exact .unknown unknown
    | converted known returns => exact .converted known ((returns_inProcess ..).mpr returns)
    | failed known returns => exact .failed known ((returns_inProcess ..).mpr returns)

/-- A Python process may learn this from its calls exactly when a listener may learn it
from a process of the command line tool for each of them. -/
theorem process_iff_tells (pool : Option Pool) (calls : List (Request × Option Nat)) :
    Process F J pool calls ↔ ∀ call ∈ calls,
      ∃ exit, Exits F J call.1.host call.1.cli exit ∧ Tells exit call.2 := by
  induction calls generalizing pool with
  | nil => exact ⟨fun _ _ mem => absurd mem List.not_mem_nil, fun _ => .done⟩
  | cons call rest ih =>
      rcases call with ⟨request, told⟩
      rw [List.forall_mem_cons, ← converts_iff_tells]
      constructor
      · rintro (_ | ⟨converts, others⟩)
        exact ⟨⟨_, (converts_inProcess ..).mp converts, rfl⟩, (ih _).mp others⟩
      · rintro ⟨⟨outcome, converts, rfl⟩, others⟩
        exact .call ((converts_inProcess ..).mpr converts) ((ih _).mpr others)

end Parq.FrontEnd
