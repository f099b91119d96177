import Parq.Data.Debug
import Parq.Pipeline.LineNumbers

/-!
# Machine telemetry

Under `--machine-telemetry` the command line tool prints an error of `run_pipeline` as one
line on stderr.  The line is made by format strings that write texts with `{:?}`, so it is
JSON as long as the texts have only characters that `{:?}` and JSON write alike.
-/

namespace Parq.Cli

open Parq.Data
open Parq.Json
open Parq.Pipeline

/-- `ParqError` as `Display` writes it, given how `ArrowError` is written. -/
def displayParqError (arrow : ArrowError → String) : ParqError → String
  | .io message => "I/O error: " ++ message
  | .jsonParse line source =>
      "JSON parse error on line " ++ line.repr ++ ": " ++ source.message
  | .insufficientData rows =>
      "Schema inference failed: file has " ++ rows.repr ++ " parseable records (need ≥ 1)"
  | .typeMismatch field expected found line =>
      "Type mismatch in field '" ++ field ++ "' on line " ++ line.repr ++ ": expected " ++
        expected ++ ", found " ++ found
  | .arrow source => "Arrow error: " ++ arrow source
  | .parquet message => "Parquet error: " ++ message
  | .config message => "Configuration error: " ++ message

/-- An `anyhow::Error` as `Display` writes it. -/
def displayError (arrow : ArrowError → String) : Error → String
  | .parq source => displayParqError arrow source
  | .json source => source.message
  | .arrow source => arrow source
  | .io message => message
  | .parquet message => message

/-! ## The lines of `main` -/

def jsonParseLine (T : CharTable) (line : Nat) (message : String) : String :=
  "\x7b\"status\":\"failed\",\"error_type\":\"JsonParse\",\"details\":\x7b\"line\":" ++
    line.repr ++ ",\"message\":" ++ debugStr T message ++ "\x7d\x7d"

def typeMismatchLine (T : CharTable) (field expected found : String) (line : Nat) : String :=
  "\x7b\"status\":\"failed\",\"error_type\":\"TypeMismatch\",\"details\":\x7b\"field\":" ++
    debugStr T field ++ ",\"expected\":" ++ debugStr T expected ++ ",\"found\":" ++
    debugStr T found ++ ",\"line\":" ++ line.repr ++ "\x7d\x7d"

def insufficientDataLine (rows : Nat) : String :=
  "\x7b\"status\":\"failed\",\"error_type\":\"InsufficientData\",\"details\":\x7b\"rows\":" ++
    rows.repr ++ "\x7d\x7d"

def runtimeLine (T : CharTable) (message : String) : String :=
  "\x7b\"status\":\"failed\",\"error_type\":\"Runtime\",\"message\":" ++
    debugStr T message ++ "\x7d"

def genericLine (T : CharTable) (message : String) : String :=
  "\x7b\"status\":\"failed\",\"error_type\":\"Generic\",\"message\":" ++
    debugStr T message ++ "\x7d"

/-- The line that `main` prints on stderr for an error of `run_pipeline`. -/
def telemetryLine (T : CharTable) (arrow : ArrowError → String) : Error → String
  | .parq (.jsonParse line source) => jsonParseLine T line source.message
  | .parq (.typeMismatch field expected found line) => typeMismatchLine T field expected found line
  | .parq (.insufficientData rows) => insufficientDataLine rows
  | .parq other => runtimeLine T (displayParqError arrow other)
  | err => genericLine T (displayError arrow err)

/-- The line that `main` prints on stdout when `run_pipeline` succeeds. -/
def successLine (metrics : ProcessingMetrics) : String :=
  "\x7b\"status\":\"success\",\"rows_processed\":" ++ metrics.rowsProcessed.repr ++ "\x7d"

/-! ## What the lines are to say -/

/-- A number as a JSON value. -/
def natTree (n : Nat) : Tree :=
  .number n.repr (isNumeral_repr n)

/-- A failure of a type, with the members that describe it. -/
def failed (errorType : String) (description : List (String × Tree)) : Tree :=
  .object ([("status", .string "failed"), ("error_type", .string errorType)] ++ description)

/-- The payload of an error: the documented object with the texts of the error. -/
def payload (arrow : ArrowError → String) : Error → Tree
  | .parq (.jsonParse line source) =>
      failed "JsonParse"
        [("details", .object [("line", natTree line), ("message", .string source.message)])]
  | .parq (.typeMismatch field expected found line) =>
      failed "TypeMismatch"
        [("details", .object
          [("field", .string field), ("expected", .string expected), ("found", .string found),
            ("line", natTree line)])]
  | .parq (.insufficientData rows) =>
      failed "InsufficientData" [("details", .object [("rows", natTree rows)])]
  | .parq other => failed "Runtime" [("message", .string (displayParqError arrow other))]
  | err => failed "Generic" [("message", .string (displayError arrow err))]

/-- The texts that the line of an error quotes. -/
def quoted (arrow : ArrowError → String) : Error → List String
  | .parq (.jsonParse _ source) => [source.message]
  | .parq (.typeMismatch field expected found _) => [field, expected, found]
  | .parq (.insufficientData _) => []
  | .parq other => [displayParqError arrow other]
  | err => [displayError arrow err]

section Lines

variable (T : CharTable) (arrow : ArrowError → String)

/-- The line of an error is the payload of the error, written with `{:?}` for its strings. -/
theorem toList_telemetryLine (e : Error) :
    (telemetryLine T arrow e).toList = (payload arrow e).render (debugEncoder T) := by
  unfold telemetryLine payload
  split
  all_goals
    unfold failed
    first
      | unfold jsonParseLine
      | unfold typeMismatchLine
      | unfold insufficientDataLine
      | unfold runtimeLine
      | unfold genericLine
    simp only [String.toList_append, toList_debugStr]
    simp (disch := decide) only [natTree, Tree.render, renderMembers, separated, quote_of_isPlain,
      List.cons_append, List.nil_append, List.append_assoc]
    simp only [String.reduceToList, List.cons_append, List.nil_append]

/-- The names of the documented members are readable, and so only the quoted texts count. -/
theorem readable_payload (e : Error) :
    (payload arrow e).readable (debugEncoder T) =
      (quoted arrow e).all (debugEncoder T).readable := by
  unfold payload quoted
  split
  all_goals
    simp (disch := decide) [failed, natTree, Tree.readable, membersReadable, readable_of_isPlain]

theorem decode_telemetryLine (e : Error) :
    decode (telemetryLine T arrow e).toList =
      if (quoted arrow e).all (debugEncoder T).readable then some (payload arrow e) else none := by
  rw [toList_telemetryLine, decode_render, readable_payload]

/-- The line of a success is the documented object, written with `{:?}` for its strings. -/
theorem toList_successLine (metrics : ProcessingMetrics) :
    (successLine metrics).toList = (Tree.object
      [("status", .string "success"), ("rows_processed", natTree metrics.rowsProcessed)]).render
        (debugEncoder T) := by
  unfold successLine
  simp only [String.toList_append]
  simp (disch := decide) only [natTree, Tree.render, renderMembers, separated, quote_of_isPlain,
    List.cons_append, List.nil_append, List.append_assoc]
  simp only [String.reduceToList, List.cons_append, List.nil_append]

/-- The line of a success can always be decoded. -/
theorem decode_successLine (metrics : ProcessingMetrics) :
    decode (successLine metrics).toList =
      some (.object
        [("status", .string "success"), ("rows_processed", natTree metrics.rowsProcessed)]) := by
  rw [toList_successLine .sample, decode_render]
  simp (disch := decide) [natTree, Tree.readable, membersReadable, readable_of_isPlain]

end Lines

/-- The line of an error is a JSON object, and the texts in it are those of the error. -/
def Decodes (T : CharTable) (arrow : ArrowError → String) (e : Error) : Prop :=
  decode (telemetryLine T arrow e).toList = some (payload arrow e)

/-- The line of an error can be decoded exactly when each character that it quotes is written
as itself or with one of the short escapes that `{:?}` and JSON share. -/
theorem decodes_iff (T : CharTable) (arrow : ArrowError → String) (e : Error) :
    Decodes T arrow e ↔ ∀ text ∈ quoted arrow e, ∀ c ∈ text.toList,
      c ∈ ['\t', '\r', '\n', '\\', '"'] ∨ T.escaped c = false := by
  have shares : ((quoted arrow e).all (debugEncoder T).readable = true) ↔
      ∀ text ∈ quoted arrow e, ∀ c ∈ text.toList,
        c ∈ ['\t', '\r', '\n', '\\', '"'] ∨ T.escaped c = false := by
    simp only [List.all_eq_true, debugEncoder, sharesEscape, Bool.or_eq_true, Bool.not_eq_true',
      List.contains_iff_mem]
  rw [Decodes, decode_telemetryLine, ← shares]
  constructor
  · intro decoded
    by_contra unreadable
    rw [if_neg unreadable] at decoded
    cases decoded
  · exact fun readable => if_pos readable

/-- `Display` of the error for a null in a required column. -/
def arrowText : ArrowError → String
  | .nullInNonNullable field =>
      "Invalid argument error: Column '" ++ field ++
        "' is declared as non-nullable but contains null values"
  | _ => "Invalid argument error"

/-- A schema file with one required column, whose name is a letter and an accent. -/
def requiredAccent : String :=
  "[\x7b\"name\":\"e\u0301\",\"type\":\"Int64\",\"nullable\":false\x7d]"

/-- A record without the required column makes `run_pipeline` return an error whose line is
no JSON. -/
theorem accent_breaks_telemetry :
    ∃ (J : SerdeJson) (host : Host) (config : PipelineConfig) (e : Error),
      Returns J host config (.error e) ∧
      quoted arrowText e = ["Invalid argument error: Column 'e\u0301' is declared as " ++
        "non-nullable but contains null values"] ∧
      decode (telemetryLine .sample arrowText e).toList = none ∧ ¬ Decodes .sample arrowText e := by
  let J : SerdeJson :=
    .ofTable [(ascii "\x7b\x7d", .object [])]
      [(requiredAccent,
        [.object
          [("name", .string "e\u0301"), ("nullable", .bool false), ("type", .string "Int64")]])]
      ⟨"expected value at line 1 column 1"⟩ (fun _ => "") (fun _ => "") (by decide)
  let host : Host :=
    { Host.sample (ascii "\x7b\x7d") with readToString := fun _ => .ok requiredAccent }
  let config : PipelineConfig := { PipelineConfig.default with schemaPath := some "schema.json" }
  let S := (prepare J host config).toOption.get rfl
  let e : Error := .arrow (.nullInNonNullable "e\u0301")
  have failed : (S.plan.outcome ⟨0, by decide⟩).result = .error e := rfl
  have returned : Returns J host config (.error e) := by
    rw [Returns, (rfl : prepare J host config = .ok S)]
    exact exists_returned failed
  have refused : decode (telemetryLine .sample arrowText e).toList = none := by
    rw [decode_telemetryLine]
    exact if_neg (by decide +kernel)
  refine ⟨J, host, config, e, returned, by decide +kernel, refused, ?_⟩
  intro decoded
  cases refused.symm.trans decoded

end Parq.Cli
