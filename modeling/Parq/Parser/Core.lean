import Parq.Flatten.Core
import Parq.Parser.Builder

/-!
# Parsing one chunk

`parse_chunk` walks the lines of a chunk with the column builders, the finished
batches and three counters as its state.  A line either leaves the loop going,
ends it (the row limit), or ends the call with an error.  The lines handed to the
dead-letter channel are recorded in the order of the `send` calls, whatever
becomes of them.
-/

namespace Parq.Parser

open Parq.Data
open Parq.Flatten

/-- The arguments of `parse_chunk` other than the data and the row limit. -/
structure ParseOptions where
  schema : Schema
  batchSize : Nat
  ignoreErrors : Bool
  flattenJson : Bool
  /-- Whether `dead_letter_tx` is `Some`. -/
  deadLetterTx : Bool

/-- A call that writes one nullable column `a` in batches of one row. -/
def ParseOptions.oneColumn (declared : DataType) (ignoreErrors : Bool) : ParseOptions where
  schema := ⟨[⟨"a", declared, true⟩]⟩
  batchSize := 1
  ignoreErrors := ignoreErrors
  flattenJson := false
  deadLetterTx := false

/-- The local variables of `parse_chunk`. -/
structure ChunkState where
  batches : List RecordBatch
  builders : List ColBuilder
  batchRows : Nat
  totalOk : Nat
  totalSkip : Nat
  lineNo : Nat
  deadLetters : List Bytes

/-- Empty builders for the fields of a schema. -/
def newBuilders (schema : Schema) : List ColBuilder :=
  schema.fields.map fun field => ColBuilder.new field.dataType

namespace ChunkState

/-- The state before the first line. -/
def initial (schema : Schema) : ChunkState where
  batches := []
  builders := newBuilders schema
  batchRows := 0
  totalOk := 0
  totalSkip := 0
  lineNo := 0
  deadLetters := []

/-- Skip a line in lenient mode: count it and send it to the dead-letter channel
if there is one. -/
def skip (s : ChunkState) (deadLetterTx : Bool) (trimmed : Bytes) : ChunkState :=
  { s with
    totalSkip := s.totalSkip + 1
    deadLetters := if deadLetterTx then s.deadLetters ++ [trimmed] else s.deadLetters }

end ChunkState

/-- How the body of the loop ends. -/
inductive Flow
  | next (s : ChunkState)
  | stop (s : ChunkState)
  | fail (s : ChunkState) (e : Error)

/-- `if let Some(lim) = limit { if total_ok >= lim { break } }`. -/
def limitReached (limit : Option Nat) (totalOk : Nat) : Bool :=
  match limit with
  | some lim => lim ≤ totalOk
  | none => false

/-- The loop over the fields: append the value of each field's name to the
builder at the same place. -/
def appendRow (J : SerdeJson) (obj : Map) (line : Nat) (ignoreErrors : Bool) :
    List Field → List ColBuilder → Except Error (List ColBuilder)
  | field :: fields, builder :: builders => do
      let builder ← builder.append J (obj.get field.name) line ignoreErrors
      let builders ← appendRow J obj line ignoreErrors fields builders
      pure (builder :: builders)
  | _, builders => pure builders

/-- `flush`: finish all builders, put fresh ones in their place and form the
batch. -/
def flush (schema : Schema) (builders : List ColBuilder) :
    Except Error (RecordBatch × List ColBuilder) :=
  match RecordBatch.tryNew schema (builders.map ColBuilder.finish) with
  | .ok batch => .ok (batch, newBuilders schema)
  | .error e => .error (.arrow e)

/-- The column dispatch and the flush of a full batch. -/
def storeRecord (J : SerdeJson) (o : ParseOptions) (s : ChunkState) (obj : Map) : Flow :=
  match appendRow J obj s.lineNo o.ignoreErrors o.schema.fields s.builders with
  | .error e => .fail s e
  | .ok builders =>
      let s := { s with builders, batchRows := s.batchRows + 1, totalOk := s.totalOk + 1 }
      if o.batchSize ≤ s.batchRows then
        match flush o.schema s.builders with
        | .error e => .fail s e
        | .ok (batch, builders) =>
            .next { s with batches := s.batches ++ [batch], builders, batchRows := 0 }
      else
        .next s

/-- The object whose members are dispatched: `flatten_object(&obj, "_")` when
flattening is on. -/
def dispatched (J : SerdeJson) (flattenJson : Bool) (members : Map) : Map :=
  if flattenJson then flattenObject J members "_" else members

/-- The body of the loop over the lines. -/
def lineStep (J : SerdeJson) (o : ParseOptions) (limit : Option Nat) (s : ChunkState)
    (lineBytes : Bytes) : Flow :=
  let s := { s with lineNo := s.lineNo + 1 }
  if limitReached limit s.totalOk then
    .stop s
  else
    let trimmed := trimAscii lineBytes
    if trimmed.isEmpty then
      .next s
    else
      match J.fromSlice trimmed with
      | .error e =>
          if o.ignoreErrors then .next (s.skip o.deadLetterTx trimmed)
          else .fail s (.jsonParse s.lineNo e)
      | .ok (.object members) => storeRecord J o s (dispatched J o.flattenJson members)
      | .ok _ =>
          if o.ignoreErrors then .next (s.skip o.deadLetterTx trimmed)
          else .fail s (.jsonParse s.lineNo J.bang)

/-- The loop over the lines, with the error that ends the call if there is one. -/
def parseLines (J : SerdeJson) (o : ParseOptions) (limit : Option Nat) :
    List Bytes → ChunkState → ChunkState × Option Error
  | [], s => (s, none)
  | line :: lines, s =>
      match lineStep J o limit s line with
      | .next s => parseLines J o limit lines s
      | .stop s => (s, none)
      | .fail s e => (s, some e)

/-- What a successful call returns: `(batches, rows_ok, rows_skipped)`. -/
structure Parsed where
  batches : List RecordBatch
  rowsOk : Nat
  rowsSkipped : Nat

/-- The result of a call and the lines it sent to the dead-letter channel. -/
structure ChunkOutcome where
  result : Except Error Parsed
  deadLetters : List Bytes

/-- The end of `parse_chunk`: flush the rows of the last batch. -/
def finishChunk (schema : Schema) (s : ChunkState) : Except Error Parsed :=
  if 0 < s.batchRows then
    match flush schema s.builders with
    | .error e => .error e
    | .ok (batch, _) => .ok ⟨s.batches ++ [batch], s.totalOk, s.totalSkip⟩
  else
    .ok ⟨s.batches, s.totalOk, s.totalSkip⟩

/-- `parse_chunk` of the default build. -/
def parseChunk (J : SerdeJson) (o : ParseOptions) (limit : Option Nat) (data : Bytes) :
    ChunkOutcome :=
  match parseLines J o limit (splitLines data) (.initial o.schema) with
  | (s, some e) => ⟨.error e, s.deadLetters⟩
  | (s, none) => ⟨finishChunk o.schema s, s.deadLetters⟩

end Parq.Parser
