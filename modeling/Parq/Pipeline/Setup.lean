import Parq.Parser.Chunked
import Parq.Pipeline.Result
import Parq.Schema.Core
import Mathlib.Algebra.BigOperators.Fin

/-!
# Preparing a run

The part of `run_pipeline` before the threads start: the input is mapped, the
schema read or inferred, and the input cut into chunks.  The results below hold of
every cut of the input at line ends, of which `fixed_chunks` makes one.
-/

namespace Parq.Pipeline

open Parq.Chunk
open Parq.Data
open Parq.Parser
open Parq.Schema
open Parq.Sequence

/-- `PipelineConfig`, without the output path and the compression.  The input, the output
and the dead-letter path are taken to be distinct files, and the channel of
`channelDepth` places to fit into memory. -/
structure PipelineConfig where
  inputPath : String
  batchSize : Nat
  numThreads : Nat
  ignoreErrors : Bool
  flatten : Bool
  limit : Option Nat
  schemaPath : Option String
  channelDepth : Nat
  chunkSize : Option Nat
  deadLetterPath : Option String

/-- `PipelineConfig::default`. -/
def PipelineConfig.default : PipelineConfig where
  inputPath := ""
  batchSize := 65536
  numThreads := 0
  ignoreErrors := false
  flatten := false
  limit := none
  schemaPath := none
  channelDepth := 8
  chunkSize := none
  deadLetterPath := none

/-- What the process reads from the machine it runs on. -/
structure Host where
  /-- `File::open`, `metadata` and `MmapOptions::map` on a path. -/
  openInput : String → Except String Bytes
  /-- `std::fs::read_to_string`. -/
  readToString : String → Except String String
  /-- `num_cpus::get`. -/
  numCpus : Nat
  /-- The size of rayon's global pool after `build_global` for so many threads.  An
  error of `build_global` is dropped, so it may be another pool's size. -/
  poolSize : Nat → Nat
  poolSize_pos : ∀ threads, 0 < poolSize threads

/-- A machine with one processor, on which every path opens as `input`. -/
def Host.sample (input : Bytes) : Host where
  openInput := fun _ => .ok input
  readToString := fun _ => .error "No such file or directory (os error 2)"
  numCpus := 1
  poolSize := fun _ => 1
  poolSize_pos := fun _ => Nat.one_pos

/-- What `run_pipeline` has when it starts the threads. -/
structure Setup where
  json : SerdeJson
  config : PipelineConfig
  input : Bytes
  schema : Schema
  chunks : List Bytes
  flatten_chunks : chunks.flatten = input
  delimited : Delimited newline chunks
  threads : Nat
  workers : Nat
  workers_pos : 0 < workers

/-- The schema of a run: that of the given file, or that of the first 10,000
lines. -/
def chooseSchema (J : SerdeJson) (host : Host) (config : PipelineConfig) (rawBytes : Bytes) :
    Except Error Schema :=
  match config.schemaPath with
  | some sp => loadSchemaFromFile J (host.readToString sp)
  | none => inferSchema J rawBytes 10000

/-- `run_pipeline` up to the start of the threads. -/
def prepare (J : SerdeJson) (host : Host) (config : PipelineConfig) : Except Error Setup :=
  let threads := if config.numThreads = 0 then host.numCpus else config.numThreads
  match host.openInput config.inputPath with
  | .error message => .error (.io message)
  | .ok rawBytes =>
      match chooseSchema J host config rawBytes with
      | .error e => .error e
      | .ok schema =>
          .ok
            { json := J
              config := config
              input := rawBytes
              schema := schema
              chunks := fixedChunks rawBytes config.chunkSize
              flatten_chunks := flatten_fixedChunks rawBytes config.chunkSize
              delimited := delimited_fixedChunks rawBytes config.chunkSize
              threads := threads
              workers := host.poolSize threads
              workers_pos := host.poolSize_pos threads }

section Prepare

variable {J : SerdeJson} {host : Host} {config : PipelineConfig} {input : Bytes}

/-- A prepared run holds the configuration, the opened input and the schema chosen for
it. -/
theorem prepare_setup {S : Setup} (prepared : prepare J host config = .ok S) :
    S.json = J ∧ S.config = config ∧ host.openInput config.inputPath = .ok S.input ∧
      chooseSchema J host config S.input = .ok S.schema := by
  cases opened : host.openInput config.inputPath with
  | error message => simp [prepare, opened] at prepared
  | ok input =>
      simp only [prepare, opened] at prepared
      cases schema : chooseSchema J host config input with
      | error e => simp [schema] at prepared
      | ok schema' =>
          simp only [schema, Except.ok.injEq] at prepared
          subst prepared
          exact ⟨rfl, rfl, rfl, schema⟩

/-- A prepared run holds the chunks that `fixed_chunks` cuts, and the pool that the machine
gives. -/
theorem prepare_chunks {S : Setup} (prepared : prepare J host config = .ok S) :
    S.chunks = fixedChunks S.input config.chunkSize ∧ S.workers = host.poolSize S.threads ∧
      S.threads = if config.numThreads = 0 then host.numCpus else config.numThreads := by
  cases opened : host.openInput config.inputPath with
  | error message => simp [prepare, opened] at prepared
  | ok input =>
      simp only [prepare, opened] at prepared
      cases schema : chooseSchema J host config input with
      | error e => simp [schema] at prepared
      | ok schema' =>
          simp only [schema, Except.ok.injEq] at prepared
          subst prepared
          exact ⟨rfl, rfl, rfl⟩

/-- Without a schema file the schema is the inferred one. -/
theorem prepare_eq_ok {S : Setup} (inferred : config.schemaPath = none)
    (prepared : prepare J host config = .ok S) :
    S.json = J ∧ S.config = config ∧ host.openInput config.inputPath = .ok S.input ∧
      inferSchema J S.input 10000 = .ok S.schema := by
  have setup := prepare_setup prepared
  rwa [chooseSchema, inferred] at setup

/-- Without I/O failures only the inference of the schema can fail. -/
theorem prepare_isOk_iff (inferred : config.schemaPath = none)
    (opened : host.openInput config.inputPath = .ok input) :
    (∃ S, prepare J host config = .ok S) ↔ ∃ schema, inferSchema J input 10000 = .ok schema := by
  simp only [prepare, opened, chooseSchema, inferred]
  cases inferSchema J input 10000 <;> simp

end Prepare

namespace Setup

/-- The arguments of every call of `parse_chunk`. -/
def options (S : Setup) : ParseOptions where
  schema := S.schema
  batchSize := S.config.batchSize
  ignoreErrors := S.config.ignoreErrors
  flattenJson := S.config.flatten
  deadLetterTx := S.config.deadLetterPath.isSome

/-- What the threads work on. -/
def plan (S : Setup) : Plan where
  jobs := S.chunks.length
  outcome := fun i => parseChunk S.json S.options S.config.limit S.chunks[i]
  depth := S.config.channelDepth
  workers := S.workers
  workers_pos := S.workers_pos
  deadLetter := S.config.deadLetterPath.isSome
  inputBytes := S.input.length
  threadsUsed := S.threads

/-- The run on one worker that reads each line of `input` as a chunk into one
nullable column `a`. -/
def sample (config : PipelineConfig) (input : Bytes) : Setup where
  json := .sample
  config := config
  input := input
  schema := ⟨[⟨"a", .int64, true⟩]⟩
  chunks := fixedChunks input (some 1)
  flatten_chunks := flatten_fixedChunks input (some 1)
  delimited := delimited_fixedChunks input (some 1)
  threads := 1
  workers := 1
  workers_pos := Nat.one_pos

/-! ## The lines of the input -/

/-- The records of the input, in file order. -/
def records (S : Setup) : List Map :=
  recordsOf S.json S.config.flatten (splitLines S.input)

/-- The rejected lines of the input, trimmed, in file order. -/
def rejected (S : Setup) : List Bytes :=
  rejectedOf S.json (splitLines S.input)

/-- The row of a record in the schema of the run. -/
def row (S : Setup) (obj : Map) : Row :=
  rowOf S.json S.schema obj

/-- The lines of a chunk that its call reads. -/
def taken (S : Setup) (chunk : Bytes) : List Bytes :=
  considered S.json S.config.flatten S.config.limit 0 (splitLines chunk)

/-- The records that the calls accept, chunk by chunk. -/
def accepted (S : Setup) : List Map :=
  S.chunks.flatMap fun chunk => recordsOf S.json S.config.flatten (S.taken chunk)

/-- The lines that the calls reject, chunk by chunk. -/
def refused (S : Setup) : List Bytes :=
  S.chunks.flatMap fun chunk => rejectedOf S.json (S.taken chunk)

variable (S : Setup)

/-- Selecting lines of the input is selecting them chunk by chunk. -/
theorem filterMap_splitLines {β : Type} {select : Bytes → Option β}
    (select_nil : select [] = none) :
    (splitLines S.input).filterMap select =
      S.chunks.flatMap fun chunk => (splitLines chunk).filterMap select := by
  have piecewise := filterMap_splitOn_flatten select_nil S.delimited
  rwa [S.flatten_chunks] at piecewise

theorem records_eq : S.records =
    S.chunks.flatMap fun chunk => recordsOf S.json S.config.flatten (splitLines chunk) :=
  S.filterMap_splitLines (record?_nil S.json S.config.flatten)

theorem rejected_eq :
    S.rejected = S.chunks.flatMap fun chunk => rejectedOf S.json (splitLines chunk) :=
  S.filterMap_splitLines (rejected?_nil S.json)

/-- Without a limit the calls accept all records. -/
theorem accepted_eq (unlimited : S.config.limit = none) : S.accepted = S.records := by
  rw [records_eq, accepted]
  simp only [taken, unlimited, considered_none]

/-- Without a limit the calls reject all that is to be rejected. -/
theorem refused_eq (unlimited : S.config.limit = none) : S.refused = S.rejected := by
  rw [rejected_eq, refused]
  simp only [taken, unlimited, considered_none]

theorem sum_chunks (f : Bytes → Nat) :
    ∑ i : Fin S.plan.jobs, f S.chunks[i] = (S.chunks.map f).sum :=
  Fin.sum_univ_fun_getElem S.chunks f

theorem flatMap_chunks {β : Type} (f : Bytes → List β) :
    ((List.finRange S.plan.jobs).flatMap fun i => f S.chunks[i]) = S.chunks.flatMap f := by
  have chunks : (List.finRange S.chunks.length).map (fun i => S.chunks[i]) = S.chunks :=
    List.map_getElem_finRange S.chunks
  conv_rhs => rw [← chunks, List.flatMap_map]
  rfl

theorem allParsed_iff : S.plan.AllParsed ↔
    ∀ chunk ∈ S.chunks, ∀ line ∈ S.taken chunk, LineOk S.json S.options line := by
  rw [Plan.allParsed_iff]
  constructor
  · intro all chunk mem
    rcases List.mem_iff_getElem.mp mem with ⟨i, inside, rfl⟩
    exact parseChunk_isOk_iff.mp (all ⟨i, inside⟩)
  · intro all i
    exact parseChunk_isOk_iff.mpr (all _ (List.getElem_mem i.isLt))

/-- Without a limit every chunk is parsed exactly when every line of the input is
acceptable. -/
theorem allParsed_iff_lines (unlimited : S.config.limit = none) : S.plan.AllParsed ↔
    ∀ line ∈ splitLines S.input, LineOk S.json S.options line := by
  have piecewise := forall_splitOn_flatten_iff (lineOk_nil S.json S.options) S.delimited
  rw [S.flatten_chunks] at piecewise
  rw [allParsed_iff]
  simp only [taken, unlimited, considered_none]
  exact piecewise.symm

variable {S}

/-- What the call on chunk `i` delivered. -/
theorem delivers_of_allParsed (all : S.plan.AllParsed) (i : Fin S.plan.jobs) :
    Delivers S.json S.options (S.taken S.chunks[i]) (S.plan.parsed i) ∧
      (S.plan.outcome i).deadLetters =
        if S.config.deadLetterPath.isSome then rejectedOf S.json (S.taken S.chunks[i]) else [] :=
  parseChunk_eq_ok (all i)

end Setup

/-- `run_pipeline` returns `result` under some interleaving of its threads. -/
def Returns (J : SerdeJson) (host : Host) (config : PipelineConfig)
    (result : Except Error ProcessingMetrics) : Prop :=
  match prepare J host config with
  | .error e => result = .error e
  | .ok S => ∃ s, Reached S.plan s ∧ s.main = .returned result

/-! ## Completed runs -/

/-- The rows in the output file. -/
def State.rowsWritten {P : Plan} (s : State P) : List Row :=
  (s.written.map Prod.snd).flatMap RecordBatch.rows

variable {S : Setup} {s : State S.plan} {metrics : ProcessingMetrics}

/-- A file that holds the batches of every chunk holds the rows of all accepted
records. -/
theorem rowsWritten_perm (all : S.plan.AllParsed)
    (written : ∀ i, ofSource i s.written = (S.plan.parsed i).batches) :
    s.rowsWritten.Perm (S.accepted.map S.row) := by
  have rows : S.plan.allBatches.flatMap RecordBatch.rows = S.accepted.map S.row := by
    rw [Plan.allBatches, List.flatMap_assoc, Setup.accepted, List.map_flatMap]
    rw [← S.flatMap_chunks]
    apply List.flatMap_congr
    intro i _
    exact (Setup.delivers_of_allParsed all i).1.rows
  have perm := (written_perm written).flatMap_right RecordBatch.rows
  rwa [rows] at perm

/-- What an `Ok` of `run_pipeline` says about the rows. -/
structure Delivered (S : Setup) (s : State S.plan) (metrics : ProcessingMetrics) : Prop where
  rows : s.rowsWritten.Perm (S.accepted.map S.row)
  processed : metrics.rowsProcessed = S.accepted.length
  errored : metrics.rowsErrored = S.refused.length

theorem Completed.delivered (completed : Completed s metrics) : Delivered S s metrics := by
  have delivers := fun i => (Setup.delivers_of_allParsed completed.parsed i).1
  constructor
  · exact rowsWritten_perm completed.parsed completed.written
  · have counts : ∑ i, (S.plan.parsed i).rowsOk = S.accepted.length := by
      rw [Setup.accepted, List.length_flatMap, ← S.sum_chunks]
      exact Finset.sum_congr rfl fun i _ => (delivers i).rowsOk
    rw [completed.metrics, counts]
  · have counts : ∑ i, (S.plan.parsed i).rowsSkipped = S.refused.length := by
      rw [Setup.refused, List.length_flatMap, ← S.sum_chunks]
      exact Finset.sum_congr rfl fun i _ => (delivers i).rowsSkipped
    rw [completed.metrics, counts]

theorem Reached.delivered (reached : Reached S.plan s) (ok : s.main = .returned (.ok metrics)) :
    Delivered S s metrics :=
  (reached.completed ok).delivered

end Parq.Pipeline
