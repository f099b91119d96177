import Parq.Parser.Quarantine
import Parq.Pipeline.Setup
import Parq.Sequence.Limit

/-!
# The rows of a successful run

Without a row limit, an `Ok` of `run_pipeline` means that every row of every chunk
is in the file, once and in the order of its chunk, and that the metrics count them.
With a limit the same holds of what each call accepts, and since every call counts
for itself, the limit is one for each chunk.
-/

namespace Parq.Pipeline

open Parq.Chunk
open Parq.Data
open Parq.Parser
open Parq.Sequence
open Parq.Transition

/-! ## Runs without a limit -/

section Failed

variable {P : Plan} {s target : State P}

/-- A writer that has failed stays so. -/
theorem Moves.writer_failed {a : Action P} (moves : Moves s a target) {e : Error}
    (failed : s.writer = .failed e) : target.writer = .failed e := by
  cases moves with
  | closure moved =>
      cases moved with
      | handOver _ _ receiving =>
          rw [failed] at receiving
          cases receiving
      | _ => exact failed
  | writer moved =>
      cases moved with
      | fail here => rcases here with here | ⟨item, here⟩ | here <;> simp [failed] at here
      | create here | receive here | disconnect here | write here | close here =>
          simp [failed] at here
  | quarantine moved => cases moved <;> exact failed
  | main moved => cases moved <;> exact failed

theorem writer_failed_of_reachable {e : Error} (failed : s.writer = .failed e)
    (rest : Reachable (step P) (fun _ => True) s target) : target.writer = .failed e := by
  induction rest with
  | refl => exact failed
  | tail _ _ stepped ih => exact (moves_of_step stepped).writer_failed ih

end Failed

variable {S : Setup} {s : State S.plan} {metrics : ProcessingMetrics}

/-- Every non-blank line of the input is a record or rejected. -/
theorem Setup.length_records_add_rejected (S : Setup) :
    S.records.length + S.rejected.length = (nonBlankLines S.input).length :=
  length_recordsOf_add_rejectedOf S.json S.config.flatten (splitLines S.input)

/-- A run without a row limit that returns `Ok` has parsed every chunk and written
the rows of each, in their order and once, and counted every line; no writer failed
on the way. -/
theorem rows_of_ok_run (S : Setup) (unlimited : S.config.limit = none) {s : State S.plan}
    (reached : Reached S.plan s) {metrics : ProcessingMetrics}
    (ok : s.main = .returned (.ok metrics)) :
    ∃ parsed : Fin S.chunks.length → Parsed,
      (∀ i, (parseChunk S.json S.options none (S.chunks.get i)).result = .ok (parsed i)) ∧
        s.writer = .closed ∧
        s.rowsWritten.Perm
          ((List.finRange S.chunks.length).flatMap fun i =>
            (parsed i).batches.flatMap RecordBatch.rows) ∧
        (∀ i, ofSource i s.written = (parsed i).batches) ∧
        metrics.rowsProcessed = s.rowsWritten.length ∧
        metrics.rowsProcessed + metrics.rowsErrored = (nonBlankLines S.input).length ∧
        ∀ earlier : State S.plan, ∀ e, earlier.writer = .failed e →
          ¬ Reachable (step S.plan) (fun _ => True) earlier s := by
  have completed := reached.completed ok
  have delivered := completed.delivered
  have counts := S.length_records_add_rejected
  rw [← S.accepted_eq unlimited, ← S.refused_eq unlimited, ← delivered.processed,
    ← delivered.errored] at counts
  refine ⟨S.plan.parsed, ?_, completed.closed, ?_, completed.written, ?_, counts, ?_⟩
  · intro i
    rw [← unlimited]
    exact completed.parsed i
  · have perm := (written_perm completed.written).flatMap_right RecordBatch.rows
    rwa [Plan.allBatches, List.flatMap_assoc] at perm
  · rw [delivered.processed, delivered.rows.length_eq, List.length_map]
  · intro earlier e failed rest
    have still := writer_failed_of_reachable failed rest
    rw [completed.closed] at still
    cases still

/-- Two workers on three chunks, the second of which is a line that is rejected. -/
theorem rows_of_ok_run_three_chunks :
    ∃ (S : Setup) (s : State S.plan) (metrics : ProcessingMetrics), S.workers = 2 ∧
      S.chunks.length = 3 ∧ Reached S.plan s ∧ s.main = .returned (.ok metrics) ∧
        s.rowsWritten = [[.null], [.int64 1]] ∧ metrics.rowsProcessed = s.rowsWritten.length ∧
        metrics.rowsProcessed + metrics.rowsErrored = (nonBlankLines S.input).length := by
  let config := { PipelineConfig.default with ignoreErrors := true }
  let S : Setup :=
    { Setup.sample config (ascii "\x7b\"a\":1\x7d\nx\n\x7b\"a\":true\x7d") with
      workers := 2
      workers_pos := Nat.two_pos }
  let schedule : List (Action S.plan) :=
    .writer none :: .closure ⟨0, by decide⟩ :: List.replicate 6 (.closure ⟨1, by decide⟩) ++
      List.replicate 7 (.closure ⟨2, by decide⟩) ++ List.replicate 6 (.closure ⟨0, by decide⟩) ++
      List.replicate 6 (.writer none) ++ List.replicate 3 .main
  have reached : Reached S.plan _ :=
    reachable_of_run (fun _ _ => trivial) (rfl : run (step S.plan) schedule (.initial _) = some _)
  obtain ⟨_, _, _, _, _, processed, counted, _⟩ := rows_of_ok_run S rfl reached rfl
  exact ⟨S, _, _, rfl, rfl, reached, rfl, rfl, processed, counted⟩

/-! ## Runs with a limit -/

/-- The records of each chunk. -/
def Setup.recordsByChunk (S : Setup) : List (List Map) :=
  S.chunks.map fun chunk => recordsOf S.json S.config.flatten (splitLines chunk)

theorem Setup.flatten_recordsByChunk (S : Setup) : S.recordsByChunk.flatten = S.records := by
  rw [records_eq, recordsByChunk, List.flatMap_def]

/-- With a limit, the calls accept that many records of each chunk. -/
theorem Setup.accepted_of_limit {S : Setup} {n : Nat} (limited : S.config.limit = some n) :
    S.accepted = S.recordsByChunk.flatMap (List.take n) := by
  rw [accepted, recordsByChunk, List.flatMap_map]
  simp only [taken, limited, recordsOf_considered, Nat.sub_zero]

/-- The file holds the rows of the first `n` records, and the metrics count them. -/
structure HoldsFirst (n : Nat) (s : State S.plan) (metrics : ProcessingMetrics) : Prop where
  rows : s.rowsWritten.Perm ((S.records.take n).map S.row)
  processed : metrics.rowsProcessed = min n S.records.length

/-- A run with a row limit that returns `Ok` obeys it exactly when the limit is zero,
cuts nothing, or finds all records in one chunk. -/
theorem holdsFirst_iff (S : Setup) {n : Nat} (limited : S.config.limit = some n)
    {s : State S.plan} (reached : Reached S.plan s) {metrics : ProcessingMetrics}
    (ok : s.main = .returned (.ok metrics)) :
    HoldsFirst n s metrics ↔ n = 0 ∨ S.records.length ≤ n ∨ Solitary S.recordsByChunk := by
  have delivered := reached.delivered ok
  have harmless := length_flatMap_take_eq_iff n S.recordsByChunk
  rw [S.flatten_recordsByChunk, ← Setup.accepted_of_limit limited] at harmless
  constructor
  · intro holds
    apply harmless.mp
    rw [← delivered.processed, holds.processed]
  · intro condition
    have accepted : S.accepted = S.records.take n := by
      rw [Setup.accepted_of_limit limited, ← S.flatten_recordsByChunk]
      apply flatMap_take_eq_take
      rwa [S.flatten_recordsByChunk]
    constructor
    · rw [← accepted]
      exact delivered.rows
    · rw [delivered.processed]
      exact harmless.mpr condition

/-- Under the limit `1` a chunk with two records gives its first row, beside a chunk
without a record. -/
theorem holdsFirst_one_chunk_of_records :
    ∃ (S : Setup) (s : State S.plan) (metrics : ProcessingMetrics), S.chunks.length = 2 ∧
      S.records.length = 2 ∧ Reached S.plan s ∧ s.main = .returned (.ok metrics) ∧
        HoldsFirst 1 s metrics := by
  let config := { PipelineConfig.default with limit := some 1, ignoreErrors := true }
  let input := ascii "\x7b\"a\":1\x7d\n\x7b\"a\":true\x7d\nx"
  let S : Setup :=
    { Setup.sample config input with
      chunks := fixedChunks input (some 10)
      flatten_chunks := flatten_fixedChunks input (some 10)
      delimited := delimited_fixedChunks input (some 10) }
  let schedule : List (Action S.plan) :=
    .writer none :: List.replicate 7 (.closure ⟨0, by decide⟩) ++
      List.replicate 6 (.closure ⟨1, by decide⟩) ++ List.replicate 4 (.writer none) ++
      List.replicate 3 .main
  have reached : Reached S.plan _ :=
    reachable_of_run (fun _ _ => trivial) (rfl : run (step S.plan) schedule (.initial _) = some _)
  have solitary : Solitary S.recordsByChunk := by
    change 1 ≤ 1
    decide
  exact ⟨S, _, _, rfl, rfl, reached, rfl,
    (holdsFirst_iff S rfl reached rfl).mpr (.inr (.inr solitary))⟩

/-- Two records in two chunks are both written under the limit `1`. -/
theorem two_chunks_exceed_limit :
    ∃ (S : Setup) (n : Nat) (s : State S.plan) (metrics : ProcessingMetrics),
      S.config.limit = some n ∧ Reached S.plan s ∧ s.main = .returned (.ok metrics) ∧
        ¬ HoldsFirst n s metrics := by
  let S := Setup.sample { PipelineConfig.default with limit := some 1 }
    (ascii "\x7b\"a\":1\x7d\n\x7b\"a\":1\x7d")
  let schedule : List (Action S.plan) :=
    .writer none :: List.replicate 7 (.closure ⟨0, by decide⟩) ++
      List.replicate 7 (.closure ⟨1, by decide⟩) ++ List.replicate 6 (.writer none) ++
        List.replicate 3 .main
  have reached : Reached S.plan _ :=
    reachable_of_run (fun _ _ => trivial) (rfl : run (step S.plan) schedule (.initial _) = some _)
  refine ⟨S, 1, _, ⟨15, 2, 0, 1⟩, rfl, reached, rfl, ?_⟩
  intro holds
  have processed : 2 = min 1 S.records.length := holds.processed
  exact absurd processed (by decide)

end Parq.Pipeline
