import Parq.Pipeline.Enact
import Parq.Pipeline.Rows

/-!
# The order of the rows in the file

The rows of a chunk keep their order, and the file is nowhere in the middle of more
chunks than there are workers.  That is all that is settled: every such order is the
order of the file in some run.  On one worker the chunks therefore follow one
another, and an input of one chunk is written in file order.
-/

namespace Parq.Pipeline

open Parq.Chunk
open Parq.Data
open Parq.Parser
open Parq.Sequence
open Parq.Transition

section Written

variable {P : Plan} {s : State P}

theorem Reached.written_narrow (reached : Reached P s) : Narrow P.workers s.written := by
  obtain ⟨t, drained, follows⟩ := reached.follows
  exact drained.inv.narrow.of_prefix follows.written

theorem Reached.written_prefix (reached : Reached P s) (i : Fin P.jobs) :
    ofSource i s.written <+: (P.parsed i).batches := by
  obtain ⟨t, drained, follows⟩ := reached.follows
  have first : ofSource i s.written <+: ofSource i t.stream := by
    rcases follows.written with ⟨more, same⟩
    exact ⟨ofSource i more, by rw [← same, ofSource_append]⟩
  exact first.trans (drained.inv.ofSource_prefix i)

end Written

/-! ## Which orders there are -/

/-- In every state that a run reaches, also one that is going to fail, the file holds of
each chunk the first of its batches, each once and in their order, and is nowhere in
the middle of more chunks than there are workers. -/
theorem written_in_order (S : Setup) {s : State S.plan} (reached : Reached S.plan s) :
    Narrow S.workers s.written ∧
      ∀ i : Fin S.plan.jobs, ofSource i s.written <+: (S.plan.parsed i).batches :=
  ⟨reached.written_narrow, reached.written_prefix⟩

theorem written_in_order_two_lines :
    ∃ (S : Setup) (s : State S.plan), Reached S.plan s ∧ s.written.length = 2 ∧
      Narrow S.workers s.written := by
  let S := Setup.sample .default (ascii "\x7b\"a\":1\x7d\n\x7b\"a\":true\x7d")
  let schedule : List (Action S.plan) :=
    .writer none :: List.replicate 7 (.closure ⟨1, by decide⟩) ++
      List.replicate 7 (.closure ⟨0, by decide⟩) ++ List.replicate 4 (.writer none)
  have reached : Reached S.plan _ :=
    reachable_of_run (fun _ _ => trivial) (rfl : run (step S.plan) schedule (.initial _) = some _)
  exact ⟨S, _, reached, rfl, (written_in_order S reached).1⟩

/-- `run_pipeline` may return `Ok` with these batches of its chunks in the file, in this
order. -/
def Yields (S : Setup) (order : List (Fin S.plan.jobs × RecordBatch)) : Prop :=
  ∃ (s : State S.plan) (metrics : ProcessingMetrics),
    Reached S.plan s ∧ s.main = .returned (.ok metrics) ∧ s.written = order

/-- The orders that the file may have are the narrow ones, and they all occur. -/
theorem yields_iff (S : Setup) (order : List (Fin S.plan.jobs × RecordBatch)) :
    Yields S order ↔
      (∃ parsed : Fin S.plan.jobs → Parsed, ∀ i : Fin S.plan.jobs,
          (parseChunk S.json S.options S.config.limit (S.chunks.get i)).result = .ok (parsed i) ∧
            ofSource i order = (parsed i).batches) ∧
        Narrow S.workers order := by
  constructor
  · rintro ⟨s, metrics, reached, ok, rfl⟩
    have completed := reached.completed ok
    exact ⟨⟨S.plan.parsed, fun i => ⟨completed.parsed i, completed.written i⟩⟩,
      reached.written_narrow⟩
  · rintro ⟨⟨parsed, each⟩, narrow⟩
    have all : S.plan.AllParsed := by
      rw [Plan.allParsed_iff]
      exact fun i => ⟨parsed i, (each i).1⟩
    have complete : ∀ i, ofSource i order = (S.plan.parsed i).batches := by
      intro i
      rw [S.plan.parsed_of_ok (each i).1]
      exact (each i).2
    obtain ⟨s, metrics, goes, ok, written⟩ := exists_run_of_narrow all complete narrow
    exact ⟨s, metrics, goes.mono fun _ _ => trivial, ok, written⟩

/-! ## One chunk at a time -/

/-- The rows that the call on a chunk delivers. -/
def Setup.chunkRows (S : Setup) (chunk : Bytes) : List Row :=
  (recordsOf S.json S.config.flatten (S.taken chunk)).map S.row

theorem rows_blocks {n : Nat} (order : List (Fin n)) (items : Fin n → List RecordBatch) :
    ((blocks order items).map Prod.snd).flatMap RecordBatch.rows =
      order.flatMap fun i => (items i).flatMap RecordBatch.rows := by
  simp [blocks, List.map_flatMap, List.flatMap_assoc, Function.comp_def]

/-- A file that is in the middle of one chunk at a time lists the chunks one after the
other. -/
theorem Completed.exists_chunks {S : Setup} {s : State S.plan} {metrics : ProcessingMetrics}
    (completed : Completed s metrics) (narrow : Narrow 1 s.written) :
    ∃ chunks : List Bytes, chunks.Perm S.chunks ∧ s.rowsWritten = chunks.flatMap S.chunkRows := by
  obtain ⟨order, perm, listed⟩ := narrow.exists_blocks_perm
  refine ⟨order.map S.chunks.get, ?_, ?_⟩
  · have chunks := perm.map S.chunks.get
    have whole : (List.finRange S.plan.jobs).map S.chunks.get = S.chunks :=
      List.map_get_finRange S.chunks
    rwa [whole] at chunks
  · rw [State.rowsWritten, listed, rows_blocks]
    refine Eq.trans ?_ (List.flatMap_map S.chunks.get S.chunkRows order).symm
    apply List.flatMap_congr
    intro i _
    rw [completed.written i]
    exact (Setup.delivers_of_allParsed completed.parsed i).1.rows

/-- On one worker the file lists the chunks one after the other, each with its rows in
file order. -/
theorem rowsWritten_one_worker (S : Setup) (one : S.workers = 1) {s : State S.plan}
    (reached : Reached S.plan s) {metrics : ProcessingMetrics}
    (ok : s.main = .returned (.ok metrics)) :
    ∃ chunks : List Bytes, chunks.Perm S.chunks ∧ s.rowsWritten = chunks.flatMap S.chunkRows := by
  have narrow : Narrow S.workers s.written := reached.written_narrow
  rw [one] at narrow
  exact (reached.completed ok).exists_chunks narrow

theorem rowsWritten_one_worker_two_lines :
    ∃ (S : Setup) (s : State S.plan) (metrics : ProcessingMetrics), S.workers = 1 ∧
      Reached S.plan s ∧ s.main = .returned (.ok metrics) ∧
      ∃ chunks : List Bytes, chunks.Perm S.chunks ∧ s.rowsWritten = chunks.flatMap S.chunkRows := by
  let S := Setup.sample .default (ascii "\x7b\"a\":1\x7d\n\x7b\"a\":true\x7d")
  let schedule : List (Action S.plan) :=
    .writer none :: List.replicate 7 (.closure ⟨1, by decide⟩) ++
      List.replicate 7 (.closure ⟨0, by decide⟩) ++ List.replicate 6 (.writer none) ++
      List.replicate 3 .main
  have reached : Reached S.plan _ :=
    reachable_of_run (fun _ _ => trivial) (rfl : run (step S.plan) schedule (.initial _) = some _)
  exact ⟨S, _, _, rfl, reached, rfl, rowsWritten_one_worker S rfl reached rfl⟩

/-- Data that is no longer than a window is one chunk. -/
theorem fixedChunks_of_le {data : Bytes} {chunkSize : Option Nat}
    (small : data.length ≤ max (chunkSize.getD CHUNK_SIZE_BYTES) 1) :
    fixedChunks data chunkSize = if data = [] then [] else [data] := by
  cases data with
  | nil => rfl
  | cons b data =>
      have whole : min (0 + max (chunkSize.getD CHUNK_SIZE_BYTES) 1) (b :: data).length =
          (b :: data).length := by
        rw [Nat.zero_add]
        exact Nat.min_eq_right small
      have inside : 0 < (b :: data).length := Nat.succ_pos _
      rw [if_neg (List.cons_ne_nil b data), fixedChunks, List.isEmpty_cons,
        if_neg Bool.false_ne_true,
        List.length_cons, fixedChunksLoop, if_pos inside, if_pos whole, List.drop_zero]

/-- The records that a limit on the whole input leaves. -/
def Setup.recordsWithin (S : Setup) : List Map :=
  match S.config.limit with
  | some n => S.records.take n
  | none => S.records

theorem Setup.recordsWithin_of_empty {S : Setup} (empty : S.input = []) : S.recordsWithin = [] := by
  have none_there : S.records = [] := by
    rw [records, empty]
    exact List.filterMap_cons_none (record?_nil S.json S.config.flatten)
  rw [recordsWithin, none_there]
  cases S.config.limit <;> simp

theorem Setup.chunkRows_input (S : Setup) : S.chunkRows S.input = S.recordsWithin.map S.row := by
  rw [chunkRows, recordsWithin, taken, records]
  cases S.config.limit with
  | none => rw [considered_none]
  | some n => rw [recordsOf_considered, Nat.sub_zero]

/-- An input of one chunk is written in file order, and up to the limit, on any number of
workers. -/
theorem rowsWritten_one_chunk (J : SerdeJson) (host : Host) (config : PipelineConfig)
    {input : Bytes} (opened : host.openInput config.inputPath = .ok input)
    (small : input.length ≤ max (config.chunkSize.getD CHUNK_SIZE_BYTES) 1) {S : Setup}
    (prepared : prepare J host config = .ok S) {s : State S.plan} (reached : Reached S.plan s)
    {metrics : ProcessingMetrics} (ok : s.main = .returned (.ok metrics)) :
    s.rowsWritten = S.recordsWithin.map S.row ∧ metrics.rowsProcessed = s.rowsWritten.length := by
  have completed := reached.completed ok
  obtain ⟨_, _, opened_input, _⟩ := prepare_setup prepared
  obtain rfl : input = S.input := Except.ok.inj (opened.symm.trans opened_input)
  have one := (prepare_chunks prepared).1
  rw [fixedChunks_of_le small] at one
  have few : S.chunks.length ≤ 1 := by
    rw [one]
    split <;> simp
  have rows : s.rowsWritten = S.recordsWithin.map S.row := by
    obtain ⟨chunks, perm, listed⟩ :=
      completed.exists_chunks (narrow_of_card_le (by rw [Fintype.card_fin]; exact few) s.written)
    rw [one] at perm
    rw [listed]
    split at perm
    · rename_i empty
      rw [List.perm_nil.mp perm, Setup.recordsWithin_of_empty empty]
      rfl
    · rw [List.perm_singleton.mp perm, List.flatMap_singleton, S.chunkRows_input]
  refine ⟨rows, ?_⟩
  have delivered := completed.delivered
  rw [delivered.processed, delivered.rows.length_eq, List.length_map]

/-- Two workers on one chunk of three records, with a limit of two. -/
theorem rowsWritten_one_chunk_three_lines :
    ∃ (S : Setup) (s : State S.plan) (metrics : ProcessingMetrics), S.workers = 2 ∧
      S.records.length = 3 ∧ Reached S.plan s ∧ s.main = .returned (.ok metrics) ∧
        s.rowsWritten = [[.int64 1], [.null]] ∧ s.rowsWritten = S.recordsWithin.map S.row := by
  let input := ascii "\x7b\"a\":1\x7d\n\x7b\"a\":true\x7d\n\x7b\"a\":1\x7d"
  let host :=
    { Host.sample input with poolSize := fun _ => 2, poolSize_pos := fun _ => Nat.two_pos }
  let config := { PipelineConfig.default with limit := some 2, batchSize := 1 }
  let S := (prepare .sample host config).toOption.get rfl
  have prepared : prepare .sample host config = .ok S := rfl
  let schedule : List (Action S.plan) :=
    .writer none :: List.replicate 8 (.closure ⟨0, by decide⟩) ++
      List.replicate 6 (.writer none) ++ List.replicate 3 .main
  have reached : Reached S.plan _ :=
    reachable_of_run (fun _ _ => trivial) (rfl : run (step S.plan) schedule (.initial _) = some _)
  exact ⟨S, _, _, rfl, rfl, reached, rfl, rfl,
    (rowsWritten_one_chunk .sample host config rfl (by decide) prepared reached rfl).1⟩

end Parq.Pipeline
