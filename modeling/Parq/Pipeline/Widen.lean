import Parq.Parser.Widened
import Parq.Pipeline.Columns

/-!
# Declaring wider types

A schema may be given wider types without turning anything into nulls: the same records
are accepted, and every row has a value wherever it had one.  Which value, the wider type
decides: an integer of more than 53 bits, for one, is rounded in a column of floats.
-/

namespace Parq.Pipeline

open Parq.Data
open Parq.Parser
open Parq.Sequence
open Parq.Transition

/-- The two runs convert the same records, and each row of the second has values wherever
its row of the first has some. -/
structure Widening (run wider : OkRun) : Prop where
  rows : ∃ pairs : List (Row × Row), (pairs.map Prod.fst).Perm run.rows ∧
    (pairs.map Prod.snd).Perm wider.rows ∧ ∀ pair ∈ pairs, List.Forall₂ KeepsValue pair.1 pair.2
  processed : wider.metrics.rowsProcessed = run.metrics.rowsProcessed
  errored : wider.metrics.rowsErrored = run.metrics.rowsErrored
  letters : run.setup.config.deadLetterPath.isSome = true → wider.letters.Perm run.letters

/-- Declaring wider types makes no nulls: integers may become floats and all columns text,
and nulls may be allowed.  What a schema converts the wider one converts as well, in strict and
in lenient mode, with any limit and under any interleavings, and a row is nowhere null where it
was not. -/
theorem widening_loses_nothing {S : Setup} {wide : List Field}
    (widened : List.Forall₂ WidenedTo S.schema.fields wide) :
    ((∃ run : OkRun, run.setup = S) → ∃ wider : OkRun, wider.setup = S.selecting wide) ∧
      ∀ run wider : OkRun, run.setup = S → wider.setup = S.selecting wide → Widening run wider := by
  constructor
  · rw [exists_okRun_iff, exists_okRun_iff, Setup.allParsed_iff, Setup.allParsed_iff]
    intro all chunk chunk_mem line line_mem
    exact lineOk_widened rfl widened (all chunk chunk_mem line line_mem)
  · rintro run ⟨T, t, metrics, reached, returned⟩ rfl rfl
    have delivered := run.delivered
    have delivered' := reached.delivered returned
    constructor
    · refine ⟨run.setup.accepted.map fun obj =>
        (run.setup.row obj, (run.setup.selecting wide).row obj), ?_, ?_, ?_⟩
      · rw [List.map_map]
        exact delivered.rows.symm
      · rw [List.map_map]
        exact delivered'.rows.symm
      · intro pair mem
        rcases List.mem_map.mp mem with ⟨obj, accepted, rfl⟩
        have native := (run.writable accepted).2
        exact rowOf_widened widened (fun field mem => (native field mem).1) obj
    · exact delivered'.processed.trans delivered.processed.symm
    · exact delivered'.errored.trans delivered.errored.symm
    · intro path
      have letters :=
        OkRun.letters_perm ⟨run.setup.selecting wide, t, metrics, reached, returned⟩ path
      exact letters.trans (run.letters_perm path).symm

/-- Two columns of a run on two records and a malformed line are declared as floats and as
text. -/
theorem widening_loses_nothing_two_columns :
    ∃ (wide : List Field) (run wider : OkRun),
      wide.map Field.dataType = [.float64, .utf8] ∧
        run.rows = [[.int64 1, .boolean true], [.int64 7, .null]] ∧
        wider.setup = run.setup.selecting wide ∧ Widening run wider := by
  let S : Setup :=
    { Setup.sample { PipelineConfig.default with ignoreErrors := true }
        (ascii "\x7b\"a\":1,\"b\":true\x7d\nx\n\x7b\"a\":\"7\"\x7d") with
      json := .twoKeys
      schema := ⟨[⟨"a", .int64, true⟩, ⟨"b", .boolean, true⟩]⟩ }
  let schedule : List (Action S.plan) :=
    .writer none :: List.replicate 7 (.closure ⟨0, by decide⟩) ++
      List.replicate 6 (.closure ⟨1, by decide⟩) ++ List.replicate 7 (.closure ⟨2, by decide⟩) ++
      List.replicate 6 (.writer none) ++ List.replicate 3 .main
  have reached : Reached S.plan _ :=
    reachable_of_run (fun _ _ => trivial) (rfl : run (step S.plan) schedule (.initial _) = some _)
  obtain ⟨first, setup, rows⟩ : ∃ first : OkRun, first.setup = S ∧
      first.rows = [[.int64 1, .boolean true], [.int64 7, .null]] :=
    ⟨⟨S, _, _, reached, rfl⟩, rfl, rfl⟩
  have widened : List.Forall₂ WidenedTo S.schema.fields
      [⟨"a", .float64, true⟩, ⟨"b", .utf8, true⟩] :=
    .cons ⟨rfl, .numeric, fun _ => rfl⟩ (.cons ⟨rfl, .text (by decide), fun _ => rfl⟩ .nil)
  obtain ⟨exists_wider, widening⟩ := widening_loses_nothing widened
  obtain ⟨wider, same⟩ := exists_wider ⟨first, setup⟩
  exact ⟨_, first, wider, rfl, rows, setup ▸ same, widening first wider setup same⟩

end Parq.Pipeline
