import Parq.Flatten.Flat
import Parq.Pipeline.Shards

/-!
# What the settings do to a run

Strict mode converts what lenient mode converts without rejecting a line or dropping a
value, and nothing else.  A tighter limit leaves the first rows of each chunk.  Flattening
while converting is converting what was flattened before.
-/

namespace Parq.Pipeline

open Parq.Chunk
open Parq.Data
open Parq.Flatten
open Parq.Parser
open Parq.Sequence
open Parq.Transition

/-! ## Strict and lenient mode -/

/-- The same run with this value of `ignore_errors`. -/
def Setup.inMode (S : Setup) (ignoreErrors : Bool) : Setup :=
  { S with config := { S.config with ignoreErrors := ignoreErrors } }

/-- A line is acceptable in strict mode when it is so in lenient mode, is not rejected and
has no value that a Boolean column refuses. -/
theorem lineOk_strict_iff {J : SerdeJson} {o : ParseOptions} {line : Bytes} :
    LineOk J { o with ignoreErrors := false } line ↔
      LineOk J { o with ignoreErrors := true } line ∧ rejected? J line = none ∧
        ∀ obj, record? J o.flattenJson line = some obj → firstMismatch o.schema obj = none := by
  rw [rejected?_eq J o.flattenJson, LineOk, LineOk, lineError, lineError, record?]
  dsimp only
  rw [if_pos rfl, if_neg Bool.false_ne_true]
  cases classify J o.flattenJson line with
  | blank => simp
  | rejected text source => simp
  | record obj => simp [Option.map_eq_none_iff, and_comm]

theorem Setup.allParsed_strict_iff (S : Setup) :
    (S.inMode false).plan.AllParsed ↔
      (S.inMode true).plan.AllParsed ∧ S.refused = [] ∧
        ∀ obj ∈ S.accepted, firstMismatch S.schema obj = none := by
  rw [Setup.allParsed_iff, Setup.allParsed_iff]
  constructor
  · intro each
    have ok := fun chunk mem line line_mem =>
      lineOk_strict_iff (o := S.options).mp (each chunk mem line line_mem)
    refine ⟨fun chunk mem line line_mem => (ok chunk mem line line_mem).1, ?_, ?_⟩
    · rw [Setup.refused, List.flatMap_eq_nil_iff]
      intro chunk mem
      rw [rejectedOf, List.filterMap_eq_nil_iff]
      exact fun line line_mem => (ok chunk mem line line_mem).2.1
    · intro obj accepted
      rcases List.mem_flatMap.mp accepted with ⟨chunk, mem, recorded⟩
      rcases List.mem_filterMap.mp recorded with ⟨line, line_mem, read⟩
      exact (ok chunk mem line line_mem).2.2 obj read
  · rintro ⟨each, clean, matched⟩ chunk mem line line_mem
    apply lineOk_strict_iff (o := S.options).mpr
    refine ⟨each chunk mem line line_mem, ?_, ?_⟩
    · rw [Setup.refused, List.flatMap_eq_nil_iff] at clean
      exact List.filterMap_eq_nil_iff.mp (clean chunk mem) line line_mem
    · intro obj read
      apply matched obj
      exact List.mem_flatMap.mpr ⟨chunk, mem, List.mem_filterMap.mpr ⟨line, line_mem, read⟩⟩

/-- Strict mode is lenient mode with a check: some strict run returns `Ok` exactly when some
lenient run does that has rejected no line, and no accepted record has a value that a Boolean
column refuses; and then all runs in both modes convert the same and reject nothing. -/
theorem strict_iff_clean (S : Setup) :
    ((∃ strict : OkRun, strict.setup = S.inMode false) ↔
      (∃ lenient : OkRun, lenient.setup = S.inMode true ∧ lenient.metrics.rowsErrored = 0) ∧
        ∀ obj ∈ S.accepted, firstMismatch S.schema obj = none) ∧
      ∀ strict lenient : OkRun, strict.setup = S.inMode false → lenient.setup = S.inMode true →
        SameConversion strict lenient ∧ lenient.metrics.rowsErrored = 0 ∧ lenient.letters = [] := by
  constructor
  · rw [exists_okRun_iff, S.allParsed_strict_iff, ← exists_okRun_iff]
    constructor
    · rintro ⟨⟨lenient, same⟩, clean, matched⟩
      refine ⟨⟨lenient, same, ?_⟩, matched⟩
      rw [lenient.delivered.errored, same]
      exact congrArg List.length clean
    · rintro ⟨⟨lenient, same, errored⟩, matched⟩
      refine ⟨⟨lenient, same⟩, ?_, matched⟩
      rw [lenient.delivered.errored, same] at errored
      exact List.eq_nil_of_length_eq_zero errored
  · rintro ⟨T, s, metrics, reached, returned⟩ ⟨U, t, metrics', reached', returned'⟩ rfl rfl
    let strict : OkRun := ⟨S.inMode false, s, metrics, reached, returned⟩
    let lenient : OkRun := ⟨S.inMode true, t, metrics', reached', returned'⟩
    have clean : S.refused = [] := (S.allParsed_strict_iff.mp strict.completed.parsed).2.1
    have letters : ∀ run : OkRun, run.setup.refused = [] → run.letters = [] := by
      intro run none_refused
      cases kept : run.setup.config.deadLetterPath.isSome with
      | true =>
          have perm := run.letters_perm kept
          rw [none_refused] at perm
          exact perm.eq_nil
      | false => exact run.letters_eq_nil kept
    have none_errored : lenient.metrics.rowsErrored = 0 := by
      rw [lenient.delivered.errored]
      exact congrArg List.length clean
    refine ⟨?_, none_errored, letters lenient clean⟩
    constructor
    · exact lenient.delivered.rows.trans strict.delivered.rows.symm
    · exact lenient.delivered.processed.trans strict.delivered.processed.symm
    · exact lenient.delivered.errored.trans strict.delivered.errored.symm
    · rw [lenient.completed.metrics, strict.completed.metrics]
      rfl
    · rw [letters strict clean, letters lenient clean]

/-! ## Limits -/

/-- A call with the limit `fewer` stops wherever one with `more` does. -/
def Tighter (fewer more : Option Nat) : Prop :=
  ∀ accepted, limitReached more accepted = true → limitReached fewer accepted = true

example (fewer : Option Nat) : Tighter fewer none := fun _ reached => (by cases reached)

theorem tighter_of_le {fewer more : Nat} (le : fewer ≤ more) :
    Tighter (some fewer) (some more) := by
  intro accepted reached
  rw [limitReached, decide_eq_true_eq] at reached ⊢
  exact le.trans reached

/-- The same run with this limit. -/
def Setup.limited (S : Setup) (limit : Option Nat) : Setup :=
  { S with config := { S.config with limit := limit } }

section Limits

variable {J : SerdeJson} {flattenJson : Bool} {fewer more : Option Nat}
  (tighter : Tighter fewer more)

include tighter

theorem considered_prefix_of_tighter (accepted : Nat) (lines : List Bytes) :
    considered J flattenJson fewer accepted lines <+:
      considered J flattenJson more accepted lines := by
  induction lines generalizing accepted with
  | nil => exact List.prefix_refl _
  | cons line lines ih =>
      rw [considered, considered]
      by_cases reached : limitReached fewer accepted = true
      · rw [if_pos reached]
        exact List.nil_prefix
      · rw [if_neg reached, if_neg fun late => reached (tighter accepted late)]
        exact (List.prefix_cons_inj line).mpr (ih _)

theorem Setup.taken_prefix (S : Setup) (chunk : Bytes) :
    (S.limited fewer).taken chunk <+: (S.limited more).taken chunk :=
  considered_prefix_of_tighter tighter 0 (splitLines chunk)

theorem Setup.allParsed_of_tighter {S : Setup} (all : (S.limited more).plan.AllParsed) :
    (S.limited fewer).plan.AllParsed := by
  rw [Setup.allParsed_iff] at all ⊢
  intro chunk mem line line_mem
  exact all chunk mem line ((S.taken_prefix tighter chunk).subset line_mem)

end Limits

/-- The rows of a chunk in the file of a completed run. -/
theorem Completed.rows_of_chunk {S : Setup} {s : State S.plan} {metrics : ProcessingMetrics}
    (completed : Completed s metrics) (i : Fin S.plan.jobs) :
    (ofSource i s.written).flatMap RecordBatch.rows =
      (recordsOf S.json S.config.flatten (S.taken (S.chunks.get i))).map S.row := by
  rw [completed.written i]
  exact (Setup.delivers_of_allParsed completed.parsed i).1.rows

/-- A tighter limit never makes a conversion fail, and it leaves the first rows: in all runs
that return `Ok`, the file has of each chunk the first of the rows that it has with
the wider limit, and no more rows, dead-letter lines and counts in all. -/
theorem limit_monotone {S : Setup} {fewer more : Option Nat} (tighter : Tighter fewer more) :
    ((∃ run : OkRun, run.setup = S.limited more) → ∃ run : OkRun, run.setup = S.limited fewer) ∧
      ∀ (s : State (S.limited fewer).plan) (t : State (S.limited more).plan)
        (less full : ProcessingMetrics),
        Reached _ s → s.main = .returned (.ok less) → Reached _ t → t.main = .returned (.ok full) →
          (∀ (i : Fin (S.limited fewer).plan.jobs) (j : Fin (S.limited more).plan.jobs),
            i.val = j.val → (ofSource i s.written).flatMap RecordBatch.rows <+:
              (ofSource j t.written).flatMap RecordBatch.rows) ∧
          s.rowsWritten.Subperm t.rowsWritten ∧ s.linesQuarantined.Subperm t.linesQuarantined ∧
          less.rowsProcessed ≤ full.rowsProcessed ∧ less.rowsErrored ≤ full.rowsErrored := by
  constructor
  · rw [exists_okRun_iff, exists_okRun_iff]
    exact Setup.allParsed_of_tighter tighter
  · intro s t less full reached returned reached' returned'
    let part : OkRun := ⟨S.limited fewer, s, less, reached, returned⟩
    let whole : OkRun := ⟨S.limited more, t, full, reached', returned'⟩
    have records : ∀ chunk, recordsOf S.json S.config.flatten ((S.limited fewer).taken chunk) <+:
        recordsOf S.json S.config.flatten ((S.limited more).taken chunk) :=
      fun chunk => (S.taken_prefix tighter chunk).filterMap _
    have accepted : (S.limited fewer).accepted.Sublist (S.limited more).accepted :=
      List.Sublist.flatMap_right _ fun chunk _ => (records chunk).sublist
    have refused : (S.limited fewer).refused.Sublist (S.limited more).refused :=
      List.Sublist.flatMap_right _ fun chunk _ =>
        ((S.taken_prefix tighter chunk).filterMap _).sublist
    refine ⟨?_, ?_, ?_, ?_, ?_⟩
    · rintro ⟨k, inside⟩ ⟨_, inside'⟩ rfl
      have first := part.completed.rows_of_chunk ⟨k, inside⟩
      have all := whole.completed.rows_of_chunk ⟨k, inside'⟩
      rw [first, all]
      exact (records _).map _
    · exact (part.delivered.rows.subperm.trans (accepted.map S.row).subperm).trans
        whole.delivered.rows.symm.subperm
    · cases kept : S.config.deadLetterPath.isSome with
      | true =>
          exact ((part.letters_perm kept).subperm.trans refused.subperm).trans
            (whole.letters_perm kept).symm.subperm
      | false =>
          rw [show s.linesQuarantined = [] from part.letters_eq_nil kept]
          exact List.nil_subperm
    · rw [part.delivered.processed, whole.delivered.processed]
      exact accepted.length_le
    · rw [part.delivered.errored, whole.delivered.errored]
      exact refused.length_le

/-- Of the two rows that the limit `2` leaves of a chunk, the limit `1` leaves the first. -/
theorem limit_monotone_two_records :
    ∃ (S : Setup) (s : State (S.limited (some 1)).plan) (t : State (S.limited (some 2)).plan)
        (i : Fin (S.limited (some 1)).plan.jobs) (j : Fin (S.limited (some 2)).plan.jobs),
      Reached _ s ∧ Reached _ t ∧ s.rowsWritten = [[.int64 1]] ∧
        t.rowsWritten = [[.int64 1], [.null]] ∧
        (ofSource i s.written).flatMap RecordBatch.rows <+:
          (ofSource j t.written).flatMap RecordBatch.rows ∧
        s.rowsWritten.Subperm t.rowsWritten := by
  let input := ascii "\x7b\"a\":1\x7d\n\x7b\"a\":true\x7d"
  let S : Setup :=
    { Setup.sample .default input with
      chunks := fixedChunks input none
      flatten_chunks := flatten_fixedChunks input none
      delimited := delimited_fixedChunks input none }
  have inside (limit : Option Nat) : 0 < (S.limited limit).plan.jobs := by
    change 0 < (fixedChunks input none).length
    decide
  let schedule (limit : Option Nat) : List (Action (S.limited limit).plan) :=
    .writer none :: List.replicate 7 (.closure ⟨0, inside limit⟩) ++
      List.replicate 4 (.writer none) ++ List.replicate 3 .main
  have reached : Reached (S.limited (some 1)).plan _ := reachable_of_run (fun _ _ => trivial)
    (rfl : run (step (S.limited (some 1)).plan) (schedule (some 1)) (.initial _) = some _)
  have reached' : Reached (S.limited (some 2)).plan _ := reachable_of_run (fun _ _ => trivial)
    (rfl : run (step (S.limited (some 2)).plan) (schedule (some 2)) (.initial _) = some _)
  have tighter : Tighter (some 1) (some 2) := tighter_of_le (by decide)
  obtain ⟨first, rows, _⟩ := (limit_monotone (S := S) tighter).2 _ _ _ _ reached rfl reached' rfl
  exact ⟨S, _, _, ⟨0, inside _⟩, ⟨0, inside _⟩, reached, reached', rfl, rfl, first _ _ rfl, rows⟩

/-! ## Flattening beforehand -/

/-- The text of a line with its object flattened, when `print` writes objects. -/
def flattenedText (J : SerdeJson) (print : Map → Bytes) (text : Bytes) : Bytes :=
  match J.object? text with
  | some obj => print (flattenObject J obj "_")
  | none => text

/-- The input of `T` is that of `S` with every object flattened, in any order of the lines,
and each flattened text is read back as the object it was written from.  `T` has the
schema and the error mode of `S`, neither has a limit, and `T` need not flatten. -/
structure FlattenedInput (S T : Setup) (print : Map → Bytes) : Prop where
  json : T.json = S.json
  schema : T.schema = S.schema
  mode : T.config.ignoreErrors = S.config.ignoreErrors
  flattens : S.config.flatten = true
  unlimited : S.config.limit = none ∧ T.config.limit = none
  lines : (nonBlankLines T.input).Perm
    ((nonBlankLines S.input).map (flattenedText S.json print))
  reads : ∀ text ∈ nonBlankLines S.input, ∀ obj, S.json.object? text = some obj →
    S.json.fromSlice (print (flattenObject S.json obj "_")) =
      .ok (.object (flattenObject S.json obj "_"))

section FlattenedInput

variable {S T : Setup} {print : Map → Bytes} (flattened : FlattenedInput S T print)

include flattened

/-- A text reads with flattening as its flattened text does without, and is rejected as
before otherwise. -/
theorem FlattenedInput.classify_eq {text : Bytes} (mem : text ∈ nonBlankLines S.input)
    (flattenJson : Bool) :
    classify S.json flattenJson (flattenedText S.json print text) =
      classify S.json true text := by
  have trimmed : trimmed? text = some text := by
    rcases List.mem_filterMap.mp mem with ⟨line, _, trimmed⟩
    exact trimmed?_text trimmed
  cases read : S.json.object? text with
  | some obj =>
      have own := (S.json.object?_eq_some_iff text obj).mp read
      have text_eq : flattenedText S.json print text =
          print (flattenObject S.json obj "_") := by
        rw [flattenedText, read]
      have listed : print (flattenObject S.json obj "_") ∈ nonBlankLines T.input := by
        rw [← text_eq]
        exact flattened.lines.mem_iff.mpr (List.mem_map_of_mem mem)
      have trimmed' : trimmed? (print (flattenObject S.json obj "_")) =
          some (print (flattenObject S.json obj "_")) := by
        rcases List.mem_filterMap.mp listed with ⟨line, _, trimmed⟩
        exact trimmed?_text trimmed
      have again : dispatched S.json flattenJson (flattenObject S.json obj "_") =
          flattenObject S.json obj "_" := by
        unfold dispatched
        split
        · exact flattenObject_eq_self (sorted_flattenObject S.json "_" obj)
            (allScalar_flattenObject obj)
        · rfl
      rw [text_eq, classify, classify, trimmed, trimmed']
      simp only [flattened.reads text mem obj read, own, again]
      rfl
  | none =>
      have same : flattenedText S.json print text = text := by
        rw [flattenedText, read]
      rw [same, classify, classify, trimmed]
      dsimp only
      cases parsed : S.json.fromSlice text with
      | error e => rfl
      | ok value =>
          cases value with
          | object members =>
              rw [(S.json.object?_eq_some_iff text members).mpr parsed] at read
              cases read
          | _ => rfl

theorem FlattenedInput.records_perm : T.records.Perm S.records := by
  rw [(Setup.ReadsAlike.refl flattened.unlimited.2).records,
    (Setup.ReadsAlike.refl flattened.unlimited.1).records, flattened.json, flattened.flattens]
  refine (flattened.lines.filterMap _).trans ?_
  rw [List.filterMap_map]
  apply List.Perm.of_eq
  apply List.filterMap_congr
  intro text mem
  rw [Function.comp_apply, record?, record?, flattened.classify_eq mem]

theorem FlattenedInput.rejected_perm : T.rejected.Perm S.rejected := by
  rw [(Setup.ReadsAlike.refl flattened.unlimited.2).rejected,
    (Setup.ReadsAlike.refl flattened.unlimited.1).rejected, flattened.json]
  refine (flattened.lines.filterMap _).trans ?_
  rw [List.filterMap_map]
  apply List.Perm.of_eq
  apply List.filterMap_congr
  intro text mem
  rw [Function.comp_apply, rejected?, flattened.classify_eq mem, rejected?_eq S.json true]

theorem FlattenedInput.allParsed_iff : T.plan.AllParsed ↔ S.plan.AllParsed := by
  rw [(Setup.ReadsAlike.refl flattened.unlimited.2).allParsed_iff,
    (Setup.ReadsAlike.refl flattened.unlimited.1).allParsed_iff]
  simp only [flattened.lines.mem_iff, List.forall_mem_map]
  apply forall_congr'
  intro text
  apply imp_congr_right
  intro mem
  have same := flattened.classify_eq mem T.config.flatten
  simp only [LineOk, lineError, record?, Setup.options, flattened.json, flattened.schema,
    flattened.mode, flattened.flattens, same]

end FlattenedInput

/-- Flattening while converting is converting what was flattened before, under the same
schema, in the same mode and without a limit: some run returns `Ok` on the flattened input
exactly when some run does on the input, and all such runs have converted the same. -/
theorem flattening_beforehand {S T : Setup} {print : Map → Bytes}
    (flattened : FlattenedInput S T print) :
    ((∃ before : OkRun, before.setup = T) ↔ ∃ run : OkRun, run.setup = S) ∧
      ∀ run before : OkRun, run.setup = S → before.setup = T →
        before.rows.Perm run.rows ∧
          before.metrics.rowsProcessed = run.metrics.rowsProcessed ∧
          before.metrics.rowsErrored = run.metrics.rowsErrored ∧
          (S.config.deadLetterPath.isSome = T.config.deadLetterPath.isSome →
            before.letters.Perm run.letters) := by
  constructor
  · rw [exists_okRun_iff, exists_okRun_iff]
    exact flattened.allParsed_iff
  · rintro run before rfl rfl
    have row : before.setup.row = run.setup.row := by
      funext obj
      rw [Setup.row, Setup.row, flattened.json, flattened.schema]
    refine ⟨?_, ?_, ?_, ?_⟩
    · have rows := before.rows_perm flattened.unlimited.2
      rw [row] at rows
      exact (rows.trans (flattened.records_perm.map _)).trans
        (run.rows_perm flattened.unlimited.1).symm
    · rw [before.processed_eq flattened.unlimited.2, run.processed_eq flattened.unlimited.1]
      exact flattened.records_perm.length_eq
    · rw [before.errored_eq flattened.unlimited.2, run.errored_eq flattened.unlimited.1]
      exact flattened.rejected_perm.length_eq
    · intro same
      cases kept : run.setup.config.deadLetterPath.isSome with
      | true =>
          have letters := run.letters_perm kept
          have letters' := before.letters_perm (same.symm.trans kept)
          rw [run.setup.refused_eq flattened.unlimited.1] at letters
          rw [before.setup.refused_eq flattened.unlimited.2] at letters'
          exact (letters'.trans flattened.rejected_perm).trans letters.symm
      | false =>
          rw [run.letters_eq_nil kept, before.letters_eq_nil (same.symm.trans kept)]

/-- A nested record, one that is flat and a malformed line, and the same after flattening and
in another order. -/
theorem flattening_beforehand_three_lines :
    ∃ run before : OkRun, run.setup.config.flatten = true ∧
      before.setup.config.flatten = false ∧ run.metrics.rowsErrored = 1 ∧
      run.rows = [[.int64 1, .boolean true], [.int64 2, .null]] ∧
      before.rows.Perm run.rows := by
  let ofInput (flatten : Bool) (input : Bytes) : Setup :=
    { Setup.sample { PipelineConfig.default with flatten, ignoreErrors := true } input with
      json := .nestedAndJoined
      schema := ⟨[⟨"a_b", .int64, true⟩, ⟨"a_c", .boolean, true⟩]⟩ }
  let S := ofInput true
    (ascii "\x7b\"a\":\x7b\"b\":1,\"c\":true\x7d\x7d\nx\n\x7b\"a_b\":2\x7d")
  let T := ofInput false (ascii "x\n\x7b\"a_b\":2\x7d\n\x7b\"a_b\":1,\"a_c\":true\x7d")
  let print (written : Map) : Bytes :=
    if (written.get "a_c").isSome then ascii "\x7b\"a_b\":1,\"a_c\":true\x7d"
    else ascii "\x7b\"a_b\":2\x7d"
  have texts : nonBlankLines S.input =
      [ascii "\x7b\"a\":\x7b\"b\":1,\"c\":true\x7d\x7d", ascii "x", ascii "\x7b\"a_b\":2\x7d"] := by
    decide
  have flattened : FlattenedInput S T print := by
    constructor
    case json | schema | mode | flattens => rfl
    case unlimited => exact ⟨rfl, rfl⟩
    case lines => decide
    case reads =>
      rw [texts]
      rintro text (_ | ⟨_, _ | ⟨_, _ | ⟨_, ⟨⟩⟩⟩⟩) obj read <;> cases read <;> rfl
  let schedule : List (Action S.plan) :=
    .writer none :: List.replicate 7 (.closure ⟨0, by decide⟩) ++
      List.replicate 6 (.closure ⟨1, by decide⟩) ++ List.replicate 7 (.closure ⟨2, by decide⟩) ++
      List.replicate 6 (.writer none) ++ List.replicate 3 .main
  have reached : Reached S.plan _ :=
    reachable_of_run (fun _ _ => trivial) (rfl : run (step S.plan) schedule (.initial _) = some _)
  obtain ⟨run, setup, rows, errored⟩ : ∃ run : OkRun, run.setup = S ∧
      run.rows = [[.int64 1, .boolean true], [.int64 2, .null]] ∧
      run.metrics.rowsErrored = 1 :=
    ⟨⟨S, _, _, reached, rfl⟩, rfl, rfl, rfl⟩
  obtain ⟨before, same⟩ := (flattening_beforehand flattened).1.mpr ⟨run, setup⟩
  have perm := ((flattening_beforehand flattened).2 run before setup same).1
  refine ⟨run, before, ?_, ?_, errored, rows, perm⟩
  · rw [setup]
    rfl
  · rw [same]
    rfl

end Parq.Pipeline
