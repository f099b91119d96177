import Parq.Parser.Quarantine
import Parq.Pipeline.Schedule
import Parq.Schema.Promotion

/-!
# Runs on well-formed inputs

When every non-blank line is a JSON object and inference sees them all, the inferred
columns refuse no value, and a run without I/O failures converts every line.  One kind of
input is left out: if no record has a member other than null the schema has no columns,
and no batch can be formed without one.
-/

namespace Parq.Pipeline

open Parq.Data
open Parq.Parser
open Parq.Schema
open Parq.Transition

/-- All non-blank lines are JSON objects, there is one, and the lines behind the first
10,000 are blank. -/
structure WellFormed (J : SerdeJson) (input : Bytes) : Prop where
  objects : ∀ text ∈ nonBlankLines input, ∃ members, J.fromSlice text = .ok (.object members)
  nonblank : nonBlankLines input ≠ []
  within : ∀ line ∈ (splitLines input).drop 10000, trimmed? line = none

/-- Without I/O failures `run_pipeline` always ends, with `Ok`, and has counted every
non-blank line as a row. -/
def ConvertsWhole (J : SerdeJson) (host : Host) (config : PipelineConfig) (input : Bytes) : Prop :=
  ∃ S, prepare J host config = .ok S ∧
    (∃ bound, ∀ actions s, run (step S.plan) actions (.initial S.plan) = some s →
      actions.length ≤ bound) ∧
    ∀ s, Reachable (step S.plan) Action.FaultFree (.initial S.plan) s →
      (Quiescent (step S.plan) Action.FaultFree s → ∃ result, s.main = .returned result) ∧
      ∀ result, s.main = .returned result → ∃ metrics, result = .ok metrics ∧
        metrics.rowsProcessed = (nonBlankLines input).length ∧ metrics.rowsErrored = 0

/-! ## The sample of a well-formed input -/

section Sample

variable {J : SerdeJson} {input : Bytes}

theorem filterMap_take_of_blank {β : Type} {select : Bytes → Option β} {lines : List Bytes}
    {n : Nat}
    (drops : ∀ line, trimmed? line = none → select line = none)
    (blank : ∀ line ∈ lines.drop n, trimmed? line = none) :
    (lines.take n).filterMap select = lines.filterMap select := by
  have behind : (lines.drop n).filterMap select = [] :=
    List.filterMap_eq_nil_iff.mpr fun line mem => drops line (blank line mem)
  conv_rhs => rw [← List.take_append_drop n lines, List.filterMap_append, behind, List.append_nil]

theorem WellFormed.sampleLines_eq (whole : WellFormed J input) :
    sampleLines input 10000 = (splitLines input).take 10000 := by
  have unmarked : stripBom input = input := by
    apply stripBom_eq_self (J := J)
    intro text mem
    obtain ⟨members, read⟩ := whole.objects text mem
    exact ⟨_, read⟩
  rw [sampleLines, unmarked]

/-- Inference sees all records of a well-formed input. -/
theorem WellFormed.recordsOf_sampleLines (whole : WellFormed J input) :
    recordsOf J false (sampleLines input 10000) = recordsOf J false (splitLines input) := by
  rw [whole.sampleLines_eq]
  apply filterMap_take_of_blank _ whole.within
  intro line blank
  simp [record?_eq, blank]

/-- Inference succeeds on a well-formed input. -/
theorem WellFormed.inferred (whole : WellFormed J input) :
    ∃ schema, inferSchema J input 10000 = .ok schema := by
  rw [inferSchema_isOk_iff, whole.sampleLines_eq]
  constructor
  · rintro line mem ⟨text, e, nonblank, refused⟩
    have present : text ∈ nonBlankLines input :=
      List.mem_filterMap.mpr ⟨line, List.mem_of_mem_take mem, nonblank⟩
    obtain ⟨members, read⟩ := whole.objects text present
    rw [refused] at read
    cases read
  · rw [filterMap_take_of_blank (fun _ blank => blank) whole.within]
    exact whole.nonblank

/-- No line of a well-formed input is rejected. -/
theorem WellFormed.rejected?_eq_none (whole : WellFormed J input) {line : Bytes}
    (mem : line ∈ splitLines input) : rejected? J line = none := by
  cases nonblank : trimmed? line with
  | none => simp [rejected?, classify, nonblank]
  | some text =>
      obtain ⟨members, read⟩ := whole.objects text (List.mem_filterMap.mpr ⟨line, mem, nonblank⟩)
      simp [rejected?, classify, nonblank, read]

theorem WellFormed.rejectedOf_eq_nil (whole : WellFormed J input) :
    rejectedOf J (splitLines input) = [] :=
  List.filterMap_eq_nil_iff.mpr fun _ mem => whole.rejected?_eq_none mem

/-- Every non-blank line of a well-formed input is a record. -/
theorem WellFormed.length_recordsOf (whole : WellFormed J input) (flattenJson : Bool) :
    (recordsOf J flattenJson (splitLines input)).length = (nonBlankLines input).length := by
  have counts := length_recordsOf_add_rejectedOf J flattenJson (splitLines input)
  rwa [whole.rejectedOf_eq_nil] at counts

/-- The schema inferred from a well-formed input has a column exactly when some record has
a member other than null. -/
theorem WellFormed.declared_iff (whole : WellFormed J input) {schema : Schema}
    (determines : Determines J (sampleLines input 10000) schema) :
    schema.fields ≠ [] ↔
      ∃ record ∈ recordsOf J false (splitLines input), ∃ key value,
        Map.get record key = some value ∧ value ≠ .null := by
  rw [← whole.recordsOf_sampleLines]
  constructor
  · intro declared
    obtain ⟨field, field_mem⟩ := List.exists_mem_of_ne_nil _ declared
    obtain ⟨record, mem, value, found, valued⟩ :=
      (determines.named_iff field.name).mp (List.mem_map_of_mem field_mem)
    exact ⟨record, mem, field.name, value, found, valued⟩
  · rintro ⟨record, mem, key, value, found, valued⟩ empty
    have named := (determines.named_iff key).mpr ⟨record, mem, value, found, valued⟩
    rw [empty] at named
    cases named

/-- A call without flattening accepts every line of a well-formed input, if the
inferred schema has a column. -/
theorem WellFormed.lineOk (whole : WellFormed J input) {o : ParseOptions}
    (determines : Determines J (sampleLines input 10000) o.schema) (flat : o.flattenJson = false)
    (declared : o.schema.fields ≠ []) {line : Bytes} (mem : line ∈ splitLines input) :
    LineOk J o line := by
  constructor
  · have not_rejected := whole.rejected?_eq_none mem
    unfold lineError
    split
    · rfl
    · rw [flat]
      unfold rejected? at not_rejected
      cases read : classify J false line with
      | blank => rfl
      | rejected text source => simp [read] at not_rejected
      | record obj =>
          have present : obj ∈ recordsOf J false (sampleLines input 10000) := by
            rw [whole.recordsOf_sampleLines]
            exact List.mem_filterMap.mpr ⟨line, mem, by simp [record?, read]⟩
          simp [determines.firstMismatch_eq_none present]
  · intro record _
    exact writable_of_native J declared (fun field mem => (determines.native mem).1)
      (fun field mem => (determines.native mem).2) record

end Sample

/-! ## Converting the whole input -/

section Converting

variable {S : Setup} {host : Host} {config : PipelineConfig} {input : Bytes}

/-- The calls on a well-formed input all succeed when the inferred schema has a column, and
only then. -/
theorem WellFormed.allParsed_iff (whole : WellFormed S.json S.input)
    (determines : Determines S.json (sampleLines S.input 10000) S.schema)
    (flat : S.config.flatten = false) (unlimited : S.config.limit = none) :
    S.plan.AllParsed ↔ S.schema.fields ≠ [] := by
  rw [S.allParsed_iff_lines unlimited]
  constructor
  · intro lineOk
    have some_record : recordsOf S.json false (splitLines S.input) ≠ [] := by
      rw [← List.length_pos_iff, whole.length_recordsOf]
      exact List.length_pos_iff.mpr whole.nonblank
    obtain ⟨first, first_mem⟩ := List.exists_mem_of_ne_nil _ some_record
    rcases List.mem_filterMap.mp first_mem with ⟨line, line_mem, read⟩
    exact ((lineOk line line_mem).2 first (by rwa [← flat] at read)).1
  · intro declared line line_mem
    exact whole.lineOk (o := S.options) determines flat declared line_mem

/-- A run that converts the whole input has parsed every chunk. -/
theorem ConvertsWhole.allParsed {J : SerdeJson} (converts : ConvertsWhole J host config input)
    (prepared : prepare J host config = .ok S) : S.plan.AllParsed := by
  rcases converts with ⟨S', prepared', _, ends⟩
  obtain rfl : S = S' := Except.ok.inj (prepared.symm.trans prepared')
  obtain ⟨s, result, reached, returned⟩ := exists_returned_faultFree S.plan
  obtain ⟨metrics, rfl, _⟩ := (ends s reached).2 result returned
  exact (Reached.completed (reached.mono fun _ _ => trivial) returned).parsed

/-- When every chunk is parsed, all non-blank lines of a well-formed input are counted as
rows. -/
theorem WellFormed.convertsWhole (whole : WellFormed S.json S.input)
    (unlimited : S.config.limit = none) (prepared : prepare S.json host S.config = .ok S)
    (all : S.plan.AllParsed) : ConvertsWhole S.json host S.config S.input := by
  refine ⟨S, prepared, ⟨(State.initial S.plan).work, ?_⟩, ?_⟩
  · intro actions s ran
    have bounded := length_run_le (work_decreasing S.plan) ran
    omega
  · intro s reached
    constructor
    · exact fun quiet => (settled_of_quiescent quiet).main
    · intro result returned
      obtain ⟨metrics, rfl⟩ := ok_of_faultFree all reached returned
      have delivered := Reached.delivered (reached.mono fun _ _ => trivial) returned
      refine ⟨metrics, rfl, ?_, ?_⟩
      · rw [delivered.processed, S.accepted_eq unlimited, Setup.records, whole.length_recordsOf]
      · rw [delivered.errored, S.refused_eq unlimited, Setup.rejected, whole.rejectedOf_eq_nil]
        rfl

end Converting

/-- A run with an inferred schema, strict or lenient, converts a well-formed input exactly
when some record has a member other than null. -/
theorem convertsWhole_iff (J : SerdeJson) (host : Host) (config : PipelineConfig) (input : Bytes)
    (inferred : config.schemaPath = none) (flat : config.flatten = false)
    (unlimited : config.limit = none)
    (opened : host.openInput config.inputPath = .ok input) (whole : WellFormed J input) :
    ConvertsWhole J host config input ↔
      ∃ record ∈ recordsOf J false (splitLines input), ∃ key value,
        Map.get record key = some value ∧ value ≠ .null := by
  obtain ⟨S, prepared⟩ := (prepare_isOk_iff inferred opened).mpr whole.inferred
  obtain ⟨rfl, rfl, opened_input, schema⟩ := prepare_eq_ok inferred prepared
  obtain rfl : input = S.input := Except.ok.inj (opened.symm.trans opened_input)
  have determines := determines_of_inferSchema schema
  rw [← whole.declared_iff determines, ← whole.allParsed_iff determines flat unlimited]
  constructor
  · exact fun converts => converts.allParsed prepared
  · exact whole.convertsWhole unlimited prepared

/-- Two chunks with a blank line between them, a Boolean before a number. -/
theorem convertsWhole_promoted :
    let input := ascii "\x7b\"a\":true\x7d\n\n\x7b\"a\":1\x7d"
    ConvertsWhole .sample (.sample input) { PipelineConfig.default with chunkSize := some 1 }
      input := by
  intro input
  have lines : nonBlankLines input =
      [ascii "\x7b\"a\":true\x7d", ascii "\x7b\"a\":1\x7d"] := by
    decide
  have whole : WellFormed .sample input := by
    refine ⟨?_, by decide, by decide⟩
    rw [lines]
    rintro text (_ | ⟨_, _ | ⟨_, ⟨⟩⟩⟩) <;> exact ⟨_, rfl⟩
  apply (convertsWhole_iff _ _ _ _ rfl rfl rfl rfl whole).mpr
  exact ⟨[("a", .bool true)], List.mem_cons_self, "a", _, rfl, by simp⟩

/-- The input of one empty object is not converted: its schema has no column, and the
flush of its one row fails. -/
theorem empty_object_not_converted :
    ∃ (J : SerdeJson) (host : Host) (config : PipelineConfig) (input : Bytes) (S : Setup),
      config.ignoreErrors = false ∧ config.schemaPath = none ∧ config.flatten = false ∧
        config.limit = none ∧ host.openInput config.inputPath = .ok input ∧ WellFormed J input ∧
        prepare J host config = .ok S ∧
        (∃ i, (S.plan.outcome i).result = .error (.arrow .noColumns)) ∧
        ¬ ConvertsWhole J host config input := by
  let input := ascii "\x7b\x7d"
  let J : SerdeJson :=
    .ofTable [(input, .object [])] [] ⟨"expected value at line 1 column 1"⟩ (fun _ => "")
      (fun _ => "") (by decide)
  have whole : WellFormed J input :=
    ⟨fun text mem => List.mem_singleton.mp mem ▸ ⟨_, rfl⟩, by decide, by decide⟩
  refine ⟨J, .sample input, .default, input, _, rfl, rfl, rfl, rfl, rfl, whole, rfl,
    ⟨⟨0, by decide⟩, rfl⟩, ?_⟩
  intro converts
  cases converts.allParsed rfl ⟨0, by decide⟩

end Parq.Pipeline
