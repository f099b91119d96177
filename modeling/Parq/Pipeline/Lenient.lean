import Parq.Pipeline.Schedule
import Parq.Parser.Quarantine
import Parq.Schema.Inference

/-!
# Lenient runs on inferred schemas

With `ignore_errors` the parser passes over every malformed line, but the inference
of the schema is not told so: it refuses a sample with a line that is not JSON.  On
every other input a run without I/O failures ends with `Ok` and has counted the bad
lines.
-/

namespace Parq.Pipeline

open Parq.Data
open Parq.Parser
open Parq.Schema
open Parq.Transition

/-! ## Surviving bad lines -/

variable {J : SerdeJson} {host : Host} {config : PipelineConfig} {input : Bytes}

/-- Without I/O failures `run_pipeline` always ends, with `Ok`, and has counted what
it wrote and what it skipped. -/
def SurvivesBadLines (J : SerdeJson) (host : Host) (config : PipelineConfig) (input : Bytes) :
    Prop :=
  ∃ S, prepare J host config = .ok S ∧
    (∃ bound, ∀ actions s, run (step S.plan) actions (.initial S.plan) = some s →
      actions.length ≤ bound) ∧
    ∀ s, Reachable (step S.plan) Action.FaultFree (.initial S.plan) s →
      (Quiescent (step S.plan) Action.FaultFree s → ∃ result, s.main = .returned result) ∧
      ∀ result, s.main = .returned result → ∃ metrics, result = .ok metrics ∧
        (config.limit = none →
          metrics.rowsProcessed = (recordsOf J config.flatten (splitLines input)).length ∧
          metrics.rowsErrored = (rejectedOf J (splitLines input)).length)

/-- A sampled record with a non-null member. -/
def SampleHasValue (J : SerdeJson) (input : Bytes) : Prop :=
  ∃ line ∈ sampleLines input 10000, ∃ obj, record? J false line = some obj ∧
    ∃ key value, Map.get obj key = some value ∧ value ≠ .null

theorem exists_nonblank (sampled : SampleHasValue J input) :
    (sampleLines input 10000).filterMap trimmed? ≠ [] := by
  rcases sampled with ⟨line, mem, obj, read, _⟩
  obtain ⟨text, nonblank, _⟩ := (record?_false_eq_some_iff J line obj).mp read
  exact List.ne_nil_of_mem (List.mem_filterMap.mpr ⟨line, mem, nonblank⟩)

theorem declared_of_sampled {schema : Schema} (sampled : SampleHasValue J input)
    (determines : Determines J (sampleLines input 10000) schema) : schema.fields ≠ [] := by
  rcases sampled with ⟨line, mem, obj, read, key, value, found, valued⟩
  have present : obj ∈ recordsOf J false (sampleLines input 10000) :=
    List.mem_filterMap.mpr ⟨line, mem, read⟩
  have named := (determines.named_iff key).mpr ⟨obj, present, value, found, valued⟩
  intro empty
  rw [empty] at named
  cases named

/-- A lenient run with an inferred schema survives all bad lines exactly when every
sampled line is blank or JSON. -/
theorem survivesBadLines_iff (J : SerdeJson) (host : Host) (config : PipelineConfig)
    (input : Bytes) (lenient : config.ignoreErrors = true) (inferred : config.schemaPath = none)
    (opened : host.openInput config.inputPath = .ok input) (sampled : SampleHasValue J input) :
    SurvivesBadLines J host config input ↔
      ∀ line ∈ sampleLines input 10000, ¬ Unreadable J line := by
  constructor
  · rintro ⟨S, prepared, _⟩
    exact (inferSchema_isOk_iff.mp ((prepare_isOk_iff inferred opened).mp ⟨S, prepared⟩)).1
  · intro readable
    obtain ⟨S, prepared⟩ := (prepare_isOk_iff inferred opened).mpr
      (inferSchema_isOk_iff.mpr ⟨readable, exists_nonblank sampled⟩)
    refine ⟨S, prepared, ?_, ?_⟩
    · refine ⟨(State.initial S.plan).work, ?_⟩
      intro actions s ran
      have bounded := length_run_le (work_decreasing S.plan) ran
      omega
    · obtain ⟨rfl, rfl, opened_input, schema⟩ := prepare_eq_ok inferred prepared
      obtain rfl : input = S.input := Except.ok.inj (opened.symm.trans opened_input)
      have determines := determines_of_inferSchema schema
      have all : S.plan.AllParsed := by
        apply S.allParsed_iff.mpr
        intro chunk _ line _
        have declared := declared_of_sampled sampled determines
        exact determines.lineOk (o := S.options) lenient declared line
      intro s reached
      constructor
      · exact fun quiet => (settled_of_quiescent quiet).main
      · intro result returned
        obtain ⟨metrics, rfl⟩ := ok_of_faultFree all reached returned
        refine ⟨metrics, rfl, ?_⟩
        intro unlimited
        have delivered := Reached.delivered (reached.mono fun _ _ => trivial) returned
        rw [delivered.processed, delivered.errored, S.accepted_eq unlimited,
          S.refused_eq unlimited]
        exact ⟨rfl, rfl⟩

/-- A first line that is JSON but no object is survived. -/
theorem survivesBadLines_number :
    let input := ascii "5\n\x7b\"a\":1\x7d\n5"
    rejectedOf .objectAndNumber (splitLines input) = [ascii "5", ascii "5"] ∧
      SurvivesBadLines .objectAndNumber (.sample input)
        { PipelineConfig.default with ignoreErrors := true } input := by
  intro input
  have lines : sampleLines input 10000 = [ascii "5", ascii "\x7b\"a\":1\x7d", ascii "5"] := by
    decide
  have sampled : SampleHasValue .objectAndNumber input :=
    ⟨ascii "\x7b\"a\":1\x7d", by decide, _, rfl, "a", _, rfl, by simp⟩
  refine ⟨by decide, (survivesBadLines_iff _ _ _ _ rfl rfl rfl sampled).mpr ?_⟩
  rw [lines]
  rintro line (_ | ⟨_, _ | ⟨_, _ | ⟨_, ⟨⟩⟩⟩⟩) ⟨text, e, nonblank, refused⟩
  all_goals
    obtain rfl := Option.some.inj nonblank
    cases refused

/-- A malformed first line makes a lenient run return an error. -/
theorem malformed_first_line_refused :
    ∃ (J : SerdeJson) (host : Host) (config : PipelineConfig) (input : Bytes),
      config.ignoreErrors = true ∧ config.schemaPath = none ∧
        host.openInput config.inputPath = .ok input ∧ SampleHasValue J input ∧
        (∃ source, prepare J host config = .error (.jsonParse 1 source)) ∧
        ¬ SurvivesBadLines J host config input := by
  let input := ascii "x\n\x7b\"a\":1\x7d"
  refine ⟨.sample, .sample input, { PipelineConfig.default with ignoreErrors := true }, input, rfl,
    rfl, rfl, ⟨ascii "\x7b\"a\":1\x7d", by decide, _, rfl, "a", _, rfl, by simp⟩, ⟨_, rfl⟩, ?_⟩
  rintro ⟨S, prepared, _⟩
  cases prepared

end Parq.Pipeline
