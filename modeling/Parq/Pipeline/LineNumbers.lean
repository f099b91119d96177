import Parq.Parser.Numbering
import Parq.Pipeline.Abort
import Parq.Schema.Inference

/-!
# The line numbers of errors

An error names a line, and the user looks for it in the file.  `parse_chunk` counts the
lines of its own chunk, and `infer_schema` counts the lines that are not blank, so the
number is that of the line at fault only in the first chunk, and only when no blank line
precedes.
-/

namespace Parq.Pipeline

open Parq.Data
open Parq.Parser
open Parq.Schema
open Parq.Sequence
open Parq.Transition

/-! ## Errors that some run returns -/

section Returned

variable {P : Plan} {s target : State P} {i : Fin P.jobs} {e : Error}

/-- The error is recorded and about to be returned, or returned. -/
inductive Doomed (e : Error) (s : State P) : Prop
  | recorded (slot : s.parseError = some e) (parsing : s.main = .parsing)
  | returned (returned : s.main = .returned (.error e))

theorem Doomed.moves {a : Action P} (doomed : Doomed e s) (moves : Moves s a target) :
    Doomed e target := by
  cases doomed with
  | returned returned =>
      cases moves with
      | closure moved => exact .returned (moved.frame.1.trans returned)
      | writer moved => cases moved <;> exact .returned returned
      | quarantine moved => cases moved <;> exact .returned returned
      | main moved => cases moved <;> simp_all
  | recorded slot parsing =>
      cases moves with
      | closure moved =>
          have waits := moved.frame.1.trans parsing
          cases moved with
          | record => exact .recorded (by simp [slot]) waits
          | _ => exact .recorded slot waits
      | writer moved => cases moved <;> exact .recorded slot parsing
      | quarantine moved => cases moved <;> exact .recorded slot parsing
      | main moved =>
          cases moved with
          | abort _ _ failed =>
              obtain rfl := Option.some.inj (slot.symm.trans failed)
              exact .returned rfl
          | proceed _ _ clear => cases slot.symm.trans clear
          | joinWriter here | writerFailed here | joinQuarantine here | quarantineFailed here =>
              cases parsing.symm.trans here

/-- Some run returns the error of any chunk that fails. -/
theorem exists_returned (failed : (P.outcome i).result = .error e) :
    ∃ s, Reached P s ∧ s.main = .returned (.error e) := by
  obtain ⟨s, reached, _, _, recorded, parsing⟩ := exists_failing failed
  obtain ⟨target, reached', rest, settled⟩ := reached.can_settle
  have doomed : Doomed e target :=
    Reachable.invariant (.recorded recorded parsing)
      (fun doomed _ stepped => doomed.moves (moves_of_step stepped)) rest
  refine ⟨target, reached', ?_⟩
  cases doomed with
  | returned returned => exact returned
  | recorded _ waiting =>
      obtain ⟨result, returned⟩ := settled.main
      cases waiting.symm.trans returned

/-- The two threads fail only in an I/O call. -/
structure FailsByFault (s : State P) : Prop where
  writer : ∀ e, s.writer = .failed e → ∃ f : Fault, e = f.toError
  quarantine : ∀ e, s.quarantine = .failed e → ∃ f : Fault, e = f.toError

theorem failsByFault_initial (P : Plan) : FailsByFault (.initial P) where
  writer e failed := by cases failed
  quarantine e := by cases started : P.deadLetter <;> simp [State.initial, started]

theorem FailsByFault.moves {a : Action P} (fails : FailsByFault s) (moves : Moves s a target) :
    FailsByFault target := by
  rcases fails with ⟨writer, quarantine⟩
  cases moves with
  | closure moved =>
      cases moved with
      | handOver => exact ⟨fun e failed => (by cases failed), quarantine⟩
      | _ => exact ⟨writer, quarantine⟩
  | writer moved =>
      cases moved with
      | @fail f => exact ⟨fun e failed => ⟨f, (Writer.failed.inj failed).symm⟩, quarantine⟩
      | _ => exact ⟨fun e failed => (by cases failed), quarantine⟩
  | quarantine moved =>
      cases moved with
      | @fail f => exact ⟨writer, fun e failed => ⟨f, (Quarantine.failed.inj failed).symm⟩⟩
      | _ => exact ⟨writer, fun e failed => (by cases failed)⟩
  | main moved => cases moved <;> exact ⟨writer, quarantine⟩

theorem Reached.failsByFault (reached : Reached P s) : FailsByFault s :=
  Reachable.invariant (failsByFault_initial P)
    (fun fails _ stepped => fails.moves (moves_of_step stepped)) reached

/-- The errors about lines that the runs return are those of the chunks. -/
theorem exists_returned_iff {k : Nat} (about : lineOfError e = some k) :
    (∃ s, Reached P s ∧ s.main = .returned (.error e)) ↔ ∃ i, (P.outcome i).result = .error e := by
  constructor
  · rintro ⟨s, reached, returned⟩
    have no_fault : ¬ ∃ f : Fault, e = f.toError := by
      rintro ⟨f, rfl⟩
      cases f <;> cases about
    rcases reached.blamed.returned e returned with failed | failed | failed
    · exact failed
    · exact absurd (reached.failsByFault.writer e failed) no_fault
    · exact absurd (reached.failsByFault.quarantine e failed) no_fault
  · rintro ⟨i, failed⟩
    exact exists_returned failed

end Returned

/-! ## Lines at fault -/

/-- The `k`-th line of the input, counted from 1. -/
def lineAt (input : Bytes) : (k : Nat) → Option Bytes
  | 0 => none
  | k + 1 => (splitLines input)[k]?

/-- The line is a record with a value that a Boolean column refuses and that prints as
`found`. -/
def Setup.Refuses (S : Setup) (line : Bytes) (found : String) : Prop :=
  ∃ record, record? S.json S.config.flatten line = some record ∧
    ∃ field ∈ S.schema.fields, ∃ value,
      mismatch? (builtType field.dataType) (record.get field.name) = some value ∧
        S.json.debug value = found

/-- The line is at fault for the error: a parse error is about a line that is neither blank
nor a JSON object, a type mismatch about one that holds the value found. -/
def Setup.AtFault (S : Setup) (line : Bytes) : Error → Prop
  | .jsonParse _ _ => (rejected? S.json line).isSome
  | .typeMismatch _ _ found _ => S.Refuses line found
  | _ => True

/-- The line that an error names is the line at fault. -/
structure LineNumbersTrue (J : SerdeJson) (host : Host) (config : PipelineConfig)
    (input : Bytes) : Prop where
  jsonParse : ∀ k source, Returns J host config (.error (.jsonParse k source)) →
    ∃ line, lineAt input k = some line ∧ (rejected? J line).isSome
  typeMismatch : ∀ field expected found k,
    Returns J host config (.error (.typeMismatch field expected found k)) →
      ∃ S line, prepare J host config = .ok S ∧ lineAt input k = some line ∧ S.Refuses line found

/-- For the error of the line at which the call on a chunk ends, the line with the same
number in the input is at fault as well. -/
def Setup.Numbered (S : Setup) (chunk : Bytes) : Prop :=
  ∀ before line e, EndsAt S.json S.options (S.taken chunk) before line →
    lineError S.json S.options (before.length + 1) line = some e →
      ∃ other, lineAt S.input (before.length + 1) = some other ∧ S.AtFault other e

/-- Counting only the non-blank lines before the first sampled line that is not JSON leads
to a line of the input that is not a JSON object. -/
def SampleNumbered (J : SerdeJson) (config : PipelineConfig) (input : Bytes) : Prop :=
  config.schemaPath = none →
    ∀ before line after, sampleLines input 10000 = before ++ line :: after →
      (∀ other ∈ before, ¬ Unreadable J other) → Unreadable J line →
        ∃ other, lineAt input ((before.filterMap trimmed?).length + 1) = some other ∧
          (rejected? J other).isSome

section Chunks

variable {S : Setup}

/-- A line that ends a call is at fault for its error. -/
theorem atFault_of_lineError {lineNo : Nat} {line : Bytes} {e : Error}
    (refused : lineError S.json S.options lineNo line = some e) : S.AtFault line e := by
  rcases lineError_cases refused with ⟨text, source, read, rfl⟩ | ⟨obj, found, read, mismatch, rfl⟩
  · change (rejected? S.json line).isSome
    rw [rejected?_eq S.json S.options.flattenJson, read]
    rfl
  · rw [firstMismatch, List.findSome?_eq_some_iff] at mismatch
    rcases mismatch with ⟨before, field, after, split, here, _⟩
    have is_record : record? S.json S.config.flatten line = some obj := by
      change classify S.json S.config.flatten line = _ at read
      rw [record?, read]
    exact ⟨obj, is_record, field, by simp [show S.schema.fields = _ from split], found, here, rfl⟩

/-- In the first chunk the line that ends the call has its own number. -/
theorem numbered_first {chunk : Bytes} {rest : List Bytes} (chunks : S.chunks = chunk :: rest) :
    S.Numbered chunk := by
  intro before line e ends refused
  refine ⟨line, ?_, atFault_of_lineError refused⟩
  have nonempty : line ≠ [] := by
    rintro rfl
    exact ends.refused (lineOk_nil S.json S.options).1
  obtain ⟨after, taken⟩ := ends.split
  have here : (splitLines chunk)[before.length]? = some line := by
    obtain ⟨others, whole⟩ :=
      considered_prefix_self S.json S.config.flatten S.config.limit 0 (splitLines chunk)
    change S.taken chunk ++ others = _ at whole
    rw [← whole, taken]
    simp
  have delimited := S.delimited
  have whole := S.flatten_chunks
  rw [chunks] at delimited whole
  rw [← whole]
  exact getElem?_splitOn_flatten delimited here nonempty

theorem numbered_of_tail (numbered : ∀ chunk ∈ S.chunks.tail, S.Numbered chunk) {chunk : Bytes}
    (mem : chunk ∈ S.chunks) : S.Numbered chunk := by
  cases chunks : S.chunks with
  | nil => simp [chunks] at mem
  | cons first rest =>
      rw [chunks] at mem numbered
      rcases List.mem_cons.mp mem with rfl | later
      · exact numbered_first chunks
      · exact numbered chunk later

/-- The errors that the runs return name lines at fault exactly when every chunk but the
first is numbered as the input is. -/
theorem errors_atFault_iff (S : Setup) :
    (∀ e k, lineOfError e = some k → (∃ s, Reached S.plan s ∧ s.main = .returned (.error e)) →
        ∃ line, lineAt S.input k = some line ∧ S.AtFault line e) ↔
      ∀ chunk ∈ S.chunks.tail, S.Numbered chunk := by
  constructor
  · intro named chunk mem before line e ends refused
    rcases List.mem_iff_getElem.mp (List.mem_of_mem_tail mem) with ⟨i, inside, here⟩
    have failed : (S.plan.outcome ⟨i, inside⟩).result = .error e := by
      change (parseChunk S.json S.options S.config.limit S.chunks[i]).result = .error e
      rw [here]
      exact ends.parseChunk_eq_error refused
    exact named e _ (lineOfError_of_lineError refused) (exists_returned failed)
  · intro numbered e k about returned
    obtain ⟨i, failed⟩ := (exists_returned_iff about).mp returned
    obtain ⟨before, line, ends, refused⟩ := endsAt_of_parseChunk_eq_error failed about
    obtain rfl := Option.some.inj ((lineOfError_of_lineError refused).symm.trans about)
    exact numbered_of_tail numbered (List.getElem_mem i.isLt) before line e ends refused

end Chunks

/-! ## When the numbers are true -/

section Prepare

variable {J : SerdeJson} {host : Host} {config : PipelineConfig} {input : Bytes}

/-- The preparation names a line only when the inference of the schema refuses one. -/
theorem prepare_eq_error {e : Error} {k : Nat}
    (opened : host.openInput config.inputPath = .ok input)
    (failed : prepare J host config = .error e) (about : lineOfError e = some k) :
    config.schemaPath = none ∧ inferSchema J input 10000 = .error e := by
  cases schema : chooseSchema J host config input with
  | ok schema' => simp [prepare, opened, schema] at failed
  | error e' =>
      simp only [prepare, opened, schema, Except.error.injEq] at failed
      subst failed
      cases path : config.schemaPath with
      | none => exact ⟨rfl, by simpa [chooseSchema, path] using schema⟩
      | some file =>
          simp only [chooseSchema, path, loadSchemaFromFile] at schema
          split at schema
          · cases schema
            cases about
          · split at schema
            · cases schema
              cases about
            · cases schema

/-- Inference refuses the first line that is not JSON and counts the non-blank lines before
it. -/
theorem inferSchema_eq_error {before after : List Bytes} {line : Bytes}
    (split : sampleLines input 10000 = before ++ line :: after)
    (readable : ∀ other ∈ before, ¬ Unreadable J other) (unreadable : Unreadable J line) :
    ∃ source, inferSchema J input 10000 =
      .error (.jsonParse ((before.filterMap trimmed?).length + 1) source) := by
  have outcome := inferSchema_outcome J input 10000
  generalize inferSchema J input 10000 = result at outcome
  cases outcome with
  | ok all => exact absurd unreadable (all line (by simp [split]))
  | empty blank =>
      rcases unreadable with ⟨text, e, nonblank, _⟩
      rw [split, List.filterMap_append, List.filterMap_cons, nonblank] at blank
      simp at blank
  | refuse split' readable' nonblank refused =>
      obtain ⟨rfl, rfl⟩ :=
        first_bad_unique (split.symm.trans split') readable (not_not_intro unreadable)
        readable' (not_not_intro ⟨_, _, nonblank, refused⟩)
      exact ⟨_, rfl⟩

/-- When the preparation fails, only the inference can have named a line. -/
theorem named_of_failed {e : Error} (opened : host.openInput config.inputPath = .ok input)
    (failed : prepare J host config = .error e) :
    LineNumbersTrue J host config input ↔ SampleNumbered J config input := by
  constructor
  · intro named inferred before line after split readable unreadable
    obtain ⟨source, refused⟩ := inferSchema_eq_error split readable unreadable
    have failed' : prepare J host config =
        .error (.jsonParse ((before.filterMap trimmed?).length + 1) source) := by
      simp [prepare, opened, chooseSchema, inferred, refused]
    apply named.jsonParse _ source
    rw [Returns, failed']
  · intro sample
    have outcome := inferSchema_outcome J input 10000
    constructor
    · intro k source returns
      rw [Returns, failed] at returns
      cases returns
      obtain ⟨inferred, refused⟩ := prepare_eq_error opened failed rfl
      rw [refused] at outcome
      cases outcome with
      | refuse split readable nonblank refused =>
          exact sample inferred _ _ _ split readable ⟨_, _, nonblank, refused⟩
    · intro field expected found k returns
      rw [Returns, failed] at returns
      cases returns
      rw [(prepare_eq_error opened failed rfl).2] at outcome
      cases outcome

/-- When the preparation succeeds, the sampled lines are all JSON. -/
theorem sampleNumbered_of_prepared {S : Setup}
    (opened : host.openInput config.inputPath = .ok input)
    (prepared : prepare J host config = .ok S) : SampleNumbered J config input := by
  intro inferred before line after split readable unreadable
  obtain ⟨source, refused⟩ := inferSchema_eq_error split readable unreadable
  simp [prepare, opened, chooseSchema, inferred, refused] at prepared

end Prepare

/-- When the preparation succeeds, the errors are those of the runs. -/
theorem named_iff_atFault {S : Setup} {host : Host}
    (prepared : prepare S.json host S.config = .ok S) :
    LineNumbersTrue S.json host S.config S.input ↔
      ∀ e k, lineOfError e = some k → (∃ s, Reached S.plan s ∧ s.main = .returned (.error e)) →
        ∃ line, lineAt S.input k = some line ∧ S.AtFault line e := by
  have returns_iff (e : Error) : Returns S.json host S.config (.error e) ↔
      ∃ s, Reached S.plan s ∧ s.main = .returned (.error e) := by
    rw [Returns, prepared]
  constructor
  · intro named e k about returned
    have returns := (returns_iff e).mpr returned
    cases e with
    | parq source =>
        cases source with
        | jsonParse line source =>
            cases about
            exact named.jsonParse _ source returns
        | typeMismatch field expected found line =>
            cases about
            obtain ⟨S', line', prepared', place, refuses⟩ := named.typeMismatch _ _ _ _ returns
            obtain rfl : S = S' := Except.ok.inj (prepared.symm.trans prepared')
            exact ⟨line', place, refuses⟩
        | _ => cases about
    | _ => cases about
  · intro atFault
    constructor
    · intro k source returns
      exact atFault _ k rfl ((returns_iff _).mp returns)
    · intro field expected found k returns
      obtain ⟨line, place, refuses⟩ := atFault _ k rfl ((returns_iff _).mp returns)
      exact ⟨S, line, prepared, place, refuses⟩

/-- The numbers of errors are line numbers of the input exactly when the non-blank lines
before the first sampled line that is not JSON lead to a line that is no object, and each
chunk but the first ends, if at all, at a number at which the input has a line at fault in
the same way. -/
theorem lineNumbersTrue_iff (J : SerdeJson) (host : Host) (config : PipelineConfig) {input : Bytes}
    (opened : host.openInput config.inputPath = .ok input) :
    LineNumbersTrue J host config input ↔
      SampleNumbered J config input ∧
        ∀ S, prepare J host config = .ok S → ∀ chunk ∈ S.chunks.tail, S.Numbered chunk := by
  cases prepared : prepare J host config with
  | error e => simp [named_of_failed opened prepared]
  | ok S =>
      have sample := sampleNumbered_of_prepared opened prepared
      obtain ⟨rfl, rfl, opened', _⟩ := prepare_setup prepared
      obtain rfl : input = S.input := Except.ok.inj (opened.symm.trans opened')
      rw [named_iff_atFault prepared, errors_atFault_iff]
      simp [sample]

/-- Of three chunks the first two end at a line of their own numbered 1, which is at fault in
the input as well; the third begins with a blank line and ends at no line. -/
theorem lineNumbersTrue_three_chunks :
    let input := ascii "5\n5\n\n\x7b\"a\":1\x7d"
    LineNumbersTrue .objectAndNumber (.sample input)
      { PipelineConfig.default with chunkSize := some 1 } input := by
  intro input
  let config := { PipelineConfig.default with chunkSize := some 1 }
  let S := (prepare .objectAndNumber (.sample input) config).toOption.get rfl
  apply (lineNumbersTrue_iff _ _ _ rfl).mpr
  constructor
  · intro _ before line after split _ unreadable
    have mem : line ∈ sampleLines input 10000 := by
      rw [split]
      simp
    have lines : sampleLines input 10000 =
        [ascii "5", ascii "5", [], ascii "\x7b\"a\":1\x7d"] := by
      decide
    rw [lines] at mem
    obtain ⟨text, e, nonblank, refused⟩ := unreadable
    rcases mem with _ | ⟨_, _ | ⟨_, _ | ⟨_, _ | ⟨_, ⟨⟩⟩⟩⟩⟩
    · cases nonblank
      cases refused
    · cases nonblank
      cases refused
    · cases nonblank
    · cases nonblank
      cases refused
  · intro T prepared chunk mem before line e ends refused
    obtain rfl : S = T := Except.ok.inj prepared
    have tail : S.chunks.tail = [ascii "5\n", ascii "\n\x7b\"a\":1\x7d"] := by
      decide
    obtain ⟨after, split⟩ := ends.split
    rw [tail] at mem
    rcases mem with _ | ⟨_, _ | ⟨_, ⟨⟩⟩⟩
    · change [ascii "5", []] = before ++ line :: after at split
      cases before with
      | nil =>
          obtain rfl : ascii "5" = line := (List.cons.inj split).1
          exact ⟨ascii "5", by decide, atFault_of_lineError refused⟩
      | cons other rest =>
          obtain rfl : ascii "5" = other := (List.cons.inj split).1
          cases ends.accepted _ List.mem_cons_self
    · change [[], ascii "\x7b\"a\":1\x7d"] = before ++ line :: after at split
      have line_mem : line ∈ [[], ascii "\x7b\"a\":1\x7d"] := by
        rw [split]
        simp
      rcases line_mem with _ | ⟨_, _ | ⟨_, ⟨⟩⟩⟩
      · exact absurd rfl ends.refused
      · exact absurd rfl ends.refused

/-- A malformed second line in a chunk of its own is reported as line 1, which is a JSON
object. -/
theorem second_chunk_misnumbered :
    ∃ (J : SerdeJson) (host : Host) (config : PipelineConfig) (input : Bytes),
      config.ignoreErrors = false ∧ config.chunkSize = some 1 ∧
        host.openInput config.inputPath = .ok input ∧
        (∃ source, Returns J host config (.error (.jsonParse 1 source))) ∧
        (∃ line record, lineAt input 1 = some line ∧ record? J false line = some record) ∧
        ¬ LineNumbersTrue J host config input := by
  let config : PipelineConfig :=
    { PipelineConfig.default with chunkSize := some 1, schemaPath := some "schema.json" }
  let host : Host :=
    { Host.sample (ascii "\x7b\"a\":1\x7d\nx") with
      readToString := fun _ => .ok "[\x7b\"name\":\"a\",\"type\":\"Int64\"\x7d]" }
  let S := (prepare .sample host config).toOption.get rfl
  have failed : (S.plan.outcome ⟨1, by decide⟩).result =
      .error (.jsonParse 1 ⟨"expected value at line 1 column 1"⟩) := rfl
  have returns : Returns .sample host config
      (.error (.jsonParse 1 ⟨"expected value at line 1 column 1"⟩)) := by
    rw [Returns, (rfl : prepare .sample host config = .ok S)]
    exact exists_returned failed
  have place : lineAt (ascii "\x7b\"a\":1\x7d\nx") 1 = some (ascii "\x7b\"a\":1\x7d") := by decide
  have read : record? .sample false (ascii "\x7b\"a\":1\x7d") = some [("a", .number (.posInt 1))] :=
    rfl
  refine ⟨.sample, host, config, _, rfl, rfl, rfl, ⟨_, returns⟩, ⟨_, _, place, read⟩, ?_⟩
  intro named
  obtain ⟨line, place', rejected⟩ := named.jsonParse 1 _ returns
  obtain rfl := Option.some.inj (place.symm.trans place')
  obtain ⟨text, rejected⟩ := Option.isSome_iff_exists.mp rejected
  cases (record?_of_rejected? false rejected).symm.trans read

end Parq.Pipeline
