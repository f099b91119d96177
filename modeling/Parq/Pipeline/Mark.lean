import Parq.Parser.Refinement
import Parq.Pipeline.Quarantine
import Parq.Pipeline.Schedule
import Parq.Schema.Mark

/-!
# Conversions of marked inputs

Inference and the schema loader strip a byte order mark, `parse_chunk` does not.  In a
marked input the first line is therefore never read as a record: a strict conversion
fails on it, and a lenient one skips it.  The mark goes unnoticed only where the first
line would not have been converted anyway.
-/

namespace Parq.Pipeline

open Parq.Chunk
open Parq.Data
open Parq.Parser
open Parq.Schema
open Parq.Sequence
open Parq.Transition

/-! ## Conversions -/

/-- A run without faults that has ended with `Ok`. -/
structure Converts (J : SerdeJson) (host : Host) (config : PipelineConfig) (S : Setup)
    (s : State S.plan) (metrics : ProcessingMetrics) : Prop where
  prepared : prepare J host config = .ok S
  reached : Reachable (step S.plan) Action.FaultFree (.initial S.plan) s
  returned : s.main = .returned (.ok metrics)

/-- `run_pipeline` converts the input when no I/O call fails. -/
def Convertible (J : SerdeJson) (host : Host) (config : PipelineConfig) : Prop :=
  ∃ S s metrics, Converts J host config S s metrics

/-- The dead-letter lines written so far. -/
def State.linesQuarantined {P : Plan} (s : State P) : List Bytes :=
  s.quarantined.map Prod.snd

section Conversions

variable {J : SerdeJson} {host : Host} {config : PipelineConfig} {S : Setup} {s : State S.plan}
  {metrics : ProcessingMetrics}

theorem Converts.completed (converts : Converts J host config S s metrics) : Completed s metrics :=
  Reached.completed (converts.reached.mono fun _ _ => trivial) converts.returned

/-- The input is converted exactly when every chunk is parsed. -/
theorem convertible_iff (prepared : prepare J host config = .ok S) :
    Convertible J host config ↔ S.plan.AllParsed := by
  constructor
  · rintro ⟨S', s, metrics, converts⟩
    obtain rfl : S = S' := Except.ok.inj (prepared.symm.trans converts.prepared)
    exact converts.completed.parsed
  · intro all
    obtain ⟨s, result, reached, returned⟩ := exists_returned_faultFree S.plan
    obtain ⟨metrics, rfl⟩ := ok_of_faultFree all reached returned
    exact ⟨S, s, metrics, prepared, reached, returned⟩

/-- The dead-letter lines of a conversion are those that the calls rejected, if there is a
dead-letter path. -/
theorem Converts.linesQuarantined_perm (converts : Converts J host config S s metrics) :
    s.linesQuarantined.Perm (if S.config.deadLetterPath.isSome then S.refused else []) := by
  have reached : Reached S.plan s := converts.reached.mono fun _ _ => trivial
  have completed := converts.completed
  split
  · rename_i path
    have done := completed.quarantine.resolve_left (reached.quarantine_present path)
    exact quarantined_perm completed.parsed path (completed.quarantined done).1
  · rename_i without
    have empty := (reached.quarantined_eq_nil (Bool.eq_false_iff.mpr without)).2
    rw [State.linesQuarantined, empty]
    exact .refl _

end Conversions

/-! ## The marked input -/

/-- The machine on which every file has a byte order mark in front. -/
def Host.withMark (host : Host) : Host :=
  { host with openInput := fun path => (host.openInput path).map (byteOrderMark ++ ·) }

/-- Two conversions agree in the schema, the rows, the counters and the dead-letter
lines. -/
structure Agree {S S' : Setup} (s : State S.plan) (metrics : ProcessingMetrics)
    (s' : State S'.plan) (metrics' : ProcessingMetrics) : Prop where
  schema : S'.schema = S.schema
  rows : s'.rowsWritten.Perm s.rowsWritten
  processed : metrics'.rowsProcessed = metrics.rowsProcessed
  errored : metrics'.rowsErrored = metrics.rowsErrored
  letters : s'.linesQuarantined.Perm s.linesQuarantined

/-- The marked input is converted exactly when the unmarked one is, and to the same. -/
structure MarkInvisible (J : SerdeJson) (host : Host) (config : PipelineConfig) : Prop where
  convertible : Convertible J host.withMark config ↔ Convertible J host config
  agree : ∀ {S s metrics S' s' metrics'}, Converts J host config S s metrics →
    Converts J host.withMark config S' s' metrics' → Agree s metrics s' metrics'

/-- The run `S'` differs from the run `S` by the mark. -/
structure Marked (S S' : Setup) : Prop where
  json : S'.json = S.json
  config : S'.config = S.config
  schema : S'.schema = S.schema
  input : S'.input = byteOrderMark ++ S.input

section Marked

variable {J : SerdeJson} {host : Host} {config : PipelineConfig} {data : Bytes}

/-- Inference reads the same lines with the mark as without it. -/
theorem inferSchema_withMark (J : SerdeJson) (unmarked : ¬ byteOrderMark <+: data) (n : Nat) :
    inferSchema J (byteOrderMark ++ data) n = inferSchema J data n := by
  have stripped : stripBom (byteOrderMark ++ data) = stripBom data := by
    rw [stripBom, if_pos (List.isPrefixOf_iff_prefix.mpr (List.prefix_append _ _)), List.drop_left,
      stripBom, if_neg (fun marked => unmarked (List.isPrefixOf_iff_prefix.mp marked))]
  rw [inferSchema, inferSchema, sampleLines, sampleLines, stripped]

/-- The preparation fails with the mark exactly when it fails without, and a run then
differs by the mark. -/
theorem prepare_withMark (opened : host.openInput config.inputPath = .ok data)
    (unmarked : ¬ byteOrderMark <+: data) :
    (∃ e, prepare J host config = .error e ∧ prepare J host.withMark config = .error e) ∨
      ∃ S S', prepare J host config = .ok S ∧ prepare J host.withMark config = .ok S' ∧
        S.config = config ∧ Marked S S' := by
  have opened' : host.withMark.openInput config.inputPath = .ok (byteOrderMark ++ data) := by
    simp [Host.withMark, opened, Except.map]
  have chosen : chooseSchema J host.withMark config (byteOrderMark ++ data) =
      chooseSchema J host config data := by
    unfold chooseSchema
    cases config.schemaPath with
    | none => exact inferSchema_withMark J unmarked 10000
    | some path => rfl
  simp only [prepare, opened, opened', chosen]
  cases chooseSchema J host config data with
  | error e => exact .inl ⟨e, rfl, rfl⟩
  | ok schema => exact .inr ⟨_, _, rfl, rfl, rfl, rfl, rfl, rfl, rfl⟩

end Marked

/-! ## The lines that a run reads -/

theorem limitReached_zero_iff (limit : Option Nat) :
    limitReached limit 0 = true ↔ limit = some 0 := by
  cases limit <;> simp [limitReached]

namespace Setup

/-- The lines that one call on the whole input with a row limit would read. -/
def read (S : Setup) (limit : Option Nat) : List Bytes :=
  considered S.json S.config.flatten limit 0 (splitLines S.input)

/-- The lines that one call on the input behind its first line would read. -/
def readBehind (S : Setup) (limit : Option Nat) : List Bytes :=
  considered S.json S.config.flatten limit 0 (splitLines S.input).tail

/-- The calls on the chunks read what one call on the whole input with the row limit
`limit` would. -/
inductive ReadsWhole (S : Setup) : (limit : Option Nat) → Prop
  /-- The configured limit stops no call, or only in front of blank lines. -/
  | unstopped (each : ∀ chunk ∈ S.chunks, ∃ rest, splitLines chunk = S.taken chunk ++ rest ∧
      ∀ line ∈ rest, trimmed? line = none) : ReadsWhole S none
  /-- There is one chunk. -/
  | single (one : S.chunks.length ≤ 1) : ReadsWhole S S.config.limit

variable {S : Setup} {limit : Option Nat}

theorem ReadsWhole.filterMap_taken (whole : S.ReadsWhole limit) {β : Type}
    {select : Bytes → Option β} (select_blank : ∀ line, trimmed? line = none → select line = none) :
    (S.chunks.flatMap fun chunk => (S.taken chunk).filterMap select) =
      (S.read limit).filterMap select := by
  have select_nil : select [] = none := select_blank [] trimmed?_nil
  cases whole with
  | unstopped each =>
      rw [read, considered_none, S.filterMap_splitLines select_nil]
      apply List.flatMap_congr
      intro chunk mem
      obtain ⟨rest, split, blank⟩ := each chunk mem
      have nothing : rest.filterMap select = [] :=
        List.filterMap_eq_nil_iff.mpr fun line line_mem => select_blank line (blank line line_mem)
      rw [split, List.filterMap_append, nothing, List.append_nil]
  | single one =>
      have whole := S.flatten_chunks
      rw [read, ← whole]
      cases chunks : S.chunks with
      | nil =>
          cases limit : limitReached S.config.limit 0 <;>
            simp [considered, splitLines, limit, select_nil]
      | cons chunk rest =>
          cases rest with
          | nil => simp [taken]
          | cons => simp [chunks] at one

theorem ReadsWhole.accepted_eq (whole : S.ReadsWhole limit) :
    S.accepted = recordsOf S.json S.config.flatten (S.read limit) :=
  whole.filterMap_taken fun _ => record?_of_blank S.config.flatten

theorem ReadsWhole.refused_eq (whole : S.ReadsWhole limit) :
    S.refused = rejectedOf S.json (S.read limit) :=
  whole.filterMap_taken fun _ => rejected?_of_blank

theorem ReadsWhole.allParsed_iff (whole : S.ReadsWhole limit) :
    S.plan.AllParsed ↔ ∀ line ∈ S.read limit, LineOk S.json S.options line := by
  classical
  let offends (line : Bytes) : Option Bytes :=
    if LineOk S.json S.options line then none else some line
  have lines : ∀ lines : List Bytes,
      lines.filterMap offends = [] ↔ ∀ line ∈ lines, LineOk S.json S.options line := by
    simp [offends, List.filterMap_eq_nil_iff]
  have none_offends : ∀ line, trimmed? line = none → offends line = none :=
    fun _ blank => if_pos (lineOk_of_blank blank)
  rw [Setup.allParsed_iff, ← lines, ← whole.filterMap_taken none_offends,
    List.flatMap_eq_nil_iff]
  simp only [lines]

/-- A limit other than `0` lets one call read its first line. -/
theorem ReadsWhole.positive (whole : S.ReadsWhole limit) (positive : S.config.limit ≠ some 0) :
    ¬ limitReached limit 0 = true := by
  cases whole with
  | unstopped => exact Bool.false_ne_true
  | single => exact fun reached => positive ((limitReached_zero_iff _).mp reached)

section Zero

variable (unread : S.config.limit = some 0)

include unread

theorem taken_of_zero (chunk : Bytes) : S.taken chunk = [] := by
  rw [taken, unread]
  cases splitLines chunk <;> rfl

theorem accepted_of_zero : S.accepted = [] :=
  List.flatMap_eq_nil_iff.mpr fun chunk _ => by rw [taken_of_zero unread, recordsOf_nil]

theorem refused_of_zero : S.refused = [] :=
  List.flatMap_eq_nil_iff.mpr fun chunk _ => by rw [taken_of_zero unread, rejectedOf_nil]

theorem allParsed_of_zero : S.plan.AllParsed := by
  rw [allParsed_iff]
  intro chunk _ line mem
  rw [taken_of_zero unread] at mem
  cases mem

end Zero

end Setup

section Reading

variable {S S' : Setup} (marked : Marked S S')

include marked

theorem Marked.options : S'.options = S.options := by
  rw [Setup.options, Setup.options, marked.schema, marked.config]

theorem Marked.row : S'.row = S.row := by
  funext obj
  rw [Setup.row, Setup.row, marked.json, marked.schema]

/-- Both runs read the first line, which the marked one rejects, and go on behind it. -/
theorem Marked.read_eq {limit : Option Nat} (going : ¬ limitReached limit 0 = true) :
    ∃ first rest, splitLines S.input = first :: rest ∧
      S.read limit = first :: considered S.json S.config.flatten limit
        (record? S.json S.config.flatten first).toList.length rest ∧
      S'.read limit = (byteOrderMark ++ first) :: S.readBehind limit := by
  obtain ⟨first, rest, split, split'⟩ := splitLines_byteOrderMark S.input
  refine ⟨first, rest, split, ?_, ?_⟩
  · rw [Setup.read, split, considered, if_neg going, Nat.zero_add]
  · rw [Setup.read, Setup.readBehind, marked.json, marked.config, marked.input, split, split',
      considered, if_neg going, record?_byteOrderMark, List.tail_cons]
    rfl

/-- A strict run on the marked input fails on its first line. -/
theorem Marked.not_allParsed (positive : S.config.limit ≠ some 0)
    (strict : S.config.ignoreErrors = false) : ¬ S'.plan.AllParsed := by
  intro all
  obtain ⟨first, rest, split, split'⟩ := splitLines_byteOrderMark S.input
  have nonempty : S'.chunks.flatten ≠ [] := by
    rw [S'.flatten_chunks, marked.input]
    simp [byteOrderMark]
  obtain ⟨chunk, mem, head⟩ := exists_head_splitOn S'.delimited nonempty
  rw [S'.flatten_chunks, marked.input] at head
  change (splitLines chunk).head? = (splitLines (byteOrderMark ++ S.input)).head? at head
  rw [split', List.head?_cons, List.head?_eq_some_iff] at head
  rcases head with ⟨others, lines⟩
  have going : ¬ limitReached S'.config.limit 0 = true := by
    rw [marked.config]
    exact fun reached => positive ((limitReached_zero_iff _).mp reached)
  have taken : byteOrderMark ++ first ∈ S'.taken chunk := by
    rw [Setup.taken, lines, considered, if_neg going]
    exact List.mem_cons_self
  have ok := S'.allParsed_iff.mp all chunk mem _ taken
  have strict' : S'.options.ignoreErrors = false := by
    rw [marked.options]
    exact strict
  have kept := rejected?_of_lineOk strict' ok
  rw [rejected?_byteOrderMark] at kept
  cases kept

variable {limit : Option Nat} (whole' : S'.ReadsWhole limit) (positive : S.config.limit ≠ some 0)

include whole' positive

theorem Marked.going : ¬ limitReached limit 0 = true := by
  rw [← marked.config] at positive
  exact whole'.positive positive

/-- A lenient run on the marked input gets past the first line. -/
theorem Marked.allParsed_iff (lenient : S.config.ignoreErrors = true) :
    S'.plan.AllParsed ↔ ∀ line ∈ S.readBehind limit, LineOk S.json S.options line := by
  obtain ⟨first, _, _, _, read'⟩ := marked.read_eq (marked.going whole' positive)
  have ok : LineOk S.json S.options (byteOrderMark ++ first) :=
    lineOk_of_rejected? lenient (rejected?_byteOrderMark S.json first)
  rw [whole'.allParsed_iff, read', marked.json, marked.options, List.forall_mem_cons]
  exact and_iff_right ok

/-- The run on the marked input has the records behind the first line. -/
theorem Marked.accepted_eq :
    S'.accepted = recordsOf S.json S.config.flatten (S.readBehind limit) := by
  obtain ⟨first, _, _, _, read'⟩ := marked.read_eq (marked.going whole' positive)
  rw [whole'.accepted_eq, read', marked.json, marked.config, recordsOf_cons, record?_byteOrderMark]
  rfl

/-- The run on the marked input rejects the first line. -/
theorem Marked.refused_eq {first : Bytes} {rest : List Bytes}
    (split : splitLines S.input = first :: rest) :
    S'.refused = (byteOrderMark ++ first.rdropWhile isAsciiWhitespace) ::
      rejectedOf S.json (S.readBehind limit) := by
  obtain ⟨first', rest', split', _, read'⟩ := marked.read_eq (marked.going whole' positive)
  obtain ⟨rfl, rfl⟩ := List.cons.inj (split.symm.trans split')
  rw [whole'.refused_eq, read', marked.json, rejectedOf_cons, rejected?_byteOrderMark]
  rfl

end Reading

/-- When the first line is rejected the run on the unmarked input goes on behind it as
well. -/
theorem Setup.read_of_rejected? {S : Setup} {limit : Option Nat}
    (going : ¬ limitReached limit 0 = true) {first text : Bytes} {rest : List Bytes}
    (split : splitLines S.input = first :: rest) (rejected : rejected? S.json first = some text) :
    S.read limit = first :: S.readBehind limit := by
  rw [Setup.read, Setup.readBehind, split, considered, if_neg going,
    record?_of_rejected? S.config.flatten rejected]
  rfl

/-- A line as the parser sees it is shorter than the same line behind a mark. -/
theorem length_trimAscii_lt (first : Bytes) :
    (trimAscii first).length < (byteOrderMark ++ first.rdropWhile isAsciiWhitespace).length := by
  obtain ⟨blank, split⟩ := List.dropWhile_suffix (l := first) isAsciiWhitespace
  have shorter : (trimAscii first).length ≤ (first.rdropWhile isAsciiWhitespace).length := by
    rw [trimAscii, trim]
    conv_rhs => rw [← split]
    unfold List.rdropWhile
    rw [List.reverse_append, List.dropWhile_append, List.length_reverse, List.length_reverse]
    split
    · rename_i empty
      rw [List.isEmpty_iff.mp empty]
      exact Nat.zero_le _
    · simp
  rw [List.length_append]
  exact Nat.lt_add_left_iff_pos.mpr (by decide) |>.trans_le' shorter

section Noticed

variable {S S' : Setup} (marked : Marked S S') {limit : Option Nat}
  (unread : S.config.limit ≠ some 0) (whole : S.ReadsWhole limit) (whole' : S'.ReadsWhole limit)

include marked unread whole whole'

/-- Where the calls read what one call would, two conversions that agree in the number of
rejected lines both reject the first line. -/
theorem exists_rejected_first (errored : S'.refused.length = S.refused.length) :
    ∃ first rest text, splitLines S.input = first :: rest ∧ rejected? S.json first = some text := by
  obtain ⟨first, rest, split, read, _⟩ := marked.read_eq (whole.positive unread)
  refine ⟨first, rest, ?_⟩
  cases rejected : rejected? S.json first with
  | some text => exact ⟨text, split, rfl⟩
  | none =>
      -- Behind the first line the marked run has at least as many rows to take.
      have fewer := (considered_prefix_of_le S.json S.config.flatten limit
        (Nat.zero_le (record? S.json S.config.flatten first).toList.length) rest).sublist
      have shorter : (rejectedOf S.json _).length ≤ (rejectedOf S.json _).length :=
        (fewer.filterMap (rejected? S.json)).length_le
      rw [marked.refused_eq whole' unread split, whole.refused_eq, read, rejectedOf_cons, rejected,
        Option.toList_none, List.nil_append, List.length_cons, Setup.readBehind, split,
        List.tail_cons] at errored
      omega

/-- The dead-letter lines show the mark. -/
theorem letters_differ {first text : Bytes} {rest : List Bytes}
    (split : splitLines S.input = first :: rest) (rejected : rejected? S.json first = some text) :
    ¬ S'.refused.Perm S.refused := by
  intro letters
  rw [marked.refused_eq whole' unread split, whole.refused_eq,
    Setup.read_of_rejected? (whole.positive unread) split rejected, rejectedOf_cons, rejected]
      at letters
  have lengths := (letters.map List.length).sum_eq
  have longer := length_trimAscii_lt first
  rw [(trimmed?_eq_some_iff.mp (trimmed?_of_rejected? rejected)).1] at longer
  simp only [Option.toList_some, List.singleton_append, List.map_cons, List.sum_cons] at lengths
  omega

end Noticed

/-! ## When the mark goes unnoticed -/

/-- The conversions with and without the mark have the same outcome. -/
inductive Unnoticed (S S' : Setup) : Prop
  /-- The limit is `0`. -/
  | nothing (unread : S.config.limit = some 0)
  /-- A strict run on the unmarked input fails as well. -/
  | strict (strict : S.config.ignoreErrors = false)
      (refused : ∃ chunk ∈ S.chunks, ∃ line ∈ S.taken chunk, ¬ LineOk S.json S.options line)
  /-- Both lenient runs fail, on a record that no batch can hold. -/
  | spoiled {limit : Option Nat} (lenient : S.config.ignoreErrors = true)
      (whole : S.ReadsWhole limit) (whole' : S'.ReadsWhole limit)
      (read : ∃ line ∈ S.read limit, ¬ LineOk S.json S.options line)
      (behind : ∃ line ∈ S.readBehind limit, ¬ LineOk S.json S.options line)
  /-- The first line is rejected in any case, and its text is not kept. -/
  | rejected {limit : Option Nat} (lenient : S.config.ignoreErrors = true)
      (whole : S.ReadsWhole limit) (whole' : S'.ReadsWhole limit)
      (first : ∃ line rest text, splitLines S.input = line :: rest ∧
        rejected? S.json line = some text)
      (dropped : S.config.deadLetterPath = none)

section Unnoticed

variable {J : SerdeJson} {host : Host} {config : PipelineConfig} {S S' : Setup}
  (prepared : prepare J host config = .ok S) (prepared' : prepare J host.withMark config = .ok S')
  (marked : Marked S S')

include prepared prepared' marked

/-- The mark is invisible when both runs convert the same records and reject as many
lines, and the same ones when these are kept. -/
theorem markInvisible_of_same (parsed : S'.plan.AllParsed ↔ S.plan.AllParsed)
    (accepted : S.plan.AllParsed → S'.accepted = S.accepted)
    (refused : S.plan.AllParsed → S'.refused.length = S.refused.length)
    (letters : S.plan.AllParsed → S.config.deadLetterPath.isSome = true → S'.refused = S.refused) :
    MarkInvisible J host config where
  convertible := by rw [convertible_iff prepared, convertible_iff prepared', parsed]
  agree := by
    intro T s metrics T' s' metrics' converts converts'
    obtain rfl : S = T := Except.ok.inj (prepared.symm.trans converts.prepared)
    obtain rfl : S' = T' := Except.ok.inj (prepared'.symm.trans converts'.prepared)
    have all := converts.completed.parsed
    have delivered := converts.completed.delivered
    have delivered' := converts'.completed.delivered
    constructor
    · exact marked.schema
    · have rows := delivered'.rows
      rw [accepted all, marked.row] at rows
      exact rows.trans delivered.rows.symm
    · rw [delivered'.processed, delivered.processed, accepted all]
    · rw [delivered'.errored, delivered.errored, refused all]
    · have lines := converts'.linesQuarantined_perm
      have same : (if S'.config.deadLetterPath.isSome then S'.refused else []) =
          if S.config.deadLetterPath.isSome then S.refused else [] := by
        rw [marked.config]
        split
        · rename_i path
          exact letters all path
        · rfl
      rw [same] at lines
      exact lines.trans converts.linesQuarantined_perm.symm

/-- The mark is invisible when both runs fail. -/
theorem markInvisible_of_failed (failed : ¬ S.plan.AllParsed) (failed' : ¬ S'.plan.AllParsed) :
    MarkInvisible J host config :=
  markInvisible_of_same prepared prepared' marked (iff_of_false failed' failed)
    (fun all => absurd all failed) (fun all => absurd all failed) (fun all => absurd all failed)

theorem markInvisible_of_unnoticed (unnoticed : Unnoticed S S') : MarkInvisible J host config := by
  by_cases unread : S.config.limit = some 0
  · have unread' : S'.config.limit = some 0 := by rw [marked.config, unread]
    have accepted : S'.accepted = S.accepted := by
      rw [Setup.accepted_of_zero unread, Setup.accepted_of_zero unread']
    have refused : S'.refused = S.refused := by
      rw [Setup.refused_of_zero unread, Setup.refused_of_zero unread']
    exact markInvisible_of_same prepared prepared' marked
      (iff_of_true (Setup.allParsed_of_zero unread') (Setup.allParsed_of_zero unread))
      (fun _ => accepted) (fun _ => congrArg List.length refused) (fun _ _ => refused)
  · cases unnoticed with
    | nothing zero => exact absurd zero unread
    | strict strict refused =>
        apply markInvisible_of_failed prepared prepared' marked
        · intro all
          rcases refused with ⟨chunk, mem, line, line_mem, bad⟩
          exact bad (S.allParsed_iff.mp all chunk mem line line_mem)
        · exact marked.not_allParsed unread strict
    | spoiled lenient whole whole' read behind =>
        apply markInvisible_of_failed prepared prepared' marked
        · intro all
          rcases read with ⟨line, mem, bad⟩
          exact bad (whole.allParsed_iff.mp all line mem)
        · intro all
          rcases behind with ⟨line, mem, bad⟩
          exact bad ((marked.allParsed_iff whole' unread lenient).mp all line mem)
    | rejected lenient whole whole' first dropped =>
        rcases first with ⟨first, rest, text, split, rejected⟩
        have read := Setup.read_of_rejected? (whole.positive unread) split rejected
        have ok : LineOk S.json S.options first := lineOk_of_rejected? lenient rejected
        apply markInvisible_of_same prepared prepared' marked
        · rw [marked.allParsed_iff whole' unread lenient, whole.allParsed_iff, read,
            List.forall_mem_cons]
          exact (and_iff_right ok).symm
        · intro _
          rw [marked.accepted_eq whole' unread, whole.accepted_eq, read, recordsOf_cons,
            record?_of_rejected? S.config.flatten rejected]
          rfl
        · intro _
          rw [marked.refused_eq whole' unread split, whole.refused_eq, read, rejectedOf_cons,
            rejected]
          rfl
        · intro _ path
          rw [dropped] at path
          cases path

/-- Where the calls read what one call would, two lenient conversions that agree leave the
mark unnoticed. -/
theorem unnoticed_of_lenient {limit : Option Nat} (lenient : S.config.ignoreErrors = true)
    (whole : S.ReadsWhole limit) (whole' : S'.ReadsWhole limit)
    (invisible : MarkInvisible J host config) : Unnoticed S S' := by
  by_cases unread : S.config.limit = some 0
  · exact .nothing unread
  · have parsed := invisible.convertible
    rw [convertible_iff prepared, convertible_iff prepared'] at parsed
    by_cases all : S.plan.AllParsed
    · obtain ⟨T, s, metrics, converts⟩ := (convertible_iff prepared).mpr all
      obtain ⟨T', s', metrics', converts'⟩ := (convertible_iff prepared').mpr (parsed.mpr all)
      obtain rfl : S = T := Except.ok.inj (prepared.symm.trans converts.prepared)
      obtain rfl : S' = T' := Except.ok.inj (prepared'.symm.trans converts'.prepared)
      have agree := invisible.agree converts converts'
      have errored := agree.errored
      rw [converts.completed.delivered.errored, converts'.completed.delivered.errored] at errored
      obtain ⟨first, rest, text, split, rejected⟩ :=
        exists_rejected_first marked unread whole whole' errored
      cases path : S.config.deadLetterPath with
      | none => exact .rejected lenient whole whole' ⟨first, rest, text, split, rejected⟩ path
      | some file =>
          have letters := (converts'.linesQuarantined_perm.symm.trans agree.letters).trans
            converts.linesQuarantined_perm
          rw [marked.config, path, Option.isSome_some, if_pos rfl, if_pos rfl] at letters
          exact absurd letters (letters_differ marked unread whole whole' split rejected)
    · have failed : ¬ S'.plan.AllParsed := fun all' => all (parsed.mp all')
      rw [marked.allParsed_iff whole' unread lenient] at failed
      rw [whole.allParsed_iff] at all
      simp only [not_forall, exists_prop] at all failed
      exact .spoiled lenient whole whole' all failed

/-- Two strict conversions that agree leave the mark unnoticed. -/
theorem unnoticed_of_strict (strict : S.config.ignoreErrors = false)
    (invisible : MarkInvisible J host config) : Unnoticed S S' := by
  by_cases unread : S.config.limit = some 0
  · exact .nothing unread
  · apply Unnoticed.strict strict
    have failed : ¬ S.plan.AllParsed := by
      rw [← convertible_iff prepared, ← invisible.convertible, convertible_iff prepared']
      exact marked.not_allParsed unread strict
    rw [S.allParsed_iff] at failed
    simpa only [not_forall, exists_prop] using failed

end Unnoticed

/-- The mark goes unnoticed, unless the preparation fails. -/
def GoesUnnoticed (J : SerdeJson) (host : Host) (config : PipelineConfig) : Prop :=
  ∀ S S', prepare J host config = .ok S → prepare J host.withMark config = .ok S' → Unnoticed S S'

/-- The run is strict, or its limit does not take other lines from each chunk than from the
whole input. -/
def LimitHarmless (J : SerdeJson) (host : Host) (config : PipelineConfig) : Prop :=
  ∀ S S', prepare J host config = .ok S → prepare J host.withMark config = .ok S' →
    config.ignoreErrors = false ∨ ∃ limit, S.ReadsWhole limit ∧ S'.ReadsWhole limit

/-- A byte order mark is invisible when it goes unnoticed and, as long as the limit does no
harm, only then. -/
theorem markInvisible_iff (J : SerdeJson) (host : Host) (config : PipelineConfig) {data : Bytes}
    (opened : host.openInput config.inputPath = .ok data) (unmarked : ¬ byteOrderMark <+: data) :
    (GoesUnnoticed J host config → MarkInvisible J host config) ∧
      (LimitHarmless J host config →
        (MarkInvisible J host config ↔ GoesUnnoticed J host config)) := by
  have enough : GoesUnnoticed J host config → MarkInvisible J host config := by
    intro unnoticed
    rcases prepare_withMark opened unmarked with
      ⟨e, failed, failed'⟩ | ⟨S, S', prepared, prepared', rfl, marked⟩
    · constructor
      · constructor
        · rintro ⟨S, s, metrics, converts⟩
          cases failed'.symm.trans converts.prepared
        · rintro ⟨S, s, metrics, converts⟩
          cases failed.symm.trans converts.prepared
      · intro S s metrics S' s' metrics' converts _
        cases failed.symm.trans converts.prepared
    · exact markInvisible_of_unnoticed prepared prepared' marked (unnoticed S S' prepared prepared')
  refine ⟨enough, fun harmless => ⟨?_, enough⟩⟩
  intro invisible S S' prepared prepared'
  rcases prepare_withMark opened unmarked with
    ⟨e, failed, _⟩ | ⟨T, T', prepared_T, prepared_T', rfl, marked⟩
  · cases failed.symm.trans prepared
  · obtain rfl : T = S := Except.ok.inj (prepared_T.symm.trans prepared)
    obtain rfl : T' = S' := Except.ok.inj (prepared_T'.symm.trans prepared')
    rcases harmless T T' prepared prepared' with strict | ⟨limit, whole, whole'⟩
    · exact unnoticed_of_strict prepared prepared' marked strict invisible
    · cases mode : T.config.ignoreErrors with
      | false => exact unnoticed_of_strict prepared prepared' marked mode invisible
      | true => exact unnoticed_of_lenient prepared prepared' marked mode whole whole' invisible

theorem markInvisible_malformed_first_line :
    MarkInvisible .sample
      { Host.sample (ascii "x\n\x7b\"a\":1\x7d") with
        readToString := fun _ => .ok "[\x7b\"name\":\"a\",\"type\":\"Int64\"\x7d]" }
      { PipelineConfig.default with ignoreErrors := true, schemaPath := some "schema.json" } := by
  apply (markInvisible_iff _ _ _ rfl (by decide)).1
  intro S S' prepared prepared'
  cases prepared
  cases prepared'
  refine .rejected rfl (.unstopped ?_) (.unstopped ?_) ⟨_, _, _, rfl, rfl⟩ rfl
  all_goals
    intro chunk _
    refine ⟨[], ?_, nofun⟩
    rw [List.append_nil]
    exact (considered_none _ _ _ _).symm

/-- A lenient conversion of one record behind a mark writes no row and counts one error. -/
theorem marked_record_lost :
    ∃ (J : SerdeJson) (host : Host) (config : PipelineConfig) (data : Bytes),
      config.ignoreErrors = true ∧ host.openInput config.inputPath = .ok data ∧
        ¬ byteOrderMark <+: data ∧
        (∃ S s metrics, Converts J host config S s metrics ∧ metrics.rowsProcessed = 1) ∧
        (∃ S s metrics, Converts J host.withMark config S s metrics ∧
          metrics.rowsProcessed = 0 ∧ metrics.rowsErrored = 1) ∧
        ¬ MarkInvisible J host config := by
  let config : PipelineConfig := { PipelineConfig.default with ignoreErrors := true }
  let host := Host.sample (ascii "\x7b\"a\":1\x7d")
  let S := (prepare .sample host config).toOption.get rfl
  let S' := (prepare .sample host.withMark config).toOption.get rfl
  let schedule : List (Action S.plan) :=
    .writer none :: List.replicate 7 (.closure ⟨0, by decide⟩) ++ List.replicate 4 (.writer none) ++
      List.replicate 3 .main
  let schedule' : List (Action S'.plan) :=
    .writer none :: List.replicate 6 (.closure ⟨0, by decide⟩) ++ List.replicate 2 (.writer none) ++
      List.replicate 3 .main
  have free : ∀ a ∈ schedule, a.FaultFree := by
    simp [schedule, Action.FaultFree, or_imp, forall_and]
  have free' : ∀ a ∈ schedule', a.FaultFree := by
    simp [schedule', Action.FaultFree, or_imp, forall_and]
  have converts : Converts .sample host config S _ _ :=
    ⟨rfl, reachable_of_run free (rfl : run (step S.plan) schedule (.initial _) = some _), rfl⟩
  have converts' : Converts .sample host.withMark config S' _ _ :=
    ⟨rfl, reachable_of_run free' (rfl : run (step S'.plan) schedule' (.initial _) = some _), rfl⟩
  refine ⟨.sample, host, config, _, rfl, rfl, by decide, ⟨S, _, _, converts, rfl⟩,
    ⟨S', _, _, converts', rfl, rfl⟩, ?_⟩
  intro invisible
  have processed : 0 = 1 := (invisible.agree converts converts').processed
  cases processed

end Parq.Pipeline
