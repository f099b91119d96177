import Parq.Parser.Quarantine

/-!
# Where a call ends

The line that ends a call is the first one among those it reads that is refused, unless
a full batch in front of it cannot be formed.  The error counts the lines from the start
of the call's own data.
-/

namespace Parq.Parser

open Parq.Data
open Parq.Sequence

/-- The line that an error is about. -/
def lineOfError : Error → Option Nat
  | .jsonParse line _ => some line
  | .typeMismatch _ _ _ line => some line
  | _ => none

/-- The rows in the full batches among a number of rows. -/
def fullRows (batchSize rows : Nat) : Nat :=
  rows / max batchSize 1 * max batchSize 1

/-- The call over `lines` ends at `line`, behind the lines `before`: these are accepted,
and the full batches of their rows can be formed. -/
structure EndsAt (J : SerdeJson) (o : ParseOptions) (lines before : List Bytes) (line : Bytes) :
    Prop where
  split : ∃ after, lines = before ++ line :: after
  accepted : ∀ other ∈ before, lineError J o 0 other = none
  stored : ∀ record ∈ (recordsOf J o.flattenJson before).take
      (fullRows o.batchSize (recordsOf J o.flattenJson before).length),
    Writable J o.schema record
  refused : lineError J o 0 line ≠ none

section Loop

variable {J : SerdeJson} {o : ParseOptions} {seen : List Bytes} {flushed pending : List Map}
  {s last : ChunkState} {limit : Option Nat} {e : Error}

theorem Tracks.length_flushed (tracks : Tracks J o seen flushed pending s) :
    flushed.length = s.batches.length * max o.batchSize 1 := by
  have rows := congrArg List.length tracks.rows
  rw [List.length_flatMap, List.length_map] at rows
  simp only [RecordBatch.length_rows] at rows
  rw [List.map_congr_left tracks.full, List.map_const', List.sum_replicate_nat] at rows
  exact rows.symm

/-- The flushed rows are those of the full batches. -/
theorem Tracks.flushed_eq (tracks : Tracks J o seen flushed pending s) :
    flushed = (recordsOf J o.flattenJson seen).take
      (fullRows o.batchSize (recordsOf J o.flattenJson seen).length) := by
  have room := tracks.room
  have lengths := tracks.length_flushed
  have full : fullRows o.batchSize (flushed ++ pending).length = flushed.length := by
    have whole : (flushed ++ pending).length / max o.batchSize 1 = s.batches.length := by
      rw [List.length_append, lengths]
      apply Nat.div_eq_of_lt_le
      · omega
      · rw [Nat.add_mul]
        omega
    rw [fullRows, whole, lengths]
  rw [← tracks.records, full, List.take_left]

/-- A batch that the lines `before` fill is one of their full batches. -/
theorem Tracks.writable_of_stored (tracks : Tracks J o seen flushed pending s) {line : Bytes}
    {obj : Map} (read : record? J o.flattenJson line = some obj)
    (filled : (pending ++ [obj]).length = max o.batchSize 1) {before : List Bytes}
    (earlier : seen ++ [line] <+: before)
    (stored : ∀ record ∈ (recordsOf J o.flattenJson before).take
        (fullRows o.batchSize (recordsOf J o.flattenJson before).length),
      Writable J o.schema record) :
    ∀ record ∈ pending ++ [obj], Writable J o.schema record := by
  rcases earlier with ⟨rest, rfl⟩
  have positive : 0 < max o.batchSize 1 := Nat.lt_of_lt_of_le Nat.one_pos (Nat.le_max_right _ _)
  have records : recordsOf J o.flattenJson (seen ++ [line] ++ rest) =
      (flushed ++ (pending ++ [obj])) ++ recordsOf J o.flattenJson rest := by
    rw [recordsOf_append, tracks.records_append read]
  have length : (flushed ++ (pending ++ [obj])).length =
      (s.batches.length + 1) * max o.batchSize 1 := by
    rw [List.length_append, tracks.length_flushed, filled, Nat.add_mul, Nat.one_mul]
  have whole : (flushed ++ (pending ++ [obj])).length ≤
      fullRows o.batchSize (recordsOf J o.flattenJson (seen ++ [line] ++ rest)).length := by
    rw [length, fullRows]
    apply Nat.mul_le_mul_right
    rw [Nat.le_div_iff_mul_le positive, records, List.length_append, length]
    exact Nat.le_add_right _ _
  intro record mem
  apply stored record
  rw [records] at whole ⊢
  rw [List.take_append, List.take_of_length_le whole]
  exact List.mem_append_left _ (List.mem_append_right _ mem)

/-- A pass that fails on an accepted line has filled a batch that cannot be formed. -/
theorem Tracks.filled_of_fail (tracks : Tracks J o seen flushed pending s) {line : Bytes}
    (harmless : lineError J o 0 line = none) (failed : lineStep J o limit s line = .fail last e) :
    ∃ obj, record? J o.flattenJson line = some obj ∧
      (pending ++ [obj]).length = max o.batchSize 1 ∧
        ¬ ∀ record ∈ pending ++ [obj], Writable J o.schema record := by
  rw [lineStep_eq] at failed
  split at failed
  · cases failed
  · cases read : classify J o.flattenJson line with
    | blank =>
        rw [read] at failed
        cases failed
    | rejected text source =>
        simp only [lineError, read] at harmless
        rw [read] at failed
        dsimp only at failed
        split at failed
        · cases failed
        · simp_all
    | record obj =>
        rw [read] at failed
        refine ⟨obj, by rw [record?, read], ?_⟩
        rcases (tracks.countLine (s.lineNo + 1)).store read harmless with
          ⟨_, _, _, next, _⟩ | ⟨_, filled, unwritable⟩
        · cases next.symm.trans failed
        · exact ⟨filled, unwritable⟩

/-- A loop that fails does so at one of its lines, in a state that the lines before it
account for. -/
theorem exists_failing_line (tracks : Tracks J o seen flushed pending s)
    (numbered : s.lineNo = seen.length) {lines : List Bytes}
    (failed : parseLines J o limit lines s = (last, some e)) :
    ∃ before line after flushed' pending' s',
      considered J o.flattenJson limit (recordsOf J o.flattenJson seen).length lines =
          before ++ line :: after ∧
        Tracks J o (seen ++ before) flushed' pending' s' ∧
        s'.lineNo = (seen ++ before).length ∧ lineStep J o limit s' line = .fail last e := by
  induction lines generalizing seen flushed pending s with
  | nil => cases failed
  | cons line lines ih =>
      have pass := lineStep_pass tracks numbered limit line
      rw [parseLines] at failed
      rw [considered]
      cases step : lineStep J o limit s line with
      | stop s' =>
          rw [step] at failed
          cases failed
      | fail s' e' =>
          rw [step] at failed pass
          cases failed
          have within : ¬ limitReached limit (recordsOf J o.flattenJson seen).length = true := by
            cases pass <;> simp_all
          refine ⟨[], line, _, flushed, pending, s, if_neg within, ?_, ?_, step⟩
          · rwa [List.append_nil]
          · rwa [List.append_nil]
      | next s' =>
          rw [step] at failed pass
          cases pass with
          | next within numbered' tracks' =>
              obtain
                ⟨before, bad, after, flushed', pending', t, split, tracks'', numbered'', stepped⟩ :=
                ih tracks' numbered' failed
              refine ⟨line :: before, bad, after, flushed', pending', t, ?_, ?_, ?_, stepped⟩
              · rw [if_neg (by simp [within])]
                simpa using split
              · simpa using tracks''
              · simpa using numbered''

end Loop

section Call

variable {J : SerdeJson} {o : ParseOptions} {limit : Option Nat} {data : Bytes}

/-- The error of a line carries the number it is given. -/
theorem lineOfError_of_lineError {lineNo : Nat} {line : Bytes} {e : Error}
    (refused : lineError J o lineNo line = some e) : lineOfError e = some lineNo := by
  rcases lineError_cases refused with ⟨_, _, _, rfl⟩ | ⟨_, _, _, _, rfl⟩
  · rfl
  · rfl

/-- An error about a line is that of the line at which the call ends. -/
theorem endsAt_of_parseChunk_eq_error {e : Error} {k : Nat}
    (failed : (parseChunk J o limit data).result = .error e) (about : lineOfError e = some k) :
    ∃ before line, EndsAt J o (considered J o.flattenJson limit 0 (splitLines data)) before line ∧
      lineError J o (before.length + 1) line = some e := by
  unfold parseChunk at failed
  cases loop : parseLines J o limit (splitLines data) (.initial o.schema) with
  | mk s ended =>
      rw [loop] at failed
      cases ended with
      | none =>
          unfold finishChunk at failed
          dsimp only at failed
          split at failed
          · split at failed
            · rename_i flush_failed
              cases failed
              unfold flush at flush_failed
              split at flush_failed <;> cases flush_failed
              cases about
            · cases failed
          · cases failed
      | some e' =>
          cases failed
          obtain ⟨before, line, after, flushed, pending, s', split, tracks, numbered, stepped⟩ :=
            exists_failing_line (tracks_initial J o) rfl loop
          rw [List.nil_append] at tracks numbered
          have pass := lineStep_pass tracks numbered limit line
          rw [stepped] at pass
          cases pass with
          | reject within refused letters =>
              refine ⟨before, line, ⟨⟨after, split⟩, tracks.accepted, ?_, ?_⟩, refused⟩
              · rw [← tracks.flushed_eq]
                exact tracks.writable
              · intro harmless
                rw [← lineError_eq_none_iff J o (before.length + 1), refused] at harmless
                cases harmless
          | spoil => cases about

/-- A call that ends at a line returns the error of that line, numbered from the start of
its data. -/
theorem EndsAt.parseChunk_eq_error {before : List Bytes} {line : Bytes} {e : Error}
    (ends : EndsAt J o (considered J o.flattenJson limit 0 (splitLines data)) before line)
    (refused : lineError J o (before.length + 1) line = some e) :
    (parseChunk J o limit data).result = .error e := by
  rcases ends with ⟨⟨after, split⟩, accepted, stored, bad⟩
  unfold parseChunk
  cases loop : parseLines J o limit (splitLines data) (.initial o.schema) with
  | mk s ended =>
      cases ended with
      | none =>
          have read := parseLines_ended (tracks_initial J o) rfl limit (splitLines data)
          rw [loop, recordsOf_nil, List.length_nil, List.nil_append] at read
          cases read with
          | read tracks => exact absurd (tracks.accepted line (by simp [split])) bad
      | some e' =>
          obtain
            ⟨before', line', after', flushed, pending, s', split', tracks, numbered, stepped⟩ :=
            exists_failing_line (tracks_initial J o) rfl loop
          rw [List.nil_append] at tracks numbered
          have pass := lineStep_pass tracks numbered limit line'
          rw [stepped] at pass
          cases pass with
          | reject within refused' letters =>
              have bad' : lineError J o 0 line' ≠ none := by
                intro harmless
                rw [← lineError_eq_none_iff J o (before'.length + 1), refused'] at harmless
                cases harmless
              obtain ⟨rfl, rfl⟩ := first_bad_unique (split'.symm.trans split) tracks.accepted bad'
                accepted bad
              exact congrArg Except.error (Option.some.inj (refused'.symm.trans refused))
          | spoil _ harmless =>
              have accepted' : ∀ other ∈ before' ++ [line'], lineError J o 0 other = none := by
                simpa [or_imp, forall_and, harmless] using tracks.accepted
              have earlier : before' ++ [line'] <+: before :=
                prefix_of_forall
                  ((split.symm.trans split').trans (List.append_cons before' line' after'))
                  bad accepted'
              obtain ⟨obj, is_record, filled, unwritable⟩ := tracks.filled_of_fail harmless stepped
              exact absurd (tracks.writable_of_stored is_record filled earlier stored) unwritable

end Call

end Parq.Parser
