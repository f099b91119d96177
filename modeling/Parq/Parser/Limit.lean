import Parq.Parser.Correctness
import Parq.Sequence.FirstMany

/-!
# The row limit within one call

A call with a row limit reads the shortest beginning of its lines that holds as many
accepted records, and does with it what a call without a limit does.
-/

namespace Parq.Parser

open Parq.Data
open Parq.Sequence

/-- The line is a record, and no value of it ends the call. -/
def accepts (J : SerdeJson) (o : ParseOptions) (line : Bytes) : Bool :=
  (record? J o.flattenJson line).isSome && (lineError J o 0 line).isNone

/-! ## The loop with and without a limit -/

/-- Two ends of the loop that differ at most in the line number. -/
def SameEnd (ended ended' : ChunkState × Option Error) : Prop :=
  ∃ lineNo, ({ ended.1 with lineNo }, ended.2) = ({ ended'.1 with lineNo }, ended'.2)

section Loop

variable {J : SerdeJson} {o : ParseOptions} {n : Nat}

/-- Until the limit is reached it has no part in a pass. -/
theorem lineStep_of_within {limit : Option Nat} {s : ChunkState}
    (within : limitReached limit s.totalOk = false) (line : Bytes) :
    lineStep J o limit s line = lineStep J o none s line := by
  rw [lineStep_eq, lineStep_eq, if_neg (by simp [within]), if_neg (by simp [limitReached])]

/-- A pass that goes on counts the record of its line. -/
theorem totalOk_of_next {seen : List Bytes} {flushed pending : List Map} {s next : ChunkState}
    (tracks : Tracks J o seen flushed pending s) {line : Bytes} {flushed' pending' : List Map}
    (tracks' : Tracks J o (seen ++ [line]) flushed' pending' next) :
    next.totalOk = s.totalOk + if accepts J o line then 1 else 0 := by
  have harmless := tracks'.accepted line (by simp)
  rw [tracks.totalOk, tracks'.totalOk, recordsOf_append, List.length_append, recordsOf_cons]
  cases read : record? J o.flattenJson line <;> simp [accepts, read, harmless]

/-- The loop with the limit ends as the loop without one does on the lines up to the last
record within the limit. -/
theorem parseLines_limit {seen : List Bytes} {flushed pending : List Map} {s : ChunkState}
    (tracks : Tracks J o seen flushed pending s) (numbered : s.lineNo = seen.length)
    (lines : List Bytes) :
    SameEnd (parseLines J o (some n) lines s)
      (parseLines J o none (takeMany (accepts J o) (n - s.totalOk) lines) s) := by
  induction lines generalizing seen flushed pending s with
  | nil =>
      rw [takeMany_nil]
      exact ⟨0, rfl⟩
  | cons line lines ih =>
      rw [parseLines]
      by_cases reached : n ≤ s.totalOk
      · have stopped : limitReached (some n) s.totalOk = true := by
          simpa [limitReached] using reached
        rw [lineStep_eq, if_pos stopped, Nat.sub_eq_zero_of_le reached, takeMany_zero]
        exact ⟨0, rfl⟩
      · have within : limitReached (some n) s.totalOk = false := by
          simpa [limitReached] using reached
        rw [lineStep_of_within within,
          takeMany_cons _ (Nat.sub_pos_of_lt (Nat.lt_of_not_le reached)),
          parseLines]
        have pass := lineStep_pass tracks numbered none line
        cases stepped : lineStep J o none s line with
        | next s' =>
            rw [stepped] at pass
            cases pass with
            | next _ numbered' tracks' =>
                have left : (if accepts J o line then n - s.totalOk - 1 else n - s.totalOk) =
                    n - s'.totalOk := by
                  rw [totalOk_of_next tracks tracks']
                  split <;> omega
                rw [left]
                exact ih tracks' numbered'
        | stop s' => exact ⟨0, rfl⟩
        | fail s' e => exact ⟨0, rfl⟩

/-- An empty last line only counts as a line. -/
theorem parseLines_append_empty (lines : List Bytes) (s : ChunkState) :
    SameEnd (parseLines J o none (lines ++ [[]]) s) (parseLines J o none lines s) := by
  induction lines generalizing s with
  | nil => exact ⟨0, rfl⟩
  | cons line lines ih =>
      rw [List.cons_append, parseLines, parseLines]
      cases lineStep J o none s line with
      | next s' => exact ih s'
      | stop s' => exact ⟨0, rfl⟩
      | fail s' e => exact ⟨0, rfl⟩

end Loop

/-! ## One call -/

/-- The data consists of the lines, the last one with or without a newline behind it. -/
def HasLines (data : Bytes) (lines : List Bytes) : Prop :=
  splitLines data = lines ∨ splitLines data = lines ++ [[]]

theorem hasLines_joinLines {lines : List Bytes} (free : ∀ line ∈ lines, newline ∉ line) :
    HasLines (joinLines lines) lines := by
  by_cases nonempty : lines = []
  · subst nonempty
    exact .inr rfl
  · exact .inl (splitLines_joinLines free nonempty)

theorem HasLines.mem {data : Bytes} {lines : List Bytes} (has : HasLines data lines) :
    ∀ line ∈ splitLines data, line = [] ∨ line ∈ lines := by
  intro line mem
  rcases has with same | same
  · exact .inr (same ▸ mem)
  · rw [same, List.mem_append, List.mem_singleton] at mem
    exact mem.symm

section Call

variable {J : SerdeJson} {o : ParseOptions} {n : Nat} {data : Bytes} {taken : List Bytes}

theorem SameEnd.refl (ended : ChunkState × Option Error) : SameEnd ended ended :=
  ⟨0, rfl⟩

theorem SameEnd.symm {ended ended' : ChunkState × Option Error} (same : SameEnd ended ended') :
    SameEnd ended' ended :=
  same.imp fun _ equal => equal.symm

theorem SameEnd.trans {ended ended' ended'' : ChunkState × Option Error}
    (first : SameEnd ended ended') (second : SameEnd ended' ended'') : SameEnd ended ended'' := by
  rcases first with ⟨lineNo, first⟩
  rcases second with ⟨_, second⟩
  refine ⟨lineNo, first.trans ?_⟩
  simp only [Prod.mk.injEq, ChunkState.mk.injEq] at second ⊢
  simp only [second, and_self]

/-- What a call returns does not depend on the number of lines its loop has counted. -/
theorem parseChunk_congr {limit limit' : Option Nat} {data' : Bytes}
    (same : SameEnd (parseLines J o limit (splitLines data) (.initial o.schema))
      (parseLines J o limit' (splitLines data') (.initial o.schema))) :
    parseChunk J o limit data = parseChunk J o limit' data' := by
  unfold parseChunk
  generalize parseLines J o limit (splitLines data) _ = ended at same
  generalize parseLines J o limit' (splitLines data') _ = ended' at same
  rcases ended with ⟨s, e⟩
  rcases ended' with ⟨s', e'⟩
  rcases same with ⟨_, same⟩
  simp only [Prod.mk.injEq, ChunkState.mk.injEq] at same
  rcases same with ⟨⟨batches, builders, batchRows, totalOk, totalSkip, _, letters⟩, rfl⟩
  cases e with
  | some e => simp only [letters]
  | none => simp only [finishChunk, batches, builders, batchRows, totalOk, totalSkip, letters]

/-- Without a limit a newline at the end of the data makes no difference. -/
theorem HasLines.parseLines {taken : List Bytes} (has : HasLines data taken) :
    SameEnd (parseLines J o none (splitLines data) (.initial o.schema))
      (parseLines J o none taken (.initial o.schema)) := by
  rcases has with same | same
  · rw [same]
    exact .refl _
  · rw [same]
    exact parseLines_append_empty taken _

/-- A call with a limit is the call without one on the lines up to the last record within
the limit. -/
theorem parseChunk_of_firstMany (first : FirstMany (accepts J o) n (splitLines data) taken)
    {data' : Bytes} (has : HasLines data' taken) :
    parseChunk J o (some n) data = parseChunk J o none data' := by
  obtain rfl := first.unique (firstMany_takeMany (accepts J o) n (splitLines data))
  have limited := parseLines_limit (n := n) (tracks_initial J o) rfl (splitLines data)
  exact parseChunk_congr (limited.trans has.parseLines.symm)

end Call

/-- A call with the limit `n` returns what a call without a limit returns on the shortest
beginning of its lines that has `n` accepted records.  The lines behind the `n`-th record
have no part in it, and without room for a record it has nothing to deliver. -/
theorem parseChunk_limit (J : SerdeJson) (o : ParseOptions) (n : Nat) (data : Bytes) :
    (∃ taken, FirstMany (accepts J o) n (splitLines data) taken) ∧
      ∀ taken, FirstMany (accepts J o) n (splitLines data) taken →
        HasLines (joinLines taken) taken ∧
        (∀ data', HasLines data' taken →
          parseChunk J o (some n) data = parseChunk J o none data') ∧
        (∀ data', taken <+: splitLines data' → taken.countP (accepts J o) = n →
          parseChunk J o (some n) data' = parseChunk J o (some n) data) ∧
        (n = 0 → parseChunk J o (some n) data = ⟨.ok ⟨[], 0, 0⟩, []⟩) := by
  refine ⟨⟨_, firstMany_takeMany (accepts J o) n (splitLines data)⟩, ?_⟩
  intro taken first
  have joined : HasLines (joinLines taken) taken :=
    hasLines_joinLines fun line mem => newline_not_mem_of_mem_splitLines (first.starts.mem mem)
  refine ⟨joined, fun data' has => parseChunk_of_firstMany first has, ?_, ?_⟩
  · intro data' starts here
    have first' := first.of_starts starts here
    exact (parseChunk_of_firstMany first' joined).trans (parseChunk_of_firstMany first joined).symm
  · rintro rfl
    rw [parseChunk_of_firstMany first joined, first.eq_nil]
    rfl

end Parq.Parser
