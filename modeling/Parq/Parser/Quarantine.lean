import Parq.Parser.Correctness

/-!
# Accepted and rejected lines

The non-blank lines divide into accepted and rejected ones.  The rejected lines,
written one a line, are again the lines of a file, and a lenient call on that file
rejects them all.
-/

namespace Parq.Parser

open Parq.Data
open Parq.Sequence

/-- The trimmed text of a line that is a record. -/
def accepted? (J : SerdeJson) (line : Bytes) : Option Bytes :=
  match classify J false line with
  | .record _ => trimmed? line
  | _ => none

/-- The accepted lines, trimmed. -/
def acceptedOf (J : SerdeJson) (lines : List Bytes) : List Bytes :=
  lines.filterMap (accepted? J)

/-- The bytes of a dead-letter file. -/
def letterFile (letters : List Bytes) : Bytes :=
  letters.flatMap (· ++ [newline])

/-! ## The non-blank lines -/

/-- A rejected line keeps its trimmed text. -/
theorem trimmed?_of_rejected? {J : SerdeJson} {line text : Bytes}
    (rejected : rejected? J line = some text) : trimmed? line = some text := by
  unfold rejected? classify at rejected
  cases nonblank : trimmed? line with
  | none => simp [nonblank] at rejected
  | some own =>
      cases read : J.fromSlice own with
      | error e => simpa [nonblank, read] using rejected
      | ok value => cases value <;> simp_all

/-- Trimming and rejecting again changes nothing. -/
theorem rejected?_text {J : SerdeJson} {line text : Bytes}
    (rejected : rejected? J line = some text) :
    rejected? J text = some text := by
  have nonblank := trimmed?_of_rejected? rejected
  have again : trimmed? text = trimmed? line := by
    obtain ⟨rfl, nonempty⟩ := trimmed?_eq_some_iff.mp nonblank
    rw [nonblank]
    exact trimmed?_eq_some_iff.mpr ⟨trimAscii_trimAscii line, nonempty⟩
  unfold rejected? classify at rejected ⊢
  rwa [again]

/-- A rejected line is no record. -/
theorem record?_of_rejected? {J : SerdeJson} {line text : Bytes} (flattenJson : Bool)
    (rejected : rejected? J line = some text) : record? J flattenJson line = none := by
  rw [rejected?_eq J flattenJson] at rejected
  unfold record?
  cases read : classify J flattenJson line with
  | record obj => simp [read] at rejected
  | _ => rfl

/-- A line is non-blank exactly when it is accepted or rejected, and then not
both. -/
theorem trimmed?_cases (J : SerdeJson) (line : Bytes) :
    trimmed? line = accepted? J line ∧ rejected? J line = none ∨
      trimmed? line = rejected? J line ∧ accepted? J line = none := by
  unfold accepted? rejected? classify
  cases nonblank : trimmed? line with
  | none => simp
  | some text =>
      cases read : J.fromSlice text with
      | error e => simp [read]
      | ok value => cases value <;> simp [read]

/-- The accepted and the rejected lines are the non-blank ones. -/
theorem acceptedOf_append_rejectedOf_perm (J : SerdeJson) (lines : List Bytes) :
    (acceptedOf J lines ++ rejectedOf J lines).Perm (lines.filterMap trimmed?) := by
  induction lines with
  | nil => exact .refl _
  | cons line lines ih =>
      rcases trimmed?_cases J line with ⟨accepted, kept⟩ | ⟨rejected, refused⟩
      · cases text : accepted? J line with
        | none => simpa [acceptedOf, rejectedOf, accepted, text, kept] using ih
        | some text' => simpa [acceptedOf, rejectedOf, accepted, text, kept] using ih
      · cases text : rejected? J line with
        | none => simpa [acceptedOf, rejectedOf, rejected, text, refused] using ih
        | some text' =>
            simp only [acceptedOf, rejectedOf, List.filterMap_cons, rejected, text, refused]
            exact List.perm_middle.trans (ih.cons text')

/-- Every accepted line is one record. -/
theorem length_acceptedOf (J : SerdeJson) (flattenJson : Bool) (lines : List Bytes) :
    (acceptedOf J lines).length = (recordsOf J flattenJson lines).length := by
  have same (line : Bytes) : (accepted? J line).isSome = (record? J flattenJson line).isSome := by
    unfold accepted? record? classify
    cases nonblank : trimmed? line with
    | none => rfl
    | some text =>
        cases read : J.fromSlice text with
        | error e => simp [read]
        | ok value => cases value <;> simp [read]
  rw [acceptedOf, recordsOf, List.length_filterMap_eq_countP, List.length_filterMap_eq_countP]
  simp only [same]

/-- Every non-blank line is a record or rejected. -/
theorem length_recordsOf_add_rejectedOf (J : SerdeJson) (flattenJson : Bool) (lines : List Bytes) :
    (recordsOf J flattenJson lines).length + (rejectedOf J lines).length =
      (lines.filterMap trimmed?).length := by
  rw [← length_acceptedOf J flattenJson, ← List.length_append]
  exact (acceptedOf_append_rejectedOf_perm J lines).length_eq

/-! ## Reading a dead-letter file -/

theorem newline_not_mem_of_rejected {J : SerdeJson} {data text : Bytes}
    (mem : text ∈ rejectedOf J (splitLines data)) : newline ∉ text := by
  rcases List.mem_filterMap.mp mem with ⟨line, line_mem, rejected⟩
  apply newline_not_mem_of_mem_nonBlankLines
  exact List.mem_filterMap.mpr ⟨line, line_mem, trimmed?_of_rejected? rejected⟩

/-- The lines of a dead-letter file are the letters, and the empty one at its
end. -/
theorem splitLines_letterFile {letters : List Bytes} (free : ∀ text ∈ letters, newline ∉ text) :
    splitLines (letterFile letters) = letters ++ [[]] :=
  splitOn_flatMap_terminate free

/-- A call that reads no record returns no batch. -/
theorem Delivers.batches_eq_nil {J : SerdeJson} {o : ParseOptions} {lines : List Bytes}
    {parsed : Parsed} (delivers : Delivers J o lines parsed)
    (barren : recordsOf J o.flattenJson lines = []) : parsed.batches = [] := by
  have rows := delivers.rows
  rw [barren, List.map_nil, List.flatMap_eq_nil_iff] at rows
  apply List.eq_nil_iff_forall_not_mem.mpr
  intro batch mem
  have size := (delivers.sizes batch mem).1
  rw [← RecordBatch.length_rows, rows batch mem] at size
  cases size

/-- A lenient call accepts lines none of which is a record, and quarantines the
rejected ones. -/
theorem parseChunk_of_barren {J : SerdeJson} {o : ParseOptions} (lenient : o.ignoreErrors = true)
    {data : Bytes} (barren : recordsOf J o.flattenJson (splitLines data) = []) :
    (parseChunk J o none data).result = .ok ⟨[], 0, (rejectedOf J (splitLines data)).length⟩ ∧
      (parseChunk J o none data).deadLetters =
        if o.deadLetterTx then rejectedOf J (splitLines data) else [] := by
  have acceptable : ∀ line ∈ considered J o.flattenJson none 0 (splitLines data),
      LineOk J o line := by
    intro line mem
    rw [considered_none] at mem
    constructor
    · simp [lineError, lenient]
    · intro obj read
      have present : obj ∈ recordsOf J o.flattenJson (splitLines data) :=
        List.mem_filterMap.mpr ⟨line, mem, read⟩
      rw [barren] at present
      cases present
  obtain ⟨⟨batches, rowsOk, rowsSkipped⟩, succeeded⟩ := parseChunk_isOk_iff.mpr acceptable
  obtain ⟨delivers, letters⟩ := parseChunk_eq_ok succeeded
  rw [considered_none] at delivers letters
  obtain rfl : batches = [] := delivers.batches_eq_nil barren
  obtain rfl : rowsOk = 0 := by simpa [barren] using delivers.rowsOk
  obtain rfl : rowsSkipped = _ := delivers.rowsSkipped
  exact ⟨succeeded, letters⟩

/-- A lenient call on a dead-letter file accepts no row and rejects each line
again. -/
theorem parseChunk_letterFile {J : SerdeJson} {o : ParseOptions} (lenient : o.ignoreErrors = true)
    {letters : List Bytes} (free : ∀ text ∈ letters, newline ∉ text)
    (rejected : ∀ text ∈ letters, rejected? J text = some text) :
    (parseChunk J o none (letterFile letters)).result = .ok ⟨[], 0, letters.length⟩ ∧
      (parseChunk J o none (letterFile letters)).deadLetters =
        if o.deadLetterTx then letters else [] := by
  have lines := splitLines_letterFile free
  have barren : recordsOf J o.flattenJson (splitLines (letterFile letters)) = [] := by
    rw [lines, recordsOf_append, recordsOf_cons, record?_nil]
    simpa [recordsOf, List.filterMap_eq_nil_iff] using
      fun text mem => record?_of_rejected? o.flattenJson (rejected text mem)
  have again : rejectedOf J (splitLines (letterFile letters)) = letters := by
    have each : rejectedOf J letters = letters.filterMap some := List.filterMap_congr rejected
    rw [lines, rejectedOf_append, rejectedOf_cons, rejected?_nil]
    simp [each]
  have outcome := parseChunk_of_barren lenient barren
  rwa [again] at outcome

end Parq.Parser
