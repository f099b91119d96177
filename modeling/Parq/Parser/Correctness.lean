import Parq.Parser.Reading
import Mathlib.Data.List.Forall2

/-!
# Correctness of the chunk parser

The invariant `Tracks` relates the local variables of `parse_chunk` to the lines
read so far.  One step either keeps it or ends the call for a reason that the
abstract account of a line names, and induction over the lines gives the exact
condition under which a call succeeds and what it then delivers.
-/

namespace Parq.Parser

open Parq.Data
open Parq.Sequence

/-! ## Columns -/

/-- The builder at the place of `field` holds the column of the records in
`pending`. -/
def HoldsColumn (J : SerdeJson) (pending : List Map) (field : Field) (builder : ColBuilder) :
    Prop :=
  builder.dataType = builtType field.dataType ∧ builder.cells = pending.map (cellOf J field)

/-- The builders hold the columns of the records in `pending`. -/
def Holds (J : SerdeJson) (schema : Schema) (pending : List Map) (builders : List ColBuilder) :
    Prop :=
  List.Forall₂ (HoldsColumn J pending) schema.fields builders

theorem holds_newBuilders (J : SerdeJson) (schema : Schema) :
    Holds J schema [] (newBuilders schema) := by
  apply List.forall₂_map_right_iff.mpr
  apply List.forall₂_same.mpr
  intro field _
  exact ⟨rfl, cells_new field.dataType⟩

/-- A record without a refused value adds its cells to the columns. -/
theorem appendRow_eq_ok {J : SerdeJson} {pending : List Map} {fields : List Field}
    {builders : List ColBuilder} (holds : List.Forall₂ (HoldsColumn J pending) fields builders)
    {obj : Map} (line : Nat) {ignoreErrors : Bool}
    (admitted : firstMismatch ⟨fields⟩ obj = none ∨ ignoreErrors = true) :
    ∃ next, appendRow J obj line ignoreErrors fields builders = .ok next ∧
      List.Forall₂ (HoldsColumn J (pending ++ [obj])) fields next := by
  induction holds with
  | nil => exact ⟨[], rfl, .nil⟩
  | @cons field builder fields builders column _ ih =>
      have head_admitted :
          mismatch? builder.dataType (obj.get field.name) = none ∨ ignoreErrors = true := by
        rw [column.1]
        apply admitted.imp_left
        intro none_found
        exact List.findSome?_eq_none_iff.mp none_found field List.mem_cons_self
      have rest_admitted : firstMismatch ⟨fields⟩ obj = none ∨ ignoreErrors = true := by
        apply admitted.imp_left
        intro none_found
        apply List.findSome?_eq_none_iff.mpr
        intro other mem
        exact List.findSome?_eq_none_iff.mp none_found other (List.mem_cons_of_mem field mem)
      obtain ⟨next, appended, next_type, next_cells⟩ :=
        append_eq_ok J builder (obj.get field.name) line ignoreErrors head_admitted
      obtain ⟨others, rest_appended, rest_holds⟩ := ih rest_admitted
      refine ⟨next :: others, ?_, .cons ⟨?_, ?_⟩ rest_holds⟩
      · rw [appendRow, appended]
        simp only [bind, Except.bind, rest_appended, pure, Except.pure]
      · rw [next_type, column.1]
      · rw [next_cells, column.2, column.1, List.map_append]
        rfl

/-- In strict mode the first refused value of a record ends the call. -/
theorem appendRow_eq_error {J : SerdeJson} {pending : List Map} {fields : List Field}
    {builders : List ColBuilder} (holds : List.Forall₂ (HoldsColumn J pending) fields builders)
    {obj : Map} (line : Nat) {found : Value} (refused : firstMismatch ⟨fields⟩ obj = some found) :
    appendRow J obj line false fields builders =
      .error (.typeMismatch "bool_field" "Boolean" (J.debug found) line) := by
  induction holds with
  | nil => simp [firstMismatch] at refused
  | @cons field builder fields builders column _ ih =>
      rw [appendRow]
      cases here : mismatch? builder.dataType (obj.get field.name) with
      | some value =>
          have same : value = found := by
            simpa [firstMismatch, ← column.1, here] using refused
          rw [append_eq_error J builder line here, same]
          rfl
      | none =>
          have later : firstMismatch ⟨fields⟩ obj = some found := by
            simpa [firstMismatch, ← column.1, here] using refused
          obtain ⟨next, appended, _⟩ :=
            append_eq_ok J builder (obj.get field.name) line false (.inl here)
          simp only [appended, bind, Except.bind, ih later]

/-! ## Batches -/

/-- A condition on each field with its column is a condition on each field when
the column at a field decides it. -/
theorem forall_mem_zip_iff {α β : Type} {related : α → β → Prop} {as : List α} {bs : List β}
    (all : List.Forall₂ related as bs) {holds : α × β → Prop} {rule : α → Prop}
    (agree : ∀ a b, related a b → (holds (a, b) ↔ rule a)) :
    (∀ pair ∈ as.zip bs, holds pair) ↔ ∀ a ∈ as, rule a := by
  induction all with
  | nil => simp
  | cons head _ ih =>
      simp only [List.zip_cons_cons, List.forall_mem_cons, agree _ _ head, ih]

theorem nullCount_eq_zero_iff (array : ArrayRef) :
    array.nullCount = 0 ↔ array.dataType = .null ∨ ∀ cell ∈ array.cells, cell ≠ .null := by
  cases array with
  | null len => simp [ArrayRef.nullCount, ArrayRef.dataType]
  | boolean values | int64 values | float64 values | utf8 values =>
      simp only [ArrayRef.nullCount, ArrayRef.dataType, List.count_eq_zero, reduceCtorEq, false_or]
      exact ⟨fun absent cell mem equal => absent (equal ▸ mem), fun free mem => free _ mem rfl⟩

/-- A column passes the checks of a batch on nulls and types exactly when each of
its cells is admitted in its field. -/
theorem column_admitted_iff {cells : List Cell} (nonempty : cells ≠ []) {field : Field}
    {column : ArrayRef}
    (built : column.dataType = builtType field.dataType ∧ column.cells = cells) :
    forbiddenNull (field, column) = false ∧ mistyped (field, column) = false ↔
      ∀ cell ∈ cells, AdmitsCell field cell := by
  have null_rule : forbiddenNull (field, column) = false ↔
      field.nullable = true ∨ builtType field.dataType = .null ∨ ∀ cell ∈ cells, cell ≠ .null := by
    rw [← built.1, ← built.2, ← nullCount_eq_zero_iff]
    cases nullable : field.nullable <;> simp [forbiddenNull, nullable]
  have type_rule : mistyped (field, column) = false ↔
      builtType field.dataType = field.dataType := by
    simp [mistyped, built.1]
  rw [null_rule, type_rule]
  constructor
  · rintro ⟨admits, same⟩ cell mem
    refine ⟨same, ?_⟩
    rcases admits with nullable | null_typed | filled
    · exact .inl nullable
    · exact .inr (.inl (same ▸ null_typed))
    · exact .inr (.inr (filled cell mem))
  · intro admits
    obtain ⟨first, first_mem⟩ := List.exists_mem_of_ne_nil cells nonempty
    have same := (admits first first_mem).1
    refine ⟨?_, same⟩
    by_cases free : field.nullable = true ∨ field.dataType = .null
    · exact free.imp_right fun null_typed => .inl (same.trans null_typed)
    · right
      right
      intro cell mem
      have rule := (admits cell mem).2
      tauto

section Flush

variable {J : SerdeJson} {schema : Schema} {pending : List Map} {builders : List ColBuilder}

theorem forall₂_finish (holds : Holds J schema pending builders) :
    List.Forall₂
      (fun field column => column.dataType = builtType field.dataType ∧
        column.cells = pending.map (cellOf J field))
      schema.fields (builders.map ColBuilder.finish) :=
  List.forall₂_map_right_iff.mpr holds

/-- A batch can be formed exactly when the row of every pending record can be
stored. -/
theorem tryNew_isOk_iff (holds : Holds J schema pending builders) (nonempty : pending ≠ []) :
    (∃ batch, RecordBatch.tryNew schema (builders.map ColBuilder.finish) = .ok batch) ↔
      ∀ obj ∈ pending, Writable J schema obj := by
  have columns := forall₂_finish holds
  have count := columns.length_eq
  have admitted : (∀ pair ∈ schema.fields.zip (builders.map ColBuilder.finish),
        forbiddenNull pair = false ∧ mistyped pair = false) ↔
      ∀ field ∈ schema.fields, ∀ cell ∈ pending.map (cellOf J field), AdmitsCell field cell :=
    forall_mem_zip_iff columns fun field column built =>
      column_admitted_iff (by simpa using nonempty) built
  constructor
  · rintro ⟨batch, formed⟩ obj mem
    obtain ⟨rfl, columns_eq⟩ := (RecordBatch.tryNew_eq_ok_iff _ _ batch).mp formed
    constructor
    · intro none_declared
      apply batch.nonempty
      apply List.eq_nil_of_length_eq_zero
      rw [batch.count, none_declared, List.length_nil]
    · intro field field_mem
      rw [← columns_eq] at admitted
      exact admitted.mp
        (fun pair pair_mem => ⟨batch.admitted pair pair_mem, batch.types pair pair_mem⟩)
        field field_mem _ (List.mem_map_of_mem mem)
  · intro writable
    obtain ⟨first, first_mem⟩ := List.exists_mem_of_ne_nil pending nonempty
    have declared := (writable first first_mem).1
    have checks := admitted.mpr fun field field_mem cell cell_mem => by
      rcases List.mem_map.mp cell_mem with ⟨obj, obj_mem, rfl⟩
      exact (writable obj obj_mem).2 field field_mem
    have lengths : ∀ column ∈ builders.map ColBuilder.finish, column.len = pending.length := by
      intro column mem
      rcases List.mem_iff_getElem.mp mem with ⟨i, inside, rfl⟩
      have at_field := (List.forall₂_iff_get.mp columns).2 i (by omega) inside
      rw [List.get_eq_getElem, List.get_eq_getElem] at at_field
      rw [ArrayRef.len, at_field.2, List.length_map]
    let batch : RecordBatch :=
      { schema
        columns := builders.map ColBuilder.finish
        numRows := pending.length
        nonempty := by
          intro empty
          rw [empty, List.length_nil] at count
          exact declared (List.eq_nil_of_length_eq_zero count)
        count := count.symm
        admitted := fun pair mem => (checks pair mem).1
        lengths
        types := fun pair mem => (checks pair mem).2 }
    exact ⟨batch, (RecordBatch.tryNew_eq_ok_iff _ _ _).mpr ⟨rfl, rfl⟩⟩

/-- Flushing writable records yields their rows as one batch. -/
theorem flush_eq_ok (holds : Holds J schema pending builders) (nonempty : pending ≠ [])
    (writable : ∀ obj ∈ pending, Writable J schema obj) :
    ∃ batch, flush schema builders = .ok (batch, newBuilders schema) ∧
      batch.numRows = pending.length ∧ batch.rows = pending.map (rowOf J schema) := by
  obtain ⟨batch, formed⟩ := (tryNew_isOk_iff holds nonempty).mpr writable
  obtain ⟨_, columns_eq⟩ := (RecordBatch.tryNew_eq_ok_iff _ _ batch).mp formed
  have cells : batch.columns.map ArrayRef.cells =
      schema.fields.map fun field => pending.map (cellOf J field) := by
    rw [columns_eq]
    apply Eq.symm
    apply List.forall₂_eq_eq_eq.le
    apply List.forall₂_map_left_iff.mpr
    apply List.forall₂_map_right_iff.mpr
    exact (forall₂_finish holds).imp fun _ _ column => column.2.symm
  refine ⟨batch, by rw [flush, formed], ?_⟩
  exact RecordBatch.rows_eq_map cells

/-- Flushing fails when the row of a pending record cannot be stored. -/
theorem flush_eq_error (holds : Holds J schema pending builders) (nonempty : pending ≠ [])
    (unwritable : ¬ ∀ obj ∈ pending, Writable J schema obj) :
    ∃ reason, flush schema builders = .error (.arrow reason) := by
  rw [← tryNew_isOk_iff holds nonempty] at unwritable
  cases formed : RecordBatch.tryNew schema (builders.map ColBuilder.finish) with
  | error reason => exact ⟨reason, by rw [flush, formed]⟩
  | ok batch => exact absurd ⟨batch, formed⟩ unwritable

end Flush

/-! ## The invariant of the loop -/

/-- The local variables after the lines `seen`: the records read from them are
those in the finished batches, `flushed`, followed by those in the builders,
`pending`. -/
structure Tracks (J : SerdeJson) (o : ParseOptions) (seen : List Bytes)
    (flushed pending : List Map) (s : ChunkState) : Prop where
  records : flushed ++ pending = recordsOf J o.flattenJson seen
  rows : s.batches.flatMap RecordBatch.rows = flushed.map (rowOf J o.schema)
  full : ∀ batch ∈ s.batches, batch.numRows = max o.batchSize 1
  writable : ∀ obj ∈ flushed, Writable J o.schema obj
  builders : Holds J o.schema pending s.builders
  batchRows : s.batchRows = pending.length
  room : pending.length < max o.batchSize 1
  totalOk : s.totalOk = (recordsOf J o.flattenJson seen).length
  totalSkip : s.totalSkip = (rejectedOf J seen).length
  deadLetters : s.deadLetters = if o.deadLetterTx then rejectedOf J seen else []
  accepted : ∀ line ∈ seen, lineError J o 0 line = none

section Loop

variable {J : SerdeJson} {o : ParseOptions} {seen : List Bytes}
  {flushed pending : List Map} {s : ChunkState}

theorem tracks_initial (J : SerdeJson) (o : ParseOptions) :
    Tracks J o [] [] [] (.initial o.schema) where
  records := rfl
  rows := rfl
  full := by simp [ChunkState.initial]
  writable := by simp
  builders := holds_newBuilders J o.schema
  batchRows := rfl
  room := Nat.lt_of_lt_of_le Nat.one_pos (Nat.le_max_right _ _)
  totalOk := rfl
  totalSkip := rfl
  deadLetters := by simp [ChunkState.initial, rejectedOf]
  accepted := by simp

/-- The line counter is not part of what the invariant says. -/
theorem Tracks.countLine (tracks : Tracks J o seen flushed pending s) (lineNo : Nat) :
    Tracks J o seen flushed pending { s with lineNo } :=
  { tracks with }

/-- The body of the loop in terms of the class of the line. -/
theorem lineStep_eq (J : SerdeJson) (o : ParseOptions) (limit : Option Nat) (s : ChunkState)
    (line : Bytes) :
    lineStep J o limit s line =
      if limitReached limit s.totalOk then
        .stop { s with lineNo := s.lineNo + 1 }
      else
        match classify J o.flattenJson line with
        | .blank => .next { s with lineNo := s.lineNo + 1 }
        | .rejected text source =>
            if o.ignoreErrors then
              .next (ChunkState.skip { s with lineNo := s.lineNo + 1 } o.deadLetterTx text)
            else
              .fail { s with lineNo := s.lineNo + 1 } (.jsonParse (s.lineNo + 1) source)
        | .record obj => storeRecord J o { s with lineNo := s.lineNo + 1 } obj := by
  unfold lineStep classify trimmed?
  by_cases blank : (trimAscii line).isEmpty = true
  · simp [blank]
  · simp only [blank, Bool.false_eq_true, if_false]
    cases read : J.fromSlice (trimAscii line) with
    | error e => rfl
    | ok value => cases value <;> rfl

/-- A blank line leaves the local variables as they are. -/
theorem Tracks.blank (tracks : Tracks J o seen flushed pending s) {line : Bytes}
    (read : classify J o.flattenJson line = .blank) :
    Tracks J o (seen ++ [line]) flushed pending s := by
  have no_record : record? J o.flattenJson line = none := by rw [record?, read]
  have not_rejected : rejected? J line = none := by rw [rejected?_eq J o.flattenJson, read]
  have harmless : lineError J o 0 line = none := by simp [lineError, read]
  exact
    { records := by simpa [no_record] using tracks.records
      rows := tracks.rows
      full := tracks.full
      writable := tracks.writable
      builders := tracks.builders
      batchRows := tracks.batchRows
      room := tracks.room
      totalOk := by simpa [no_record] using tracks.totalOk
      totalSkip := by simpa [not_rejected] using tracks.totalSkip
      deadLetters := by simpa [not_rejected] using tracks.deadLetters
      accepted := by simpa [or_imp, forall_and, harmless] using tracks.accepted }

/-- A rejected line is counted and quarantined. -/
theorem Tracks.skip (tracks : Tracks J o seen flushed pending s) {line text : Bytes}
    {source : JsonError} (read : classify J o.flattenJson line = .rejected text source)
    (lenient : o.ignoreErrors = true) :
    Tracks J o (seen ++ [line]) flushed pending (s.skip o.deadLetterTx text) := by
  have no_record : record? J o.flattenJson line = none := by rw [record?, read]
  have rejected : rejected? J line = some text := by rw [rejected?_eq J o.flattenJson, read]
  have harmless : lineError J o 0 line = none := by simp [lineError, lenient]
  exact
    { records := by simpa [no_record] using tracks.records
      rows := tracks.rows
      full := tracks.full
      writable := tracks.writable
      builders := tracks.builders
      batchRows := tracks.batchRows
      room := tracks.room
      totalOk := by simpa [ChunkState.skip, no_record] using tracks.totalOk
      totalSkip := by simp [ChunkState.skip, rejected, tracks.totalSkip]
      deadLetters := by
        cases sends : o.deadLetterTx <;> simp [ChunkState.skip, rejected, tracks.deadLetters, sends]
      accepted := by simpa [or_imp, forall_and, harmless] using tracks.accepted }

/-- The record of a line comes behind those read before it. -/
theorem Tracks.records_append (tracks : Tracks J o seen flushed pending s) {line : Bytes}
    {obj : Map}
    (is_record : record? J o.flattenJson line = some obj) :
    flushed ++ (pending ++ [obj]) = recordsOf J o.flattenJson (seen ++ [line]) := by
  rw [← List.append_assoc, tracks.records]
  simp [is_record]

/-- A record is stored as one more pending row; a full batch is flushed, which
fails when a row in it cannot be stored. -/
theorem Tracks.store (tracks : Tracks J o seen flushed pending s) {line : Bytes} {obj : Map}
    (read : classify J o.flattenJson line = .record obj)
    (harmless : lineError J o 0 line = none) :
    (∃ next flushed' pending', storeRecord J o s obj = .next next ∧ next.lineNo = s.lineNo ∧
        Tracks J o (seen ++ [line]) flushed' pending' next) ∨
      (∃ last reason, storeRecord J o s obj = .fail last (.arrow reason) ∧
          last.deadLetters = s.deadLetters) ∧
        (pending ++ [obj]).length = max o.batchSize 1 ∧
          ¬ ∀ record ∈ pending ++ [obj], Writable J o.schema record := by
  have is_record : record? J o.flattenJson line = some obj := by rw [record?, read]
  have not_rejected : rejected? J line = none := by rw [rejected?_eq J o.flattenJson, read]
  have admitted : firstMismatch o.schema obj = none ∨ o.ignoreErrors = true := by
    by_cases lenient : o.ignoreErrors = true
    · exact .inr lenient
    · left
      simpa [lineError, lenient, read] using harmless
  obtain ⟨builders, appended, holds⟩ := appendRow_eq_ok tracks.builders s.lineNo admitted
  have records := tracks.records_append is_record
  have totalOk : s.totalOk + 1 = (recordsOf J o.flattenJson (seen ++ [line])).length := by
    simp [tracks.totalOk, is_record]
  have totalSkip : s.totalSkip = (rejectedOf J (seen ++ [line])).length := by
    simp [tracks.totalSkip, not_rejected]
  have deadLetters : s.deadLetters =
      if o.deadLetterTx then rejectedOf J (seen ++ [line]) else [] := by
    simp [tracks.deadLetters, not_rejected]
  have accepted : ∀ other ∈ seen ++ [line], lineError J o 0 other = none := by
    simpa [or_imp, forall_and, harmless] using tracks.accepted
  have room := tracks.room
  have batchRows : s.batchRows + 1 = (pending ++ [obj]).length := by simp [tracks.batchRows]
  unfold storeRecord
  rw [appended]
  dsimp only
  by_cases batch_full : o.batchSize ≤ s.batchRows + 1
  · rw [if_pos batch_full]
    have filled : (pending ++ [obj]).length = max o.batchSize 1 := by
      have := tracks.batchRows
      omega
    by_cases writable : ∀ record ∈ pending ++ [obj], Writable J o.schema record
    · obtain ⟨batch, formed, numRows, rows⟩ := flush_eq_ok holds (by simp) writable
      left
      rw [formed]
      refine ⟨_, flushed ++ (pending ++ [obj]), [], rfl, rfl, ?_⟩
      exact
        { records := by rw [List.append_nil, records]
          rows := by rw [List.flatMap_append, tracks.rows, List.map_append]; simp [rows]
          full := by
            intro other mem
            rcases List.mem_append.mp mem with old | new
            · exact tracks.full other old
            · rw [List.mem_singleton.mp new, numRows, filled]
          writable := by
            intro record mem
            exact (List.mem_append.mp mem).elim (tracks.writable record) (writable record)
          builders := holds_newBuilders J o.schema
          batchRows := rfl
          room := Nat.lt_of_lt_of_le Nat.one_pos (Nat.le_max_right _ _)
          totalOk, totalSkip, deadLetters, accepted }
    · obtain ⟨reason, failed⟩ := flush_eq_error holds (by simp) writable
      right
      rw [failed]
      exact ⟨⟨_, reason, rfl, rfl⟩, filled, writable⟩
  · rw [if_neg batch_full]
    left
    refine ⟨_, flushed, pending ++ [obj], rfl, rfl, ?_⟩
    exact
      { records
        rows := tracks.rows
        full := tracks.full
        writable := tracks.writable
        builders := holds
        batchRows := batchRows
        room := by rw [← batchRows]; omega
        totalOk, totalSkip, deadLetters, accepted }

/-- How one pass through the loop ends, after the lines `seen`. -/
inductive Pass (J : SerdeJson) (o : ParseOptions) (limit : Option Nat) (seen : List Bytes)
    (line : Bytes) : Flow → Prop
  | stop {flushed pending : List Map} {s : ChunkState}
      (reached : limitReached limit (recordsOf J o.flattenJson seen).length = true)
      (tracks : Tracks J o seen flushed pending s) : Pass J o limit seen line (.stop s)
  | next {flushed pending : List Map} {s : ChunkState}
      (within : limitReached limit (recordsOf J o.flattenJson seen).length = false)
      (numbered : s.lineNo = (seen ++ [line]).length)
      (tracks : Tracks J o (seen ++ [line]) flushed pending s) : Pass J o limit seen line (.next s)
  | reject {s : ChunkState} {e : Error}
      (within : limitReached limit (recordsOf J o.flattenJson seen).length = false)
      (refused : lineError J o (seen.length + 1) line = some e)
      (letters : s.deadLetters = if o.deadLetterTx then rejectedOf J seen else []) :
      Pass J o limit seen line (.fail s e)
  | spoil {s : ChunkState} {reason : ArrowError}
      (within : limitReached limit (recordsOf J o.flattenJson seen).length = false)
      (harmless : lineError J o 0 line = none)
      (unwritable :
        ¬ ∀ record ∈ recordsOf J o.flattenJson (seen ++ [line]), Writable J o.schema record)
      (letters : s.deadLetters = if o.deadLetterTx then rejectedOf J (seen ++ [line]) else []) :
      Pass J o limit seen line (.fail s (.arrow reason))

/-- In strict mode a record with a refused value ends the call. -/
theorem storeRecord_eq_fail (tracks : Tracks J o seen flushed pending s)
    (strict : o.ignoreErrors = false) {obj : Map} {found : Value}
    (refused : firstMismatch o.schema obj = some found) :
    storeRecord J o s obj =
      .fail s (.typeMismatch "bool_field" "Boolean" (J.debug found) s.lineNo) := by
  rw [storeRecord, strict, appendRow_eq_error tracks.builders s.lineNo refused]

/-- One pass keeps the invariant, stops at the row limit, or fails for a reason
that the line or the records read so far give. -/
theorem lineStep_pass (tracks : Tracks J o seen flushed pending s)
    (numbered : s.lineNo = seen.length) (limit : Option Nat) (line : Bytes) :
    Pass J o limit seen line (lineStep J o limit s line) := by
  have counted := tracks.countLine (s.lineNo + 1)
  have numbered' : s.lineNo + 1 = (seen ++ [line]).length := by simp [numbered]
  rw [lineStep_eq]
  have totalOk := congrArg (limitReached limit) tracks.totalOk
  cases reached : limitReached limit (recordsOf J o.flattenJson seen).length with
  | true =>
      rw [if_pos (totalOk.trans reached)]
      exact .stop reached counted
  | false =>
      rw [if_neg (by simp [totalOk, reached])]
      cases read : classify J o.flattenJson line with
      | blank => exact .next reached numbered' (counted.blank read)
      | rejected text source =>
          by_cases lenient : o.ignoreErrors = true
          · dsimp only
            rw [if_pos lenient]
            exact .next reached numbered' (counted.skip read lenient)
          · dsimp only
            rw [if_neg lenient]
            refine .reject reached ?_ counted.deadLetters
            simp [lineError, lenient, read, numbered]
      | record obj =>
          dsimp only
          cases refused : lineError J o (seen.length + 1) line with
          | some e =>
              cases lenient : o.ignoreErrors with
              | true => simp [lineError, lenient] at refused
              | false =>
                  simp only [lineError, lenient, Bool.false_eq_true, if_false, read,
                    Option.map_eq_some_iff] at refused
                  rcases refused with ⟨found, mismatch, rfl⟩
                  rw [storeRecord_eq_fail counted lenient mismatch]
                  refine .reject reached ?_ counted.deadLetters
                  simp [lineError, lenient, read, mismatch, numbered]
          | none =>
              have harmless := (lineError_eq_none_iff J o _ line).mp refused
              rcases counted.store read harmless with
                ⟨next, flushed', pending', stored, lineNo, tracks'⟩ |
                ⟨⟨last, reason, failed, letters⟩, _, unwritable⟩
              · rw [stored]
                exact .next reached (lineNo.trans numbered') tracks'
              · rw [failed]
                have is_record : record? J o.flattenJson line = some obj := by rw [record?, read]
                have not_rejected : rejected? J line = none := by
                  rw [rejected?_eq J o.flattenJson, read]
                refine .spoil reached harmless ?_
                  (by simp [letters, tracks.deadLetters, not_rejected])
                rw [← tracks.records_append is_record]
                exact fun all => unwritable fun record mem =>
                  all record (List.mem_append_right flushed mem)

/-! ## The whole call -/

/-- How the loop over the lines ends, when the row limit lets it read `lines`. -/
inductive Ended (J : SerdeJson) (o : ParseOptions) (lines : List Bytes) :
    ChunkState × Option Error → Prop
  | read {flushed pending : List Map} {s : ChunkState}
      (tracks : Tracks J o lines flushed pending s) : Ended J o lines (s, none)
  | reject {before after : List Bytes} {line : Bytes} {s : ChunkState} {e : Error}
      (split : lines = before ++ line :: after)
      (accepted : ∀ other ∈ before, lineError J o 0 other = none)
      (refused : lineError J o (before.length + 1) line = some e)
      (letters : s.deadLetters = if o.deadLetterTx then rejectedOf J before else []) :
      Ended J o lines (s, some e)
  | spoil {before after : List Bytes} {s : ChunkState} {reason : ArrowError}
      (split : lines = before ++ after)
      (accepted : ∀ other ∈ before, lineError J o 0 other = none)
      (unwritable : ¬ ∀ record ∈ recordsOf J o.flattenJson before, Writable J o.schema record)
      (letters : s.deadLetters = if o.deadLetterTx then rejectedOf J before else []) :
      Ended J o lines (s, some (.arrow reason))

theorem parseLines_ended (tracks : Tracks J o seen flushed pending s)
    (numbered : s.lineNo = seen.length) (limit : Option Nat) (lines : List Bytes) :
    Ended J o
      (seen ++ considered J o.flattenJson limit (recordsOf J o.flattenJson seen).length lines)
      (parseLines J o limit lines s) := by
  induction lines generalizing seen flushed pending s with
  | nil =>
      rw [considered, List.append_nil]
      exact .read tracks
  | cons line lines ih =>
      have pass := lineStep_pass tracks numbered limit line
      rw [parseLines, considered]
      generalize lineStep J o limit s line = flow at pass
      cases pass with
      | stop reached tracks' =>
          rw [if_pos reached, List.append_nil]
          exact .read tracks'
      | next within numbered' tracks' =>
          have rest := ih tracks' numbered'
          rw [if_neg (by simp [within])]
          simpa using rest
      | reject within refused letters =>
          rw [if_neg (by simp [within])]
          exact .reject rfl tracks.accepted refused letters
      | spoil within harmless unwritable letters =>
          rw [if_neg (by simp [within])]
          refine .spoil (List.append_cons _ _ _) ?_ unwritable letters
          simpa [or_imp, forall_and, harmless] using tracks.accepted

/-- The end of a call flushes the pending rows: it fails exactly when one of them
cannot be stored, and otherwise the call delivers all lines read. -/
theorem Tracks.finish {lines : List Bytes} (tracks : Tracks J o lines flushed pending s) :
    (∃ parsed, finishChunk o.schema s = .ok parsed ∧ Delivers J o lines parsed ∧
        ∀ record ∈ recordsOf J o.flattenJson lines, Writable J o.schema record) ∨
      (∃ reason, finishChunk o.schema s = .error (.arrow reason)) ∧
        ¬ ∀ record ∈ recordsOf J o.flattenJson lines, Writable J o.schema record := by
  have records := tracks.records
  unfold finishChunk
  rw [tracks.batchRows]
  by_cases nonempty : pending = []
  · subst nonempty
    rw [List.append_nil] at records
    left
    rw [if_neg (by simp)]
    refine ⟨_, rfl, ?_, records ▸ tracks.writable⟩
    exact
      { rows := by rw [← records, ← tracks.rows]
        rowsOk := tracks.totalOk
        rowsSkipped := tracks.totalSkip
        full := fun batch mem => tracks.full batch (List.dropLast_subset _ mem)
        sizes := by
          intro batch mem
          rw [tracks.full batch mem]
          exact ⟨Nat.le_max_right _ _, Nat.le_refl _⟩ }
  · rw [if_pos (List.length_pos_iff.mpr nonempty)]
    by_cases writable : ∀ record ∈ pending, Writable J o.schema record
    · obtain ⟨batch, formed, numRows, rows⟩ := flush_eq_ok tracks.builders nonempty writable
      left
      rw [formed]
      refine ⟨_, rfl, ?_, ?_⟩
      · exact
          { rows := by
              rw [List.flatMap_append, tracks.rows, ← records, List.map_append]
              simp [rows]
            rowsOk := tracks.totalOk
            rowsSkipped := tracks.totalSkip
            full := by
              intro other mem
              exact tracks.full other (by simpa using mem)
            sizes := by
              intro other mem
              rcases List.mem_append.mp mem with old | new
              · rw [tracks.full other old]
                exact ⟨Nat.le_max_right _ _, Nat.le_refl _⟩
              · rw [List.mem_singleton.mp new, numRows]
                exact ⟨List.length_pos_iff.mpr nonempty, tracks.room.le⟩ }
      · intro record mem
        rw [← records] at mem
        exact (List.mem_append.mp mem).elim (tracks.writable record) (writable record)
    · obtain ⟨reason, failed⟩ := flush_eq_error tracks.builders nonempty writable
      right
      rw [failed]
      refine ⟨⟨reason, rfl⟩, ?_⟩
      intro all
      apply writable
      intro record mem
      exact all record (records ▸ List.mem_append_right flushed mem)

end Loop

/-- How a call ends, when the row limit lets it read `lines`: it delivers them,
or one of them ends it, or a row that cannot be stored does. -/
inductive CallOutcome (J : SerdeJson) (o : ParseOptions) (lines : List Bytes) :
    ChunkOutcome → Prop
  | ok {parsed : Parsed} (lineOk : ∀ line ∈ lines, LineOk J o line)
      (delivers : Delivers J o lines parsed) :
      CallOutcome J o lines ⟨.ok parsed, if o.deadLetterTx then rejectedOf J lines else []⟩
  | reject {before after : List Bytes} {line : Bytes} {e : Error}
      (split : lines = before ++ line :: after)
      (accepted : ∀ other ∈ before, lineError J o 0 other = none)
      (refused : lineError J o (before.length + 1) line = some e) :
      CallOutcome J o lines ⟨.error e, if o.deadLetterTx then rejectedOf J before else []⟩
  | spoil {before after : List Bytes} {reason : ArrowError}
      (split : lines = before ++ after)
      (accepted : ∀ other ∈ before, lineError J o 0 other = none)
      (unwritable : ¬ ∀ record ∈ recordsOf J o.flattenJson before, Writable J o.schema record) :
      CallOutcome J o lines
        ⟨.error (.arrow reason), if o.deadLetterTx then rejectedOf J before else []⟩

/-- Every line is acceptable when none ends the call and every record among them
can be stored. -/
theorem lineOk_of_writable {J : SerdeJson} {o : ParseOptions} {lines : List Bytes}
    (accepted : ∀ line ∈ lines, lineError J o 0 line = none)
    (writable : ∀ record ∈ recordsOf J o.flattenJson lines, Writable J o.schema record) :
    ∀ line ∈ lines, LineOk J o line := by
  intro line mem
  refine ⟨accepted line mem, ?_⟩
  intro obj read
  exact writable obj (List.mem_filterMap.mpr ⟨line, mem, read⟩)

theorem parseChunk_outcome (J : SerdeJson) (o : ParseOptions) (limit : Option Nat)
    (data : Bytes) :
    CallOutcome J o (considered J o.flattenJson limit 0 (splitLines data))
      (parseChunk J o limit data) := by
  have ended := parseLines_ended (tracks_initial J o) rfl limit (splitLines data)
  rw [recordsOf_nil, List.length_nil, List.nil_append] at ended
  unfold parseChunk
  generalize parseLines J o limit (splitLines data) (.initial o.schema) = last at ended
  cases ended with
  | read tracks =>
      dsimp only
      rw [tracks.deadLetters]
      rcases tracks.finish
        with ⟨parsed, finished, delivers, writable⟩ | ⟨⟨reason, failed⟩, unwritable⟩
      · rw [finished]
        exact .ok (lineOk_of_writable tracks.accepted writable) delivers
      · rw [failed]
        exact .spoil (List.append_nil _).symm tracks.accepted unwritable
  | reject split accepted refused letters =>
      dsimp only
      rw [letters]
      exact .reject split accepted refused
  | spoil split accepted unwritable letters =>
      dsimp only
      rw [letters]
      exact .spoil split accepted unwritable

/-! ## Consequences -/

section Call

variable {J : SerdeJson} {o : ParseOptions} {limit : Option Nat} {data : Bytes}

/-- A call that succeeds delivers the lines it reads and quarantines the rejected
ones among them. -/
theorem parseChunk_eq_ok {parsed : Parsed}
    (succeeded : (parseChunk J o limit data).result = .ok parsed) :
    Delivers J o (considered J o.flattenJson limit 0 (splitLines data)) parsed ∧
      (parseChunk J o limit data).deadLetters =
        if o.deadLetterTx then
          rejectedOf J (considered J o.flattenJson limit 0 (splitLines data))
        else [] := by
  have outcome := parseChunk_outcome J o limit data
  generalize parseChunk J o limit data = call at outcome succeeded
  cases outcome with
  | ok _ delivers =>
      cases succeeded
      exact ⟨delivers, rfl⟩
  | reject | spoil => cases succeeded

/-- A call succeeds exactly when every line it reads is acceptable. -/
theorem parseChunk_isOk_iff :
    (∃ parsed, (parseChunk J o limit data).result = .ok parsed) ↔
      ∀ line ∈ considered J o.flattenJson limit 0 (splitLines data), LineOk J o line := by
  have outcome := parseChunk_outcome J o limit data
  generalize parseChunk J o limit data = call at outcome
  cases outcome with
  | @ok parsed lineOk _ => exact ⟨fun _ => lineOk, fun _ => ⟨parsed, rfl⟩⟩
  | @reject before after line e split accepted refused =>
      constructor
      · rintro ⟨_, contradicted⟩
        cases contradicted
      · intro lineOk
        have harmless := (lineOk line (by simp [split])).1
        rw [← lineError_eq_none_iff J o (before.length + 1), refused] at harmless
        cases harmless
  | @spoil before after reason split accepted unwritable =>
      constructor
      · rintro ⟨_, contradicted⟩
        cases contradicted
      · intro lineOk
        refine absurd ?_ unwritable
        intro record mem
        rcases List.mem_filterMap.mp mem with ⟨line, line_mem, read⟩
        exact (lineOk line (by simp [split, line_mem])).2 record read

/-- The first line that ends the call gives its error, when the rows before it can
be stored. -/
theorem parseChunk_eq_error {before after : List Bytes} {line : Bytes} {e : Error}
    (split : considered J o.flattenJson limit 0 (splitLines data) = before ++ line :: after)
    (accepted : ∀ other ∈ before, LineOk J o other)
    (refused : lineError J o (before.length + 1) line = some e) :
    (parseChunk J o limit data).result = .error e := by
  have outcome := parseChunk_outcome J o limit data
  have ends : ∀ {lineNo other e}, lineError J o lineNo other = some e →
      ¬ lineError J o 0 other = none := by
    intro lineNo other e refused
    rw [← lineError_eq_none_iff J o lineNo, refused]
    exact Option.some_ne_none e
  generalize parseChunk J o limit data = call at outcome
  cases outcome with
  | ok lineOk _ => exact absurd (lineOk line (by simp [split])).1 (ends refused)
  | reject split' accepted' refused' =>
      obtain ⟨rfl, rfl⟩ := first_bad_unique (split.symm.trans split')
        (fun other mem => (accepted other mem).1) (ends refused) accepted' (ends refused')
      exact congrArg Except.error (Option.some.inj (refused'.symm.trans refused))
  | spoil split' accepted' unwritable =>
      refine absurd ?_ unwritable
      intro record mem
      rcases List.mem_filterMap.mp mem with ⟨other, other_mem, read⟩
      have earlier := prefix_of_forall (split.symm.trans split') (ends refused) accepted'
      exact (accepted other (earlier.mem other_mem)).2 record read

/-- No line ends a call with an Arrow error. -/
theorem lineError_ne_arrow (J : SerdeJson) (o : ParseOptions) (lineNo : Nat) (line : Bytes)
    (reason : ArrowError) : lineError J o lineNo line ≠ some (.arrow reason) := by
  intro refused
  rcases lineError_cases refused with ⟨_, _, _, about_line⟩ | ⟨_, _, _, _, about_line⟩
  · cases about_line
  · cases about_line

/-- An Arrow error comes from a record whose row cannot be stored. -/
theorem unwritable_of_parseChunk_eq_arrow {reason : ArrowError}
    (failed : (parseChunk J o limit data).result = .error (.arrow reason)) :
    ∃ line ∈ splitLines data, ∃ record, record? J o.flattenJson line = some record ∧
      ¬ Writable J o.schema record := by
  have outcome := parseChunk_outcome J o limit data
  generalize parseChunk J o limit data = call at outcome failed
  cases outcome with
  | ok => cases failed
  | reject split accepted refused =>
      cases failed
      exact absurd refused (lineError_ne_arrow J o _ _ reason)
  | spoil split accepted unwritable =>
      simp only [not_forall] at unwritable
      rcases unwritable with ⟨record, mem, unwritable⟩
      rcases List.mem_filterMap.mp mem with ⟨line, line_mem, read⟩
      refine ⟨line, ?_, record, read, unwritable⟩
      apply considered_subset J o.flattenJson limit 0
      rw [split]
      exact List.mem_append_left _ line_mem

end Call

end Parq.Parser
