import Parq.Parser.Reading
import Parq.Schema.Ladder

/-!
# What inference computes

The schema inferred from a sample has one nullable field for each key with a
non-null value in the sampled records, typed by the supremum of the types of
these values.  Inference fails on the first sampled line that is not JSON, and on
a sample without a non-blank line.
-/

namespace Parq.Schema

open Parq.Data
open Parq.Parser
open Parq.Sequence

/-! ## The fold over the members -/

/-- The state after the members `entries` of the sampled records. -/
structure Inferred (entries : List (String × Value)) (s : InferState) : Prop where
  types : ∀ key, (s.fieldTypes key).getD .null = (columnRung entries key).dataType
  known : ∀ key, s.fieldTypes key = none → columnRung entries key = ⊥
  nodup : s.fieldOrder.Nodup
  mem_order : ∀ key, key ∈ s.fieldOrder ↔ columnRung entries key ≠ ⊥

theorem inferred_initial : Inferred [] .initial where
  types _ := rfl
  known _ _ := rfl
  nodup := List.nodup_nil
  mem_order key := by simp [InferState.initial]

theorem Inferred.promote_eq {entries : List (String × Value)} {s : InferState}
    (inferred : Inferred entries s) (key : String) (val : Value) :
    promote ((s.fieldTypes key).getD .null) val =
      (columnRung entries key ⊔ rungOf val).dataType := by
  rw [promote, inferred.types, valueType_eq, merge_dataType]

/-- The first value of a key is the one that gives it a type. -/
theorem Inferred.first_type_iff {entries : List (String × Value)} {s : InferState}
    (inferred : Inferred entries s) (key : String) (val : Value) :
    (s.fieldTypes key).getD .null = .null ∧ promote ((s.fieldTypes key).getD .null) val ≠ .null ↔
      columnRung entries key = ⊥ ∧ columnRung entries key ⊔ rungOf val ≠ ⊥ := by
  rw [inferred.promote_eq, inferred.types, Ne, Rung.dataType_eq_null_iff, Rung.dataType_eq_null_iff]

/-- One member promotes the type of its key and adds the key to the order when it
gets its first type. -/
theorem Inferred.member {entries : List (String × Value)} {s : InferState}
    (inferred : Inferred entries s) (entry : String × Value) :
    Inferred (entries ++ [entry]) (s.member entry) := by
  rcases entry with ⟨key, val⟩
  have promoted := inferred.promote_eq key val
  have first_type := inferred.first_type_iff key val
  constructor
  · intro other
    rw [columnRung_concat]
    by_cases same : key = other
    · subst same
      simp [InferState.member, promoted]
    · simp [InferState.member, same, Function.update_of_ne (Ne.symm same), inferred.types other]
  · intro other absent
    rw [columnRung_concat]
    by_cases same : key = other
    · subst same
      simp [InferState.member] at absent
    · rw [if_neg same]
      apply inferred.known other
      simpa [InferState.member, Function.update_of_ne (Ne.symm same)] using absent
  · simp only [InferState.member, first_type]
    split
    · rename_i fresh
      apply List.nodup_append.mpr
      refine ⟨inferred.nodup, List.nodup_singleton key, ?_⟩
      intro other mem new new_mem equal
      rw [equal, List.mem_singleton.mp new_mem] at mem
      exact (inferred.mem_order key).mp mem fresh.1
    · exact inferred.nodup
  · intro other
    simp only [InferState.member, first_type]
    rw [columnRung_concat]
    have before := inferred.mem_order other
    split
    · rename_i fresh
      rw [List.mem_append, List.mem_singleton, before]
      by_cases same : key = other
      · subst same
        simp [fresh.2]
      · simp [same, Ne.symm same]
    · rename_i stale
      rw [before]
      by_cases same : key = other
      · subst same
        simp only [not_and_or, not_not] at stale
        simp only [if_true, Ne, sup_eq_bot_iff] at stale ⊢
        tauto
      · simp [same]

theorem Inferred.foldl_member {entries : List (String × Value)} {s : InferState}
    (inferred : Inferred entries s) (more : List (String × Value)) :
    Inferred (entries ++ more) (more.foldl InferState.member s) := by
  induction more generalizing entries s with
  | nil => simpa using inferred
  | cons entry more ih =>
      rw [List.foldl_cons, List.append_cons]
      exact ih (inferred.member entry)

/-! ## The loop over the lines -/

/-- A line that is not JSON. -/
def Unreadable (J : SerdeJson) (line : Bytes) : Prop :=
  ∃ text e, trimmed? line = some text ∧ J.fromSlice text = .error e

/-- The members of the records among the lines. -/
def membersOf (J : SerdeJson) (lines : List Bytes) : List (String × Value) :=
  (recordsOf J false lines).flatten

/-- The members of the sampled records are what their keys look up. -/
theorem mem_membersOf_iff {J : SerdeJson} {lines : List Bytes} {key : String} {value : Value} :
    (key, value) ∈ membersOf J lines ↔
      ∃ record ∈ recordsOf J false lines, Map.get record key = some value := by
  rw [membersOf, List.mem_flatten]
  apply exists_congr
  intro record
  rw [and_congr_right_iff]
  intro mem
  rcases List.mem_filterMap.mp mem with ⟨line, _, read⟩
  obtain ⟨text, _, parsed⟩ := (record?_false_eq_some_iff J line record).mp read
  exact (Map.get_eq_some_iff (J.fromSlice_sorted parsed).1).symm

/-- How the loop over the lines ends. -/
inductive Scanned (J : SerdeJson) (lines : List Bytes) : Except Error InferState → Prop
  | read {s : InferState} (readable : ∀ line ∈ lines, ¬ Unreadable J line)
      (inferred : Inferred (membersOf J lines) s)
      (rowsSeen : s.rowsSeen = (lines.filterMap trimmed?).length) : Scanned J lines (.ok s)
  | refuse {before after : List Bytes} {line text : Bytes} {e : JsonError}
      (split : lines = before ++ line :: after)
      (readable : ∀ other ∈ before, ¬ Unreadable J other)
      (nonblank : trimmed? line = some text) (refused : J.fromSlice text = .error e) :
      Scanned J lines (.error (.jsonParse ((before.filterMap trimmed?).length + 1) e))

theorem Inferred.sampled {J : SerdeJson} {seen : List Bytes} {s : InferState}
    (inferred : Inferred (membersOf J seen) s) {line text : Bytes} {value : Value}
    (nonblank : trimmed? line = some text) (read : J.fromSlice text = .ok value) (rowsSeen : Nat) :
    Inferred (membersOf J (seen ++ [line])) { s.sampled value with rowsSeen } := by
  have members : membersOf J (seen ++ [line]) =
      membersOf J seen ++ (record? J false line).toList.flatten := by
    simp [membersOf]
  rw [members, record?_eq, nonblank, Option.bind_some, SerdeJson.object?, read]
  cases value with
  | object obj =>
      have folded := inferred.foldl_member obj
      simpa [dispatched] using
        { folded with : Inferred _ { s.sampled (.object obj) with rowsSeen } }
  | _ =>
      simpa [InferState.sampled] using { inferred with : Inferred _ { s with rowsSeen } }

theorem inferLines_scanned {J : SerdeJson} {seen : List Bytes} {s : InferState}
    (readable : ∀ line ∈ seen, ¬ Unreadable J line) (inferred : Inferred (membersOf J seen) s)
    (rowsSeen : s.rowsSeen = (seen.filterMap trimmed?).length) (lines : List Bytes) :
    Scanned J (seen ++ lines) (inferLines J lines s) := by
  induction lines generalizing seen s with
  | nil =>
      rw [List.append_nil]
      exact .read readable inferred rowsSeen
  | cons line lines ih =>
      rw [inferLines, inferLine, List.append_cons]
      cases nonblank : trimmed? line with
      | none =>
          have blank := trimmed?_eq_none_iff.mp nonblank
          have readable' : ∀ other ∈ seen ++ [line], ¬ Unreadable J other := by
            simpa [or_imp, forall_and, Unreadable, nonblank] using readable
          have no_record : record? J false line = none := by simp [record?_eq, nonblank]
          simp only [blank, List.isEmpty_nil, if_true]
          apply ih readable'
          · simpa [membersOf, no_record] using inferred
          · simpa [nonblank] using rowsSeen
      | some text =>
          obtain ⟨rfl, nonempty⟩ := trimmed?_eq_some_iff.mp nonblank
          dsimp only
          rw [if_neg (by simpa using nonempty)]
          cases read : J.fromSlice (trimAscii line) with
          | error e =>
              dsimp only
              rw [rowsSeen, ← List.append_cons]
              exact .refuse rfl readable nonblank read
          | ok value =>
              apply ih
              · have fine : ¬ Unreadable J line := by simp [Unreadable, nonblank, read]
                simpa [or_imp, forall_and, fine] using readable
              · exact inferred.sampled nonblank read _
              · simp [nonblank, rowsSeen]

/-! ## The inferred schema -/

/-- The schema that a sample of lines determines, with its fields in the order of
their first non-null values. -/
structure Determines (J : SerdeJson) (sample : List Bytes) (schema : Schema) : Prop where
  typed : ∀ field ∈ schema.fields,
    field.dataType = (columnRung (membersOf J sample) field.name).dataType ∧ field.nullable = true
  named : ∀ key, key ∈ schema.fields.map Field.name ↔ columnRung (membersOf J sample) key ≠ ⊥
  nodup : (schema.fields.map Field.name).Nodup

/-- How `infer_schema` ends. -/
inductive InferOutcome (J : SerdeJson) (sample : List Bytes) : Except Error Schema → Prop
  | ok {schema : Schema} (readable : ∀ line ∈ sample, ¬ Unreadable J line)
      (nonblank : sample.filterMap trimmed? ≠ []) (determines : Determines J sample schema) :
      InferOutcome J sample (.ok schema)
  | empty (blank : sample.filterMap trimmed? = []) :
      InferOutcome J sample (.error (.insufficientData 0))
  | refuse {before after : List Bytes} {line text : Bytes} {e : JsonError}
      (split : sample = before ++ line :: after)
      (readable : ∀ other ∈ before, ¬ Unreadable J other)
      (nonblank : trimmed? line = some text) (refused : J.fromSlice text = .error e) :
      InferOutcome J sample (.error (.jsonParse ((before.filterMap trimmed?).length + 1) e))

theorem Inferred.determines {J : SerdeJson} {sample : List Bytes} {s : InferState}
    (inferred : Inferred (membersOf J sample) s) :
    Determines J sample
      ⟨s.fieldOrder.map fun name => ⟨name, (s.fieldTypes name).getD .utf8, true⟩⟩ := by
  have names : (s.fieldOrder.map fun name =>
      (⟨name, (s.fieldTypes name).getD .utf8, true⟩ : Field)).map Field.name = s.fieldOrder := by
    simp [Function.comp_def]
  constructor
  · intro field mem
    rcases List.mem_map.mp mem with ⟨name, name_mem, rfl⟩
    refine ⟨?_, rfl⟩
    have typed := inferred.types name
    cases known : s.fieldTypes name with
    | none => exact absurd (inferred.known name known) ((inferred.mem_order name).mp name_mem)
    | some dataType =>
        rw [known, Option.getD_some] at typed
        exact typed
  · intro key
    rw [names]
    exact inferred.mem_order key
  · rw [names]
    exact inferred.nodup

theorem inferSchema_outcome (J : SerdeJson) (data : Bytes) (sampleSize : Nat) :
    InferOutcome J (sampleLines data sampleSize) (inferSchema J data sampleSize) := by
  have scanned : Scanned J (sampleLines data sampleSize)
      (inferLines J (sampleLines data sampleSize) .initial) :=
    inferLines_scanned (List.forall_mem_nil _) inferred_initial rfl _
  unfold inferSchema
  generalize inferLines J (sampleLines data sampleSize) .initial = ending at scanned
  cases scanned with
  | @read s readable inferred rowsSeen =>
      dsimp only
      rw [rowsSeen]
      split
      · rename_i none_seen
        exact .empty (List.eq_nil_of_length_eq_zero none_seen)
      · rename_i some_seen
        refine .ok readable ?_ inferred.determines
        intro blank
        simp [blank] at some_seen
  | refuse split readable nonblank refused => exact .refuse split readable nonblank refused

section Outcome

variable {J : SerdeJson} {data : Bytes} {sampleSize : Nat}

theorem determines_of_inferSchema {schema : Schema}
    (inferred : inferSchema J data sampleSize = .ok schema) :
    Determines J (sampleLines data sampleSize) schema := by
  have outcome := inferSchema_outcome J data sampleSize
  rw [inferred] at outcome
  cases outcome with
  | ok _ _ determines => exact determines

/-- Inference succeeds exactly when every sampled line is blank or JSON and one is
not blank. -/
theorem inferSchema_isOk_iff :
    (∃ schema, inferSchema J data sampleSize = .ok schema) ↔
      (∀ line ∈ sampleLines data sampleSize, ¬ Unreadable J line) ∧
        (sampleLines data sampleSize).filterMap trimmed? ≠ [] := by
  have outcome := inferSchema_outcome J data sampleSize
  generalize inferSchema J data sampleSize = result at outcome
  cases outcome with
  | @ok schema readable nonblank _ => exact ⟨fun _ => ⟨readable, nonblank⟩, fun _ => ⟨schema, rfl⟩⟩
  | empty blank =>
      constructor
      · rintro ⟨_, contradicted⟩
        cases contradicted
      · exact fun h => absurd blank h.2
  | refuse split _ nonblank refused =>
      constructor
      · rintro ⟨_, contradicted⟩
        cases contradicted
      · rintro ⟨readable, _⟩
        exact absurd ⟨_, _, nonblank, refused⟩ (readable _ (by simp [split]))

/-- An inferred schema has a column for each key at which a sampled record has a
value. -/
theorem Determines.named_iff {sample : List Bytes} {schema : Schema}
    (determines : Determines J sample schema) (key : String) :
    key ∈ schema.fields.map Field.name ↔
      ∃ record ∈ recordsOf J false sample, ∃ value, Map.get record key = some value ∧
        value ≠ .null := by
  rw [determines.named, columnRung_ne_bot_iff]
  simp only [mem_membersOf_iff]
  constructor
  · rintro ⟨value, ⟨record, mem, found⟩, valued⟩
    exact ⟨record, mem, value, found, valued⟩
  · rintro ⟨record, mem, value, found, valued⟩
    exact ⟨value, ⟨record, mem, found⟩, valued⟩

/-- Inferred columns are nullable and of the types that the builders make. -/
theorem Determines.native {sample : List Bytes} {schema : Schema}
    (determines : Determines J sample schema) {field : Field} (mem : field ∈ schema.fields) :
    field.nullable = true ∧ field.dataType ∈ nativeTypes := by
  obtain ⟨typed, nullable⟩ := determines.typed field mem
  have valued := (determines.named field.name).mp (List.mem_map_of_mem mem)
  refine ⟨nullable, ?_⟩
  rw [typed]
  cases rung : columnRung (membersOf J sample) field.name with
  | null => exact absurd rung valued
  | _ => simp [Rung.dataType, nativeTypes]

/-- In lenient mode every line is acceptable to an inferred schema with a column. -/
theorem Determines.lineOk {sample : List Bytes} {o : ParseOptions}
    (determines : Determines J sample o.schema) (lenient : o.ignoreErrors = true)
    (declared : o.schema.fields ≠ []) (line : Bytes) : LineOk J o line := by
  constructor
  · simp [lineError, lenient]
  · intro record _
    exact writable_of_native J declared (fun field mem => (determines.native mem).1)
      (fun field mem => (determines.native mem).2) record

end Outcome

end Parq.Schema
