import Parq.Schema.Inference

/-!
# The join of a sample

The fields of an inferred schema come in the order in which their keys first had a value,
and each has the greatest type of the values of its key.  The order of the sampled lines
therefore only decides the order of the fields, and more lines add fields at the end and
raise types.
-/

namespace Parq.Schema

open Parq.Data
open Parq.Parser

/-! ## The order of the keys -/

/-- The key of a member that is not null. -/
def valuedKey? : String × Value → Option String
  | (_, .null) => none
  | (key, _) => some key

/-- The keys of the members that are not null, each at its first occurrence. -/
def keyOrder (entries : List (String × Value)) : List String :=
  (entries.filterMap valuedKey?).eraseDups

theorem valuedKey?_eq_some_iff {entry : String × Value} {key : String} :
    valuedKey? entry = some key ↔ entry.1 = key ∧ entry.2 ≠ .null := by
  rcases entry with ⟨own, value⟩
  cases value <;> simp [valuedKey?]

theorem mem_filterMap_valuedKey?_iff {entries : List (String × Value)} {key : String} :
    key ∈ entries.filterMap valuedKey? ↔ columnRung entries key ≠ ⊥ := by
  rw [List.mem_filterMap, columnRung_ne_bot_iff]
  simp only [valuedKey?_eq_some_iff, Prod.exists]
  constructor
  · rintro ⟨_, value, mem, rfl, valued⟩
    exact ⟨value, mem, valued⟩
  · rintro ⟨value, mem, valued⟩
    exact ⟨key, value, mem, rfl, valued⟩

/-- More members only add keys at the end. -/
theorem keyOrder_prefix_append (entries more : List (String × Value)) :
    keyOrder entries <+: keyOrder (entries ++ more) := by
  rw [keyOrder, keyOrder, List.filterMap_append, List.eraseDups_append]
  exact List.prefix_append _ _

/-- A member adds its key when it is the first one with a value there. -/
theorem keyOrder_concat (entries : List (String × Value)) (key : String) (val : Value) :
    keyOrder (entries ++ [(key, val)]) =
      if columnRung entries key = ⊥ ∧ columnRung entries key ⊔ rungOf val ≠ ⊥ then
        keyOrder entries ++ [key]
      else keyOrder entries := by
  rw [keyOrder, List.filterMap_append, List.eraseDups_append]
  cases valued : valuedKey? (key, val) with
  | none =>
      have null : val = .null := by
        by_contra some_value
        rw [valuedKey?_eq_some_iff.mpr ⟨rfl, some_value⟩] at valued
        cases valued
      rw [if_neg]
      · simp [valued, keyOrder]
      · rintro ⟨untyped, typed⟩
        exact typed (by rw [untyped, null, bot_sup_eq]; rfl)
  | some own =>
      rcases valuedKey?_eq_some_iff.mp valued with ⟨rfl, some_value⟩
      have typed : columnRung entries key ⊔ rungOf val ≠ ⊥ := by
        rw [Ne, sup_eq_bot_iff, rungOf_eq_bot_iff]
        exact fun both => some_value both.2
      by_cases untyped : columnRung entries key = ⊥
      · have absent : key ∉ entries.filterMap valuedKey? := by
          rw [mem_filterMap_valuedKey?_iff, not_not]
          exact untyped
        rw [if_pos ⟨untyped, typed⟩]
        simp [valued, List.removeAll, absent, keyOrder, List.eraseDups_cons]
      · have present := mem_filterMap_valuedKey?_iff.mpr untyped
        rw [if_neg fun both => untyped both.1]
        simp [valued, List.removeAll, present, keyOrder]

/-- The loop over the members keeps the keys in the order of their first values. -/
theorem fieldOrder_foldl_member (entries : List (String × Value)) :
    (entries.foldl InferState.member .initial).fieldOrder = keyOrder entries := by
  induction entries using List.reverseRecOn with
  | nil => rfl
  | append_singleton entries entry ih =>
      rcases entry with ⟨key, val⟩
      have inferred : Inferred entries (entries.foldl InferState.member .initial) :=
        inferred_initial.foldl_member entries
      rw [List.foldl_append, keyOrder_concat, ← ih]
      simp only [List.foldl_cons, List.foldl_nil, InferState.member, inferred.first_type_iff]

/-! ## The loop over the lines as a fold -/

theorem foldl_member_rowsSeen (entries : List (String × Value)) (s : InferState) (rowsSeen : Nat) :
    entries.foldl InferState.member { s with rowsSeen } =
      { entries.foldl InferState.member s with rowsSeen } := by
  induction entries generalizing s with
  | nil => rfl
  | cons entry entries ih => exact ih (s.member entry)

/-- The state after the lines is the fold over the members of their records. -/
theorem inferLines_eq_foldl {J : SerdeJson} {lines : List Bytes} {s last : InferState}
    (read : inferLines J lines s = .ok last) :
    ∃ rowsSeen, last = { (membersOf J lines).foldl InferState.member s with rowsSeen } := by
  induction lines generalizing s with
  | nil =>
      cases read
      exact ⟨_, rfl⟩
  | cons line lines ih =>
      have members : membersOf J (line :: lines) =
          (record? J false line).toList.flatten ++ membersOf J lines := by
        rw [membersOf, recordsOf_cons, List.flatten_append, membersOf]
      rw [members, record?_eq, List.foldl_append]
      rw [inferLines, inferLine] at read
      by_cases blank : (trimAscii line).isEmpty = true
      · rw [trimmed?, if_pos blank]
        dsimp only at read
        rw [if_pos blank] at read
        exact ih read
      · rw [trimmed?, if_neg blank, Option.bind_some, SerdeJson.object?]
        dsimp only at read
        rw [if_neg blank] at read
        cases parsed : J.fromSlice (trimAscii line) with
        | error e => simp [parsed] at read
        | ok value =>
            rw [parsed] at read
            rcases ih read with ⟨rowsSeen, rfl⟩
            refine ⟨rowsSeen, ?_⟩
            rw [foldl_member_rowsSeen]
            cases value with
            | object obj => simp [InferState.sampled, dispatched]
            | _ => rfl

theorem names_of_inferSchema {J : SerdeJson} {data : Bytes} {sampleSize : Nat} {schema : Schema}
    (inferred : inferSchema J data sampleSize = .ok schema) :
    schema.fields.map Field.name = keyOrder (membersOf J (sampleLines data sampleSize)) := by
  unfold inferSchema at inferred
  split at inferred
  · cases inferred
  · rename_i s read
    split at inferred
    · cases inferred
    · cases inferred
      rcases inferLines_eq_foldl read with ⟨rowsSeen, rfl⟩
      rw [List.map_map, ← fieldOrder_foldl_member]
      exact List.map_id _

/-! ## The schema of a sample -/

/-- The schema is the join of the sampled records: a nullable field for each key with a
value other than null, in the order of the first such values, of the greatest type among
the values of the key. -/
structure JoinOf (J : SerdeJson) (sample : List Bytes) (schema : Schema) : Prop where
  distinct : (schema.fields.map Field.name).Nodup
  named : ∀ key, key ∈ schema.fields.map Field.name ↔
    ∃ record ∈ recordsOf J false sample, ∃ value, Map.get record key = some value ∧ value ≠ .null
  sorted : ∀ record ∈ recordsOf J false sample, Map.Sorted record
  ordered : schema.fields.map Field.name = keyOrder (recordsOf J false sample).flatten
  nullable : ∀ field ∈ schema.fields, field.nullable = true
  typed : ∀ field ∈ schema.fields, ∃ rung : Rung, field.dataType = rung.dataType ∧
    IsGreatest { other | ∃ record ∈ recordsOf J false sample, ∃ value,
      Map.get record field.name = some value ∧ valueType value = other.dataType } rung

/-- A field of the same name and a type that is no lower. -/
def Raises (field raised : Field) : Prop :=
  raised.name = field.name ∧ ∃ lower upper : Rung,
    field.dataType = lower.dataType ∧ raised.dataType = upper.dataType ∧ lower ≤ upper

/-- The fields of a schema, some of them raised, with others behind them. -/
def Extends (schema larger : Schema) : Prop :=
  ∃ raised added, larger.fields = raised ++ added ∧ List.Forall₂ Raises schema.fields raised

section Join

variable {J : SerdeJson} {sample sample' : List Bytes} {schema schema' : Schema}

theorem Rung.dataType_injective : Function.Injective Rung.dataType := by
  intro a b same
  cases a <;> cases b <;> first
    | rfl
    | cases same

/-- The rung of a column is the greatest of those of its values. -/
theorem isGreatest_columnRung {key : String} (typed : columnRung (membersOf J sample) key ≠ ⊥) :
    IsGreatest { other : Rung | ∃ record ∈ recordsOf J false sample, ∃ value,
      Map.get record key = some value ∧ valueType value = other.dataType }
      (columnRung (membersOf J sample) key) := by
  constructor
  · rcases exists_rungOf_eq typed with ⟨value, mem, rung⟩
    rcases mem_membersOf_iff.mp mem with ⟨record, record_mem, found⟩
    refine ⟨record, record_mem, value, found, ?_⟩
    rw [valueType_eq, rung]
  · rintro other ⟨record, record_mem, value, found, same⟩
    rw [valueType_eq] at same
    rw [← Rung.dataType_injective same]
    exact rungOf_le_columnRung (mem_membersOf_iff.mpr ⟨record, record_mem, found⟩)

theorem Determines.joinOf (determines : Determines J sample schema)
    (ordered : schema.fields.map Field.name = keyOrder (membersOf J sample)) :
    JoinOf J sample schema where
  distinct := determines.nodup
  named := determines.named_iff
  sorted record mem := by
    rcases List.mem_filterMap.mp mem with ⟨line, _, read⟩
    rcases (record?_false_eq_some_iff J line record).mp read with ⟨text, _, parsed⟩
    exact (J.fromSlice_sorted parsed).1
  ordered := ordered
  nullable field mem := (determines.typed field mem).2
  typed field mem := by
    have valued := (determines.named field.name).mp (List.mem_map_of_mem mem)
    exact ⟨_, (determines.typed field mem).1, isGreatest_columnRung valued⟩

/-- The fields are known from the rungs of the keys. -/
theorem Determines.mem_fields_iff (determines : Determines J sample schema) {field : Field} :
    field ∈ schema.fields ↔
      columnRung (membersOf J sample) field.name ≠ ⊥ ∧
        field = ⟨field.name, (columnRung (membersOf J sample) field.name).dataType, true⟩ := by
  have known : ∀ other ∈ schema.fields,
      other = ⟨other.name, (columnRung (membersOf J sample) other.name).dataType, true⟩ := by
    intro other mem
    rcases determines.typed other mem with ⟨typed, nullable⟩
    rw [← typed, ← nullable]
  constructor
  · intro mem
    exact ⟨(determines.named field.name).mp (List.mem_map_of_mem mem), known field mem⟩
  · rintro ⟨valued, field_eq⟩
    rcases List.mem_map.mp ((determines.named field.name).mpr valued) with ⟨other, mem, same⟩
    have other_eq := known other mem
    rw [same, ← field_eq] at other_eq
    rwa [← other_eq]

theorem columnRung_mono {entries entries' : List (String × Value)} (subset : entries ⊆ entries')
    (key : String) : columnRung entries key ≤ columnRung entries' key :=
  columnRung_le_iff.mpr fun _ mem => rungOf_le_columnRung (subset mem)

theorem membersOf_subset (subset : sample ⊆ sample') :
    membersOf J sample ⊆ membersOf J sample' := by
  rintro ⟨key, value⟩ mem
  rcases mem_membersOf_iff.mp mem with ⟨record, record_mem, found⟩
  rcases List.mem_filterMap.mp record_mem with ⟨line, line_mem, read⟩
  exact mem_membersOf_iff.mpr ⟨record, List.mem_filterMap.mpr ⟨line, subset line_mem, read⟩, found⟩

/-- The order of the lines only decides the order of the fields. -/
theorem Determines.fields_perm (determines : Determines J sample schema)
    (determines' : Determines J sample' schema') (perm : sample'.Perm sample) :
    schema'.fields.Perm schema.fields := by
  rw [List.perm_ext_iff_of_nodup (.of_map _ determines'.nodup) (.of_map _ determines.nodup)]
  intro field
  have same : columnRung (membersOf J sample') field.name =
      columnRung (membersOf J sample) field.name :=
    le_antisymm (columnRung_mono (membersOf_subset perm.subset) _)
      (columnRung_mono (membersOf_subset perm.symm.subset) _)
  rw [determines'.mem_fields_iff, determines.mem_fields_iff, same]

/-- More lines add fields at the end and raise types. -/
theorem Determines.extended (determines : Determines J sample schema)
    (determines' : Determines J sample' schema') (subset : sample ⊆ sample')
    (names : schema.fields.map Field.name <+: schema'.fields.map Field.name) :
    Extends schema schema' := by
  rcases names with ⟨more, appended⟩
  rcases List.map_eq_append_iff.mp appended.symm with ⟨raised, added, fields_eq, raised_names, _⟩
  refine ⟨raised, added, fields_eq, ?_⟩
  have same_names : List.Forall₂ Eq (schema.fields.map Field.name) (raised.map Field.name) := by
    rw [raised_names, List.forall₂_eq_eq_eq]
  rw [List.forall₂_map_left_iff, List.forall₂_map_right_iff, List.forall₂_iff_zip] at same_names
  rw [List.forall₂_iff_zip]
  refine ⟨same_names.1, ?_⟩
  intro field up mem
  have same := same_names.2 mem
  rcases List.of_mem_zip mem with ⟨field_mem, up_mem⟩
  have up_typed := (determines'.typed up (fields_eq ▸ List.mem_append_left _ up_mem)).1
  rw [← same] at up_typed
  exact ⟨same.symm, _, _, (determines.typed field field_mem).1, up_typed,
    columnRung_mono (membersOf_subset subset) field.name⟩

end Join

theorem sampleLines_starts (data : Bytes) {fewer more : Nat} (le : fewer ≤ more) :
    sampleLines data fewer <+: sampleLines data more :=
  List.take_prefix_take_left le

/-- Inference computes the join of the sample.  Permuting the sampled lines only permutes
the fields, and a larger sample only adds fields at the end and raises types. -/
theorem inferSchema_join {J : SerdeJson} {data : Bytes} {sampleSize : Nat} {schema : Schema}
    (inferred : inferSchema J data sampleSize = .ok schema) :
    JoinOf J (sampleLines data sampleSize) schema ∧
      (∀ data' sampleSize', (sampleLines data' sampleSize').Perm (sampleLines data sampleSize) →
        ∃ schema', inferSchema J data' sampleSize' = .ok schema' ∧
          schema'.fields.Perm schema.fields) ∧
      (∀ more schema', sampleSize ≤ more → inferSchema J data more = .ok schema' →
        Extends schema schema') := by
  have determines := determines_of_inferSchema inferred
  have names := names_of_inferSchema inferred
  refine ⟨determines.joinOf names, ?_, ?_⟩
  · intro data' sampleSize' perm
    rcases inferSchema_isOk_iff.mp ⟨schema, inferred⟩ with ⟨readable, nonblank⟩
    have succeeds : ∃ schema', inferSchema J data' sampleSize' = .ok schema' := by
      apply inferSchema_isOk_iff.mpr
      refine ⟨fun line mem => readable line (perm.mem_iff.mp mem), ?_⟩
      intro blank
      apply nonblank
      have trimmed := perm.filterMap trimmed?
      rw [blank] at trimmed
      exact trimmed.symm.eq_nil
    rcases succeeds with ⟨schema', inferred'⟩
    exact ⟨schema', inferred', determines.fields_perm (determines_of_inferSchema inferred') perm⟩
  · intro more schema' le inferred'
    have longer := sampleLines_starts data le
    apply determines.extended (determines_of_inferSchema inferred') longer.subset
    rw [names, names_of_inferSchema inferred']
    rcases longer with ⟨rest, split⟩
    rw [← split, membersOf, membersOf, recordsOf_append, List.flatten_append]
    exact keyOrder_prefix_append _ _

theorem inferSchema_join_integer :
    JoinOf .sample (sampleLines (ascii "\x7b\"a\":true\x7d\n\x7b\"a\":1\x7d") 2)
      ⟨[⟨"a", .int64, true⟩]⟩ :=
  (inferSchema_join rfl).1

end Parq.Schema
