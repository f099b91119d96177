import Parq.Flatten.Names
import Parq.Pipeline.Setup
import Parq.Schema.Promotion

/-!
# Flattened records and the columns inferred without flattening

The rows of a flattening run are made from flattened records, its columns from the
records as they stand in the input.  A leaf reaches its row when its joined path is
also a key of the input with a value; the columns know no other names.
-/

namespace Parq.Pipeline

open Parq.Data
open Parq.Flatten
open Parq.Parser
open Parq.Schema
open Parq.Transition

/-! ## Leaves and columns -/

/-- The scalar types of JSON. -/
inductive ScalarType
  | boolean
  | number
  | string

/-- The scalar type of a value other than null. -/
def scalarType? : Value → Option ScalarType
  | .bool _ => some .boolean
  | .number _ => some .number
  | .string _ => some .string
  | _ => none

/-- The records of the input before they are flattened. -/
def Setup.rawRecords (S : Setup) : List Map :=
  recordsOf S.json false (splitLines S.input)

/-- The leaves with one joined path are all null or of one scalar type, if one of
them is a scalar. -/
def OneTypePerPath (records : List Map) : Prop :=
  ∀ record ∈ records, ∀ leaf ∈ leavesOf record, ∀ type, scalarType? leaf.2 = some type →
    ∀ other ∈ records, ∀ leaf' ∈ leavesOf other, joinedPath leaf'.1 = joinedPath leaf.1 →
      leaf'.2 ≠ .null → scalarType? leaf'.2 = some type

/-- Every uniquely named scalar leaf of every record has a column of its joined path,
and a cell in the row that its record has in the file. -/
def LeavesReachOutput (S : Setup) : Prop :=
  ∀ record ∈ S.rawRecords, ∀ leaf ∈ leavesOf record, (scalarType? leaf.2).isSome →
    UniquelyNamed record leaf.1 →
      ∃ field ∈ S.schema.fields, field.name = joinedPath leaf.1 ∧
        cellOf S.json field (flattenObject S.json record "_") ≠ .null

/-- Some record has a value under the key itself. -/
def TopLevelKey (records : List Map) (key : String) : Prop :=
  ∃ record ∈ records, ∃ value, Map.get record key = some value ∧ value ≠ .null

/-- The type that the values under the key itself promote to. -/
def topLevelType (records : List Map) (key : String) : DataType :=
  (columnRung records.flatten key).dataType

/-- The name that a leaf is written under: the joined path without the empty keys in
front of its other keys. -/
def shortName (path : List String) : String :=
  joinedPath (shortened path)

/-- The last leaf of the record that is written under the name stores a value other than
null that the type of the top-level values neither nulls nor refuses. -/
def Supplied (J : SerdeJson) (records : List Map) (record : Map) (name : String) : Prop :=
  ∃ value, lastUnder J shortName (leavesOf record) name = some value ∧ value ≠ .null ∧
    ¬ Nulled (topLevelType records name) (some value) ∧
    mismatch? (topLevelType records name) (some value) = none

/-- A flattened record holds the last leaf that is written under a name. -/
theorem get_flattenObject_shortName (J : SerdeJson) (record : Map) (name : String) :
    (flattenObject J record "_").get name = lastUnder J shortName (leavesOf record) name := by
  rw [get_flattenObject_eq]
  exact lastUnder_congr (fun leaf _ => writtenName_eq "_" leaf.1) name

/-- The records of the flattening parser are the flattened records. -/
theorem recordsOf_flattened (J : SerdeJson) (lines : List Bytes) :
    recordsOf J true lines =
      (recordsOf J false lines).map fun record => flattenObject J record "_" := by
  rw [recordsOf, recordsOf, List.map_filterMap]
  apply List.filterMap_congr
  intro line _
  rw [record?_eq, record?_eq, Option.map_map]
  rfl

/-- A column whose type comes from a value `w` has a cell for a scalar that is of the
scalar type of `w`, if `w` has one. -/
theorem held_of_sameType {type : ScalarType} {v w : Value} (of_type : scalarType? v = some type)
    (same : ∀ other, scalarType? w = some other → other = type) :
    ¬ Nulled (rungOf w).dataType (some v) ∧ mismatch? (rungOf w).dataType (some v) = none := by
  cases w with
  | null => exact ⟨id, rfl⟩
  | string | array | object => exact ⟨id, rfl⟩
  | bool b =>
      obtain rfl := same .boolean rfl
      cases v <;> simp [scalarType?] at of_type
      exact ⟨id, rfl⟩
  | number n =>
      obtain rfl := same .number rfl
      cases v <;> simp [scalarType?] at of_type
      cases integral : n.isI64 <;> simp [rungOf, integral, Rung.dataType, Nulled, mismatch?]

section Columns

variable {S : Setup} (determines : Determines S.json (splitLines S.input) S.schema)

include determines

theorem topLevelKey_iff (key : String) :
    key ∈ S.schema.fields.map Field.name ↔ TopLevelKey S.rawRecords key :=
  determines.named_iff key

/-- The cell of a field is non-null exactly when the record supplies a value that the
column keeps. -/
theorem cellOf_ne_null_iff {field : Field} (mem : field ∈ S.schema.fields) (record : Map) :
    cellOf S.json field (flattenObject S.json record "_") ≠ .null ↔
      Supplied S.json S.rawRecords record field.name := by
  obtain ⟨nullable, native⟩ := determines.native mem
  have typed : field.dataType = topLevelType S.rawRecords field.name :=
    (determines.typed field mem).1
  rw [cellOf, builtType_of_mem_nativeTypes native, ne_eq, storedCell_eq_null_iff _ native, typed,
    Supplied, ← get_flattenObject_shortName]
  cases found : (flattenObject S.json record "_").get field.name with
  | none => simp [Present]
  | some value => cases value <;> simp [Present]

/-- A uniquely named scalar leaf is in its row when its joined path is a key of the
input, unless the path starts with an empty key. -/
theorem supplied_of_leaf (uniform : OneTypePerPath S.rawRecords) {record : Map}
    (record_mem : record ∈ S.rawRecords) (sorted : record.Sorted) {leaf : List String × Value}
    (leaf_mem : leaf ∈ leavesOf record) (scalar : (scalarType? leaf.2).isSome)
    (unique : UniquelyNamed record leaf.1) (plain : ¬ LeadingEmpty leaf.1)
    (top : TopLevelKey S.rawRecords (joinedPath leaf.1)) :
    Supplied S.json S.rawRecords record (joinedPath leaf.1) := by
  rcases Option.isSome_iff_exists.mp scalar with ⟨type, of_type⟩
  have valued : columnRung S.rawRecords.flatten (joinedPath leaf.1) ≠ ⊥ :=
    (determines.named _).mp ((topLevelKey_iff determines _).mpr top)
  obtain ⟨w, w_mem, rung⟩ := exists_rungOf_eq valued
  rcases List.mem_flatten.mp w_mem with ⟨other, other_mem, w_member⟩
  have same : ∀ t, scalarType? w = some t → t = type := by
    intro t w_type
    have flat : ∀ nested, w ≠ .object nested := by
      rintro nested rfl
      cases w_type
    have nonnull : w ≠ .null := by
      rintro rfl
      cases w_type
    have agreed := uniform record record_mem leaf leaf_mem type of_type other other_mem
      ([joinedPath leaf.1], w) (leaf_of_mem w_member flat) (by simp [joinedPath]) nonnull
    exact Option.some.inj (w_type.symm.trans agreed)
  have stored : storedLeaf S.json leaf.2 = leaf.2 := by
    cases value : leaf.2 with
    | array items => simp [value, scalarType?] at of_type
    | _ => rfl
  have found := get_flattenObject S.json sorted leaf_mem plain unique
  rw [stored, get_flattenObject_shortName] at found
  refine ⟨leaf.2, found, ?_, ?_⟩
  · intro null
    simp [null, scalarType?] at of_type
  · rw [topLevelType, ← rung]
    exact held_of_sameType of_type same

end Columns

/-! ## Inputs of objects -/

/-- All non-blank lines of the input are JSON objects, and inference sees them all. -/
structure ObjectsInSample (J : SerdeJson) (input : Bytes) : Prop where
  objects : ∀ text ∈ nonBlankLines input, ∃ members, J.fromSlice text = .ok (.object members)
  within : (splitLines input).length ≤ 10000

theorem ObjectsInSample.sampleLines_eq {J : SerdeJson} {input : Bytes}
    (all : ObjectsInSample J input) : sampleLines input 10000 = splitLines input := by
  have unmarked : stripBom input = input := by
    apply stripBom_eq_self (J := J)
    intro text mem
    obtain ⟨members, read⟩ := all.objects text mem
    exact ⟨_, read⟩
  rw [sampleLines, unmarked, List.take_of_length_le all.within]

theorem sorted_of_mem_rawRecords {S : Setup} {record : Map} (mem : record ∈ S.rawRecords) :
    record.Sorted := by
  rcases List.mem_filterMap.mp mem with ⟨line, _, read⟩
  obtain ⟨text, _, parsed⟩ := (record?_false_eq_some_iff S.json line record).mp read
  exact (S.json.fromSlice_sorted parsed).1

/-- The file of a flattening run has the rows of the flattened records.  All their
uniquely named scalar leaves are in these rows exactly when each joined path is also a
key of the input with a value.  A path that starts with an empty key is written under a
shorter name, and then another leaf has to be written under the joined path, the last one
of them with a value that the column has a cell for. -/
theorem leavesReachOutput_iff (J : SerdeJson) (host : Host) (config : PipelineConfig) (S : Setup)
    (prepared : prepare J host config = .ok S) (inferred : config.schemaPath = none)
    (flattening : config.flatten = true) (all : ObjectsInSample J S.input)
    (uniform : OneTypePerPath S.rawRecords) :
    (∀ (s : State S.plan) (metrics : ProcessingMetrics), config.limit = none → Reached S.plan s →
      s.main = .returned (.ok metrics) →
        s.rowsWritten.Perm
          (S.rawRecords.map fun record => S.row (flattenObject J record "_"))) ∧
      (LeavesReachOutput S ↔
        ∀ record ∈ S.rawRecords, ∀ leaf ∈ leavesOf record, (scalarType? leaf.2).isSome →
          UniquelyNamed record leaf.1 →
            TopLevelKey S.rawRecords (joinedPath leaf.1) ∧
              (LeadingEmpty leaf.1 → Supplied J S.rawRecords record (joinedPath leaf.1))) := by
  obtain ⟨rfl, rfl, _, schema⟩ := prepare_eq_ok inferred prepared
  have determines := determines_of_inferSchema schema
  rw [all.sampleLines_eq] at determines
  constructor
  · intro s metrics unlimited reached ok
    have rows := (reached.delivered ok).rows
    rw [S.accepted_eq unlimited, Setup.records, flattening, recordsOf_flattened, List.map_map]
      at rows
    exact rows
  · apply forall₂_congr
    intro record record_mem
    apply forall₂_congr
    intro leaf leaf_mem
    apply forall₂_congr
    intro scalar unique
    constructor
    · rintro ⟨field, field_mem, name, cell⟩
      have top := (topLevelKey_iff determines field.name).mp (List.mem_map_of_mem field_mem)
      have supplied := (cellOf_ne_null_iff determines field_mem record).mp cell
      rw [name] at top supplied
      exact ⟨top, fun _ => supplied⟩
    · rintro ⟨top, borrowed⟩
      obtain ⟨field, field_mem, name⟩ :=
        List.mem_map.mp ((topLevelKey_iff determines _).mpr top)
      refine ⟨field, field_mem, name, ?_⟩
      rw [cellOf_ne_null_iff determines field_mem record, name]
      by_cases plain : LeadingEmpty leaf.1
      · exact borrowed plain
      · exact supplied_of_leaf determines uniform record_mem (sorted_of_mem_rawRecords record_mem)
          leaf_mem scalar unique plain top

/-- When the joined path of a leaf settles its scalar type, each path has one type. -/
theorem oneTypePerPath_of_kind {records : List Map} (kind : String → ScalarType)
    (typed : ∀ record ∈ records, ∀ leaf ∈ leavesOf record, leaf.2 ≠ .null →
      scalarType? leaf.2 = some (kind (joinedPath leaf.1))) : OneTypePerPath records := by
  intro record mem leaf leaf_mem type of_type other other_mem leaf' leaf_mem' same nonnull
  have valued : leaf.2 ≠ .null := by
    intro null
    simp [null, scalarType?] at of_type
  rw [typed other other_mem leaf' leaf_mem' nonnull, same, ← typed record mem leaf leaf_mem valued,
    of_type]

/-- Both leaves of a nested record reach the output, as another record has their joined
paths as keys. -/
theorem leavesReachOutput_joined_keys :
    ∃ S, prepare .nestedAndJoined (.sample (ascii
          "\x7b\"a\":\x7b\"b\":1,\"c\":true\x7d\x7d\n\x7b\"a_b\":2,\"a_c\":false\x7d"))
        { PipelineConfig.default with flatten := true } = .ok S ∧ LeavesReachOutput S := by
  let input := ascii "\x7b\"a\":\x7b\"b\":1,\"c\":true\x7d\x7d\n\x7b\"a_b\":2,\"a_c\":false\x7d"
  let config := { PipelineConfig.default with flatten := true }
  let nested : Map := [("a", .object [("b", .number (.posInt 1)), ("c", .bool true)])]
  let joined : Map := [("a_b", .number (.posInt 2)), ("a_c", .bool false)]
  refine ⟨_, rfl, ?_⟩
  have all : ObjectsInSample .nestedAndJoined input := by
    have lines : nonBlankLines input = [ascii "\x7b\"a\":\x7b\"b\":1,\"c\":true\x7d\x7d",
        ascii "\x7b\"a_b\":2,\"a_c\":false\x7d"] := by
      decide
    refine ⟨?_, by decide⟩
    rw [lines]
    rintro text (_ | ⟨_, _ | ⟨_, ⟨⟩⟩⟩)
    · exact ⟨nested, rfl⟩
    · exact ⟨joined, rfl⟩
  have uniform : OneTypePerPath [nested, joined] := by
    apply oneTypePerPath_of_kind fun name => if name = "a_b" then .number else .boolean
    rintro record (_ | ⟨_, _ | ⟨_, ⟨⟩⟩⟩) leaf leaf_mem nonnull <;>
      rcases leaf_mem with _ | ⟨_, _ | ⟨_, ⟨⟩⟩⟩ <;> rfl
  have number_key : TopLevelKey [nested, joined] "a_b" :=
    ⟨joined, List.mem_cons_of_mem _ List.mem_cons_self, .number (.posInt 2), rfl, nofun⟩
  have boolean_key : TopLevelKey [nested, joined] "a_c" :=
    ⟨joined, List.mem_cons_of_mem _ List.mem_cons_self, .bool false, rfl, nofun⟩
  have each : ∀ record ∈ [nested, joined], ∀ leaf ∈ leavesOf record,
      TopLevelKey [nested, joined] (joinedPath leaf.1) ∧ ¬ LeadingEmpty leaf.1 := by
    rintro record (_ | ⟨_, _ | ⟨_, ⟨⟩⟩⟩) leaf leaf_mem <;>
      rcases leaf_mem with _ | ⟨_, _ | ⟨_, ⟨⟩⟩⟩
    · exact ⟨number_key, by decide⟩
    · exact ⟨boolean_key, by decide⟩
    · exact ⟨number_key, by decide⟩
    · exact ⟨boolean_key, by decide⟩
  apply (leavesReachOutput_iff .nestedAndJoined (.sample input) config _ rfl rfl rfl all
    uniform).2.mpr
  intro record mem leaf leaf_mem _ _
  have ⟨top, plain⟩ := each record mem leaf leaf_mem
  exact ⟨top, fun early => absurd early plain⟩

/-- The leaf of a nested object has no column. -/
theorem nested_leaf_without_column :
    ∃ (J : SerdeJson) (host : Host) (config : PipelineConfig) (S : Setup),
      prepare J host config = .ok S ∧ config.schemaPath = none ∧ config.flatten = true ∧
        ObjectsInSample J S.input ∧ OneTypePerPath S.rawRecords ∧ ¬ LeavesReachOutput S := by
  let input := ascii "\x7b\"a\":\x7b\"b\":1\x7d\x7d"
  have all : ObjectsInSample .sample input :=
    ⟨fun text mem => List.mem_singleton.mp mem ▸ ⟨_, rfl⟩, by decide⟩
  have uniform : OneTypePerPath [[("a", .object [("b", .number (.posInt 1))])]] := by
    apply oneTypePerPath_of_kind fun _ => .number
    rintro record (_ | ⟨_, ⟨⟩⟩) leaf (_ | ⟨_, ⟨⟩⟩) _
    rfl
  refine ⟨.sample, .sample input, { PipelineConfig.default with flatten := true }, _, rfl, rfl, rfl,
    all, uniform, ?_⟩
  intro reach
  obtain ⟨field, field_mem, name, _⟩ :=
    reach [("a", .object [("b", .number (.posInt 1))])] List.mem_cons_self
      (["a", "b"], .number (.posInt 1)) List.mem_cons_self rfl (by decide)
  obtain rfl : field = ⟨"a", .utf8, true⟩ := List.mem_singleton.mp field_mem
  exact absurd name (by decide)

end Parq.Pipeline
