import Parq.Parser.Lossless
import Parq.Pipeline.Reinfer

/-!
# When nothing is lost

The rows of a run, written as JSON lines, are the records of the input without their nulls
exactly when each of their members has a column of its kind.  With the inferred schema this
is so exactly when under each key all values are truth values, all are integers of 64 bits
with a sign, all are floats, or all are texts.
-/

namespace Parq.Pipeline

open Parq.Data
open Parq.Parser
open Parq.Schema
open Parq.Sequence
open Parq.Transition

/-- Written as objects, the rows are the accepted records without their nulls. -/
def OkRun.Lossless (run : OkRun) : Prop :=
  (run.rows.map (rowObject run.setup.schema.fields)).Perm (run.setup.accepted.map dropNulls)

theorem Setup.sorted_of_accepted {S : Setup} {record : Map} (accepted : record ∈ S.accepted) :
    record.Sorted := by
  rcases List.mem_flatMap.mp accepted with ⟨chunk, _, recorded⟩
  rcases List.mem_filterMap.mp recorded with ⟨line, _, read⟩
  exact sorted_of_record? read

section Lossless

variable {run : OkRun} (distinct : (run.setup.schema.fields.map Field.name).Nodup)

include distinct

/-- When the records without their nulls are those that the rows are written as, each
comes from its own row: it is read to the row that its record is read to. -/
theorem OkRun.Lossless.fits (lossless : run.Lossless) {record : Map}
    (accepted : record ∈ run.setup.accepted) : Fits run.setup.schema.fields record := by
  have sorted := Setup.sorted_of_accepted accepted
  rw [← rowObject_eq_dropNulls_iff (J := run.setup.json) distinct sorted]
  obtain ⟨row, row_mem, written⟩ := List.mem_map.mp
    (lossless.mem_iff.mpr (List.mem_map_of_mem (f := dropNulls) accepted))
  obtain ⟨origin, rfl, _⟩ := run.row_of_record row_mem
  have same : rowOf run.setup.json run.setup.schema record =
      rowOf run.setup.json run.setup.schema origin := by
    calc
      rowOf run.setup.json run.setup.schema record
          = rowOf run.setup.json run.setup.schema (dropNulls record) :=
        List.map_congr_left fun field _ => (cellOf_dropNulls sorted run.setup.json field).symm
      _ = rowOf run.setup.json run.setup.schema origin := by
        rw [← written]
        exact rowOf_rowObject distinct origin
  rw [same, written]

end Lossless

/-- Nothing is lost exactly when each member of an accepted record that is not null has a
column of its kind. -/
theorem lossless_iff (run : OkRun) (distinct : (run.setup.schema.fields.map Field.name).Nodup) :
    run.Lossless ↔ ∀ record ∈ run.setup.accepted, Fits run.setup.schema.fields record := by
  constructor
  · exact fun lossless record accepted => lossless.fits distinct accepted
  · intro fits
    refine (run.delivered.rows.map _).trans ?_
    rw [List.map_map]
    apply List.Perm.of_eq
    apply List.map_congr_left
    intro record accepted
    exact (rowObject_eq_dropNulls_iff distinct (Setup.sorted_of_accepted accepted)).mpr
      (fits record accepted)

/-- Nothing of two records is lost, one with a value for each column and one with a value for
the first. -/
theorem lossless_iff_two_records :
    ∃ run : OkRun, run.rows = [[.int64 1, .boolean true], [.int64 7, .null]] ∧ run.Lossless := by
  let S : Setup :=
    { Setup.sample .default (ascii "\x7b\"a\":1,\"b\":true\x7d\n\x7b\"a\":7\x7d") with
      json := .twoKeys
      schema := ⟨[⟨"a", .int64, true⟩, ⟨"b", .boolean, true⟩]⟩ }
  let schedule : List (Action S.plan) :=
    .writer none :: List.replicate 7 (.closure ⟨0, by decide⟩) ++
      List.replicate 7 (.closure ⟨1, by decide⟩) ++ List.replicate 6 (.writer none) ++
      List.replicate 3 .main
  have reached : Reached S.plan _ :=
    reachable_of_run (fun _ _ => trivial) (rfl : run (step S.plan) schedule (.initial _) = some _)
  obtain ⟨first, setup, rows⟩ : ∃ first : OkRun, first.setup = S ∧
      first.rows = [[.int64 1, .boolean true], [.int64 7, .null]] :=
    ⟨⟨S, _, _, reached, rfl⟩, rfl, rfl⟩
  have distinct : (first.setup.schema.fields.map Field.name).Nodup := by
    rw [setup]
    decide
  have accepted : S.accepted =
      [[("a", .number (.posInt 1)), ("b", .bool true)], [("a", .number (.posInt 7))]] := rfl
  refine ⟨first, rows, (lossless_iff first distinct).mpr ?_⟩
  rw [setup, accepted]
  rintro record (_ | ⟨_, _ | ⟨_, ⟨⟩⟩⟩) key value found _
  · rcases mem_of_lookup_eq_some found with _ | ⟨_, _ | ⟨_, ⟨⟩⟩⟩
    · exact ⟨⟨"a", .int64, true⟩, List.mem_cons_self, rfl, .int64 rfl⟩
    · exact ⟨⟨"b", .boolean, true⟩, List.mem_cons_of_mem _ List.mem_cons_self, rfl, .boolean _⟩
  · rcases mem_of_lookup_eq_some found with _ | ⟨_, ⟨⟩⟩
    exact ⟨⟨"a", .int64, true⟩, List.mem_cons_self, rfl, .int64 rfl⟩

/-! ## With the inferred schema -/

/-- All values of a key are of one kind. -/
def Uniform (records : List Map) : Prop :=
  ∀ record ∈ records, ∀ key value, record.get key = some value → value ≠ .null →
    OfKind (valueType value) value ∧
      ∀ other ∈ records, ∀ value', other.get key = some value' → value' ≠ .null →
        valueType value' = valueType value

/-- A value of the kind of its column has the type of the column: the texts that a column
of floats holds would have made it a column of texts. -/
theorem valueType_of_ofKind {rung : Rung} {value : Value} (kind : OfKind rung.dataType value)
    (below : rungOf value ≤ rung) : valueType value = rung.dataType := by
  generalize same : rung.dataType = built at kind ⊢
  cases kind with
  | boolean | utf8 | float64 => rfl
  | int64 fits => rw [valueType, if_pos fits]
  | infinite =>
      obtain rfl : rung = .float64 := Rung.dataType_injective same
      change Rung.utf8 ≤ Rung.float64 at below
      exact absurd below (by decide)

section Inferred

variable {J : SerdeJson} {lines : List Bytes} {schema : Schema}

/-- The records fit their schema exactly when they are uniform. -/
theorem fits_iff_uniform (determines : Determines J lines schema) :
    (∀ record ∈ recordsOf J false lines, Fits schema.fields record) ↔
      Uniform (recordsOf J false lines) := by
  constructor
  · intro fits
    -- A value has the type of its column, and there is one column of the name.
    have typed : ∀ record ∈ recordsOf J false lines, ∀ key value, record.get key = some value →
        value ≠ .null → valueType value = (columnRung (membersOf J lines) key).dataType ∧
          OfKind (columnRung (membersOf J lines) key).dataType value := by
      intro record record_mem key value found valued
      obtain ⟨field, mem, rfl, kind⟩ := fits record record_mem key value found valued
      rw [builtType_of_mem_nativeTypes (determines.native mem).2, (determines.typed field mem).1]
        at kind
      have below := rungOf_le_columnRung (mem_membersOf_iff.mpr ⟨record, record_mem, found⟩)
      exact ⟨valueType_of_ofKind kind below, kind⟩
    intro record record_mem key value found valued
    obtain ⟨type_eq, kind⟩ := typed record record_mem key value found valued
    rw [type_eq]
    refine ⟨kind, ?_⟩
    intro other other_mem value' found' valued'
    exact (typed other other_mem key value' found' valued').1
  · intro uniform record record_mem key value found valued
    have member : (key, value) ∈ membersOf J lines :=
      mem_membersOf_iff.mpr ⟨record, record_mem, found⟩
    have declared : columnRung (membersOf J lines) key ≠ ⊥ :=
      columnRung_ne_bot_iff.mpr ⟨value, member, valued⟩
    rcases List.mem_map.mp ((determines.named key).mpr declared) with ⟨field, mem, rfl⟩
    obtain ⟨highest, highest_mem, rung⟩ := exists_rungOf_eq declared
    obtain ⟨other, other_mem, found'⟩ := mem_membersOf_iff.mp highest_mem
    have valued' : highest ≠ .null := by
      rw [← rung, Ne, rungOf_eq_bot_iff] at declared
      exact declared
    obtain ⟨kind, same⟩ := uniform record record_mem field.name value found valued
    refine ⟨field, mem, rfl, ?_⟩
    rw [builtType_of_mem_nativeTypes (determines.native mem).2, (determines.typed field mem).1,
      ← rung, ← valueType_eq, same other other_mem highest found' valued']
    exact kind

end Inferred

/-- With a schema that is inferred from the whole input, nothing is lost exactly when under
each key all values other than null are truth values, or all are integers that an `i64`
holds, or all are floats, or all are texts. -/
theorem lossless_iff_uniform {J : SerdeJson} {host : Host} {config : PipelineConfig} {input : Bytes}
    (opened : host.openInput config.inputPath = .ok input) (whole : SeenWhole input)
    (inferred : config.schemaPath = none) (unlimited : config.limit = none)
    (nested : config.flatten = false) (run : OkRun)
    (prepared : prepare J host config = .ok run.setup) :
    run.Lossless ↔ Uniform (recordsOf J false (splitLines input)) := by
  obtain ⟨json, own, input_eq, schema⟩ := prepare_eq_ok inferred prepared
  obtain rfl := Except.ok.inj (opened.symm.trans input_eq)
  have determines := whole.determines schema
  have accepted : run.setup.accepted = recordsOf J false (nonBlankLines run.setup.input) := by
    rw [run.setup.accepted_eq (by rw [own, unlimited]), Setup.records, json, own, nested,
      recordsOf_nonBlankLines]
  rw [lossless_iff run determines.nodup, accepted, ← recordsOf_nonBlankLines]
  exact fits_iff_uniform determines

/-- A truth value is lost beside an integer. -/
theorem lossless_iff_uniform_two_lines :
    ∃ run : OkRun, run.rows = [[.null], [.int64 1]] ∧ ¬ run.Lossless := by
  let input := ascii "\x7b\"a\":true\x7d\n\x7b\"a\":1\x7d"
  let host := Host.sample input
  let S := (prepare .sample host .default).toOption.get rfl
  let schedule : List (Action S.plan) :=
    .writer none :: List.replicate 7 (.closure ⟨0, by decide⟩) ++
      List.replicate 4 (.writer none) ++ List.replicate 3 .main
  have reached : Reached S.plan _ :=
    reachable_of_run (fun _ _ => trivial) (rfl : run (step S.plan) schedule (.initial _) = some _)
  let first : OkRun := ⟨S, _, _, reached, rfl⟩
  have whole : SeenWhole input := ⟨by decide, by decide⟩
  have prepared : prepare .sample host .default = .ok first.setup := rfl
  refine ⟨first, rfl, fun lossless => ?_⟩
  have uniform := (lossless_iff_uniform (rfl : host.openInput _ = .ok input) whole rfl rfl rfl first
    prepared).mp lossless
  have same := (uniform [("a", .bool true)] (.head _) "a" (.bool true) rfl (by rintro ⟨⟩)).2
    [("a", .number (.ofI64 1))] (.tail _ (.head _)) (.number (.ofI64 1)) rfl (by rintro ⟨⟩)
  cases same

end Parq.Pipeline
