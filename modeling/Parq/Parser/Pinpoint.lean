import Parq.Parser.Strict

/-!
# What a strict error says

A strict call over nullable native columns ends at the first line that is no JSON object or
has a value in a Boolean column that is no Boolean.  The error has the number of that line
and its kind.  The builder that refuses the value does not know its column, so the error
names `bool_field` for every column.
-/

namespace Parq.Parser

open Parq.Data
open Parq.Sequence

/-! ## Offences -/

/-- What a strict call objects to in a line. -/
inductive Offence
  | notObject
  | mismatch (field : Field)

/-- A value that is present and neither null nor a Boolean. -/
def isNonBoolean : Option Value → Bool
  | none | some .null | some (.bool _) => false
  | some _ => true

/-- The first Boolean field in schema order whose value in the record is no Boolean. -/
def firstOffended (schema : Schema) (record : Map) : Option Field :=
  schema.fields.find? fun field =>
    decide (field.dataType = .boolean) && isNonBoolean (record.get field.name)

/-- The offence of a line.  A blank line has no record and is passed over. -/
def offence? (J : SerdeJson) (o : ParseOptions) (line : Bytes) : Option Offence :=
  match classify J o.flattenJson line with
  | .blank => none
  | .rejected _ _ => some .notObject
  | .record record => (firstOffended o.schema record).map .mismatch

/-- The error is of the kind of the offence, with the number of its line and the name of its
field. -/
def Describes (e : Error) (lineNo : Nat) : Offence → Prop
  | .notObject => ∃ source, e = .jsonParse lineNo source
  | .mismatch field => ∃ expected found, e = .typeMismatch field.name expected found lineNo

/-- An error of the call describes the first offence of its data. -/
def PinpointsFirst (J : SerdeJson) (o : ParseOptions) (data : Bytes) : Prop :=
  ∀ e, (parseChunk J o none data).result = .error e →
    ∃ before line after offence, splitLines data = before ++ line :: after ∧
      (∀ other ∈ before, offence? J o other = none) ∧ offence? J o line = some offence ∧
      Describes e (before.length + 1) offence

section Offences

variable {J : SerdeJson} {o : ParseOptions}

/-- Only a Boolean column refuses a value, and only one that is no Boolean. -/
theorem isSome_mismatch? (declared : DataType) (val : Option Value) :
    (mismatch? (builtType declared) val).isSome =
      (decide (declared = .boolean) && isNonBoolean val) := by
  cases declared with
  | boolean => rcases val with _ | (_ | _ | _ | _ | _ | _) <;> rfl
  | _ => rfl

theorem firstMismatch_eq_none_iff_firstOffended (schema : Schema) (record : Map) :
    firstMismatch schema record = none ↔ firstOffended schema record = none := by
  rw [firstMismatch_eq_none_iff, firstOffended, List.find?_eq_none]
  apply forall_congr'
  intro field
  rw [← isSome_mismatch?, Option.not_isSome_iff_eq_none]

/-- A line ends a strict call exactly when it has an offence. -/
theorem lineError_eq_none_iff_offence? (strict : o.ignoreErrors = false) (lineNo : Nat)
    (line : Bytes) :
    lineError J o lineNo line = none ↔ offence? J o line = none := by
  unfold lineError offence?
  rw [strict, if_neg Bool.false_ne_true]
  cases classify J o.flattenJson line with
  | blank => simp
  | rejected text source => simp
  | record record =>
      simp only [Option.map_eq_none_iff]
      exact firstMismatch_eq_none_iff_firstOffended o.schema record

/-- The error of an offence: it has its number and kind, but not its field. -/
theorem lineError_of_offence? {lineNo : Nat} {line : Bytes} {e : Error} {offence : Offence}
    (refused : lineError J o lineNo line = some e) (found : offence? J o line = some offence) :
    match offence with
    | .notObject => ∃ source, e = .jsonParse lineNo source
    | .mismatch _ => ∃ text, e = .typeMismatch "bool_field" "Boolean" text lineNo := by
  unfold offence? at found
  rcases lineError_cases refused with ⟨text, source, read, rfl⟩ | ⟨record, value, read, _, rfl⟩
  · rw [read] at found
    cases found
    exact ⟨source, rfl⟩
  · rw [read] at found
    rcases Option.map_eq_some_iff.mp found with ⟨field, _, rfl⟩
    exact ⟨_, rfl⟩

theorem describes_iff {lineNo : Nat} {line : Bytes} {e : Error} {offence : Offence}
    (refused : lineError J o lineNo line = some e) (found : offence? J o line = some offence) :
    Describes e lineNo offence ↔
      ∀ field, offence = .mismatch field → field.name = "bool_field" := by
  have about := lineError_of_offence? refused found
  cases offence with
  | notObject => exact ⟨nofun, fun _ => about⟩
  | mismatch field =>
      rcases about with ⟨text, rfl⟩
      constructor
      · rintro ⟨expected, found, same⟩ _ own
        cases own
        rw [Error.parq.injEq, ParqError.typeMismatch.injEq] at same
        exact same.1.symm
      · intro named
        exact ⟨_, _, by rw [named field rfl]⟩

end Offences

/-- An error of a strict call over nullable native columns describes the first offence
exactly when that is not a value in a Boolean column of a name other than `bool_field`. -/
theorem pinpointsFirst_iff {J : SerdeJson} {o : ParseOptions} (strict : o.ignoreErrors = false)
    (nonempty : o.schema.fields ≠ []) (nullable : ∀ field ∈ o.schema.fields, field.nullable = true)
    (native : ∀ field ∈ o.schema.fields, field.dataType ∈ nativeTypes) (data : Bytes) :
    PinpointsFirst J o data ↔
      ∀ before line after field, splitLines data = before ++ line :: after →
        (∀ other ∈ before, offence? J o other = none) →
        offence? J o line = some (.mismatch field) → field.name = "bool_field" := by
  have writable := writable_of_native J nonempty nullable native
  constructor
  · intro pinpoints before line after field split harmless offends
    have accepted : ∀ other ∈ before, LineOk J o other := by
      apply lineOk_of_writable _ fun record _ => writable record
      intro other mem
      exact (lineError_eq_none_iff_offence? strict 0 other).mpr (harmless other mem)
    cases refused : lineError J o (before.length + 1) line with
    | none =>
        rw [lineError_eq_none_iff_offence? strict, offends] at refused
        cases refused
    | some e =>
        have failed := parseChunk_eq_error (by rwa [considered_none]) accepted refused
        rcases pinpoints e failed with
          ⟨before', line', after', offence, split', harmless', offends', describes⟩
        have bad : ¬ offence? J o line = none := by simp [offends]
        have bad' : ¬ offence? J o line' = none := by simp [offends']
        have same := first_bad_unique (split.symm.trans split') harmless bad harmless' bad'
        rcases same with ⟨rfl, rfl⟩
        exact (describes_iff refused offends').mp describes field
          (Option.some.inj (offends'.symm.trans offends))
  · intro named e failed
    have outcome := parseChunk_outcome J o none data
    rw [considered_none] at outcome
    generalize parseChunk J o none data = call at outcome failed
    cases outcome with
    | ok => cases failed
    | spoil _ _ unwritable => exact absurd (fun record _ => writable record) unwritable
    | @reject before after line _ split accepted refused =>
        cases failed
        have harmless : ∀ other ∈ before, offence? J o other = none := by
          intro other mem
          exact (lineError_eq_none_iff_offence? strict 0 other).mp (accepted other mem)
        cases offends : offence? J o line with
        | none =>
            rw [← lineError_eq_none_iff_offence? strict (before.length + 1), refused] at offends
            cases offends
        | some offence =>
            refine ⟨before, line, after, offence, split, harmless, offends, ?_⟩
            apply (describes_iff refused offends).mpr
            rintro field rfl
            exact named before line after field split harmless offends

theorem pinpointsFirst_malformed :
    PinpointsFirst .sample (.oneColumn .boolean false) (ascii "x") :=
  (pinpointsFirst_iff rfl (by decide) (by decide) (by decide) _).mpr (by
    intro before line after field split _ offends
    have mem : line ∈ splitLines (ascii "x") := by simp [split]
    rw [show splitLines (ascii "x") = [ascii "x"] from rfl, List.mem_singleton] at mem
    subst mem
    cases offends)

/-- A number in the Boolean column `a` is reported as one in `bool_field`. -/
theorem mismatch_names_bool_field :
    (parseChunk .sample (.oneColumn .boolean false) none (ascii "\x7b\"a\":1\x7d")).result =
        .error (.typeMismatch "bool_field" "Boolean" "" 1) ∧
      ¬ PinpointsFirst .sample (.oneColumn .boolean false) (ascii "\x7b\"a\":1\x7d") := by
  have failed : (parseChunk .sample (.oneColumn .boolean false) none
      (ascii "\x7b\"a\":1\x7d")).result = .error (.typeMismatch "bool_field" "Boolean" "" 1) := by
    rfl
  refine ⟨failed, ?_⟩
  intro pinpoints
  rcases pinpoints _ failed with ⟨before, line, after, offence, split, _, offends, describes⟩
  have mem : line ∈ splitLines (ascii "\x7b\"a\":1\x7d") := by simp [split]
  rw [show splitLines (ascii "\x7b\"a\":1\x7d") = [ascii "\x7b\"a\":1\x7d"] from rfl,
    List.mem_singleton] at mem
  subst mem
  cases offends
  rcases describes with ⟨_, _, same⟩
  simp at same

end Parq.Parser
