import Parq.Schema.Join
import Parq.Schema.Mark

/-!
# Blank lines in the sample

Inference takes its sample from all lines and passes over the blank ones afterwards, so
blank lines use up the sample.  What it computes depends only on the texts of the sampled
lines that are left, and this decides when the blank lines can be seen in the result.
-/

namespace Parq.Schema

open Parq.Data
open Parq.Parser

/-! ## Inference from texts -/

/-- The sampled lines that are not blank, trimmed. -/
def sampleTexts (data : Bytes) (sampleSize : Nat) : List Bytes :=
  (sampleLines data sampleSize).filterMap trimmed?

/-- The first text that is not JSON: how many texts are in front of it, and the error. -/
def firstRefusal (J : SerdeJson) : List Bytes → Option (Nat × JsonError)
  | [] => none
  | text :: texts =>
      match J.fromSlice text with
      | .error e => some (0, e)
      | .ok _ => (firstRefusal J texts).map fun found => (found.1 + 1, found.2)

/-- The members of the texts that are JSON objects. -/
def textMembers (J : SerdeJson) (texts : List Bytes) : List (String × Value) :=
  (texts.filterMap J.object?).flatten

/-- The join of the members. -/
def schemaOf (entries : List (String × Value)) : Schema :=
  ⟨(keyOrder entries).map fun key => ⟨key, (columnRung entries key).dataType, true⟩⟩

/-- What inference makes of the texts of a sample. -/
def inferTexts (J : SerdeJson) (texts : List Bytes) : Except Error Schema :=
  match firstRefusal J texts with
  | some found => .error (.jsonParse (found.1 + 1) found.2)
  | none => if texts = [] then .error (.insufficientData 0)
      else .ok (schemaOf (textMembers J texts))

section Texts

variable {J : SerdeJson}

theorem firstRefusal_eq_none_iff {texts : List Bytes} :
    firstRefusal J texts = none ↔ ∀ text ∈ texts, ∃ value, J.fromSlice text = .ok value := by
  induction texts with
  | nil => simp [firstRefusal]
  | cons text texts ih =>
      rw [firstRefusal, List.forall_mem_cons, ← ih]
      cases J.fromSlice text with
      | error e => simp
      | ok value => simp

theorem firstRefusal_append {before after : List Bytes} {text : Bytes} {e : JsonError}
    (readable : ∀ other ∈ before, ∃ value, J.fromSlice other = .ok value)
    (refused : J.fromSlice text = .error e) :
    firstRefusal J (before ++ text :: after) = some (before.length, e) := by
  induction before with
  | nil => simp [firstRefusal, refused]
  | cons other before ih =>
      rw [List.forall_mem_cons] at readable
      rcases readable with ⟨⟨value, read⟩, readable⟩
      rw [List.cons_append, firstRefusal, read, ih readable]
      rfl

/-- The texts of lines that are JSON. -/
theorem readable_texts {lines : List Bytes} (readable : ∀ line ∈ lines, ¬ Unreadable J line) :
    ∀ text ∈ lines.filterMap trimmed?, ∃ value, J.fromSlice text = .ok value := by
  intro text mem
  rcases List.mem_filterMap.mp mem with ⟨line, line_mem, nonblank⟩
  cases read : J.fromSlice text with
  | error e => exact absurd ⟨text, e, nonblank, read⟩ (readable line line_mem)
  | ok value => exact ⟨value, rfl⟩

theorem membersOf_eq_textMembers (lines : List Bytes) :
    membersOf J lines = textMembers J (lines.filterMap trimmed?) := by
  rw [membersOf, textMembers, recordsOf, List.filterMap_filterMap]
  congr 1
  apply List.filterMap_congr
  intro line _
  have unflattened : dispatched J false = id := rfl
  rw [record?_eq, unflattened, Option.map_id, id_eq]

theorem Determines.schema_eq {sample : List Bytes} {schema : Schema}
    (determines : Determines J sample schema)
    (names : schema.fields.map Field.name = keyOrder (membersOf J sample)) :
    schema = schemaOf (membersOf J sample) := by
  rcases schema with ⟨fields⟩
  rw [schemaOf, ← names, List.map_map]
  congr 1
  conv_lhs => rw [← List.map_id fields]
  apply List.map_congr_left
  intro field mem
  rcases determines.typed field mem with ⟨typed, nullable⟩
  rw [Function.comp_apply, ← typed, ← nullable]
  rfl

/-- Inference sees the sample through its texts. -/
theorem inferSchema_eq_inferTexts (J : SerdeJson) (data : Bytes) (sampleSize : Nat) :
    inferSchema J data sampleSize = inferTexts J (sampleTexts data sampleSize) := by
  have outcome := inferSchema_outcome J data sampleSize
  have names := @names_of_inferSchema J data sampleSize
  unfold inferTexts sampleTexts
  generalize inferSchema J data sampleSize = result at outcome names
  cases outcome with
  | ok readable nonblank determines =>
      rw [firstRefusal_eq_none_iff.mpr (readable_texts readable)]
      dsimp only
      rw [if_neg nonblank, ← membersOf_eq_textMembers, ← determines.schema_eq (names rfl)]
  | empty blank => simp [blank, firstRefusal]
  | refuse split readable nonblank refused =>
      rw [split, List.filterMap_append, List.filterMap_cons, nonblank]
      dsimp only
      rw [firstRefusal_append (readable_texts readable) refused]

end Texts

/-! ## Two samples -/

/-- The lines that are not blank. -/
def nonBlank (lines : List Bytes) : List Bytes :=
  lines.filter fun line => (trimmed? line).isSome

/-- The data without its blank lines. -/
def withoutBlankLines (data : Bytes) : Bytes :=
  joinLines (nonBlank (splitLines data))

/-- What the second sample has behind the first neither adds a key nor raises a type. -/
def AddsNothing (J : SerdeJson) (texts more : List Bytes) : Prop :=
  ∃ extra, more = texts ++ extra ∧ ∀ entry ∈ textMembers J extra,
    rungOf entry.2 ≤ columnRung (textMembers J texts) entry.1

/-- Two samples come to the same: the first text that is not JSON is the same in both, and
if there is none, both are empty or neither is and the second adds nothing to the first. -/
def SameSample (J : SerdeJson) (texts more : List Bytes) : Prop :=
  firstRefusal J texts = firstRefusal J more ∧
    (firstRefusal J texts = none →
      texts = [] ∧ more = [] ∨ texts ≠ [] ∧ AddsNothing J texts more)

section Samples

variable {J : SerdeJson}

/-- Blank lines only push texts out of a sample. -/
theorem texts_take_starts (lines : List Bytes) (sampleSize : Nat) :
    (lines.take sampleSize).filterMap trimmed? <+:
      ((nonBlank lines).take sampleSize).filterMap trimmed? := by
  induction lines generalizing sampleSize with
  | nil => exact List.prefix_refl _
  | cons line lines ih =>
      cases sampleSize with
      | zero => exact List.nil_prefix
      | succ sampleSize =>
          cases nonblank : trimmed? line with
          | none =>
              have dropped : nonBlank (line :: lines) = nonBlank lines :=
                List.filter_cons_of_neg (by simp [nonblank])
              obtain ⟨rest, longer⟩ : (nonBlank lines).take sampleSize <+:
                  (nonBlank lines).take (sampleSize + 1) :=
                List.take_prefix_take_left (Nat.le_succ sampleSize)
              rw [List.take_succ_cons, List.filterMap_cons_none nonblank, dropped, ← longer,
                List.filterMap_append]
              exact (ih sampleSize).trans (List.prefix_append _ _)
          | some text =>
              have kept : nonBlank (line :: lines) = line :: nonBlank lines :=
                List.filter_cons_of_pos (by simp [nonblank])
              rw [kept, List.take_succ_cons, List.take_succ_cons,
                List.filterMap_cons_some nonblank, List.filterMap_cons_some nonblank,
                List.prefix_cons_inj]
              exact ih sampleSize

theorem newline_not_mem_of_mem_nonBlank {data line : Bytes}
    (mem : line ∈ nonBlank (splitLines data)) : newline ∉ line :=
  newline_not_mem_of_mem_splitLines (List.mem_of_mem_filter mem)

/-- Written out and read again, lines have the same texts. -/
theorem texts_splitLines_joinLines {lines : List Bytes} (free : ∀ line ∈ lines, newline ∉ line)
    (sampleSize : Nat) :
    ((splitLines (joinLines lines)).take sampleSize).filterMap trimmed? =
      (lines.take sampleSize).filterMap trimmed? := by
  by_cases nonempty : lines = []
  · subst nonempty
    have empty : splitLines (joinLines []) = [[]] := rfl
    rw [empty]
    cases sampleSize <;> simp
  · rw [splitLines_joinLines free nonempty]

theorem joinLines_mark (first : Bytes) (others : List Bytes) :
    joinLines ((byteOrderMark ++ first) :: others) =
      byteOrderMark ++ joinLines (first :: others) := by
  cases others <;> simp [joinLines, List.intercalate, List.intersperse]

theorem stripBom_mark (rest : Bytes) : stripBom (byteOrderMark ++ rest) = rest := by
  have marked : byteOrderMark.isPrefixOf (byteOrderMark ++ rest) = true :=
    List.isPrefixOf_iff_prefix.mpr (List.prefix_append _ _)
  rw [stripBom, if_pos marked, List.drop_left]

/-- With a mark the rest of the first line stays the first line. -/
theorem sampleTexts_prefix_of_mark (rest : Bytes) (sampleSize : Nat) :
    sampleTexts (byteOrderMark ++ rest) sampleSize <+:
      sampleTexts (withoutBlankLines (byteOrderMark ++ rest)) sampleSize := by
  rcases splitLines_byteOrderMark rest with ⟨first, others, split, marked⟩
  have nonblank := trimmed?_eq_some_iff.mpr
    ⟨trimAscii_byteOrderMark first, by simp [byteOrderMark]⟩
  have removed : withoutBlankLines (byteOrderMark ++ rest) =
      byteOrderMark ++ joinLines (first :: nonBlank others) := by
    rw [withoutBlankLines, marked, nonBlank, List.filter_cons_of_pos (by rw [nonblank]; rfl),
      joinLines_mark]
    rfl
  have free : ∀ line ∈ first :: nonBlank others, newline ∉ line := by
    intro line mem
    have own : line ∈ splitLines rest := by
      rw [split]
      exact List.mem_cons.mpr ((List.mem_cons.mp mem).imp_right List.mem_of_mem_filter)
    exact newline_not_mem_of_mem_splitLines own
  rw [sampleTexts, sampleLines, stripBom_mark, split, removed, sampleTexts, sampleLines,
    stripBom_mark, texts_splitLines_joinLines free]
  cases sampleSize with
  | zero => exact List.nil_prefix
  | succ sampleSize =>
      rw [List.take_succ_cons, List.take_succ_cons, List.filterMap_cons, List.filterMap_cons]
      split
      · exact texts_take_starts others sampleSize
      · rw [List.prefix_cons_inj]
        exact texts_take_starts others sampleSize

/-- Without the blank lines a sample only has more texts behind it, or it was going to be
refused: a line that starts with a mark can come to the front. -/
theorem sampleTexts_prefix_or_refused (J : SerdeJson) (data : Bytes) (sampleSize : Nat) :
    sampleTexts data sampleSize <+: sampleTexts (withoutBlankLines data) sampleSize ∨
      firstRefusal J (sampleTexts data sampleSize) ≠ none := by
  by_cases marked : byteOrderMark.isPrefixOf data = true
  · rcases List.isPrefixOf_iff_prefix.mp marked with ⟨rest, rfl⟩
    exact .inl (sampleTexts_prefix_of_mark rest sampleSize)
  · have shorter := texts_take_starts (splitLines data) sampleSize
    have texts : sampleTexts data sampleSize =
        ((splitLines data).take sampleSize).filterMap trimmed? := by
      rw [sampleTexts, sampleLines, stripBom, if_neg marked]
    rw [texts]
    by_cases unmasked : byteOrderMark.isPrefixOf (withoutBlankLines data) = true
    · rcases List.isPrefixOf_iff_prefix.mp unmasked with ⟨rest, removed⟩
      rcases splitLines_byteOrderMark rest with ⟨first, others, _, split⟩
      rcases refused_byteOrderMark J first with ⟨text, e, nonblank, refused⟩
      have lines : nonBlank (splitLines data) = (byteOrderMark ++ first) :: others := by
        rw [← split, removed]
        refine (splitLines_joinLines (fun line => newline_not_mem_of_mem_nonBlank) ?_).symm
        intro none_left
        rw [withoutBlankLines, none_left] at removed
        cases removed
      cases sampleSize with
      | zero => exact .inl List.nil_prefix
      | succ sampleSize =>
          rw [lines, List.take_succ_cons, List.filterMap_cons_some nonblank, List.prefix_cons_iff]
            at shorter
          rcases shorter with empty | ⟨behind, equal, _⟩
          · left
            rw [empty]
            exact List.nil_prefix
          · right
            rw [equal, firstRefusal, refused]
            exact Option.some_ne_none _
    · left
      rw [sampleTexts, sampleLines, stripBom, if_neg unmasked, withoutBlankLines,
        texts_splitLines_joinLines fun line => newline_not_mem_of_mem_nonBlank]
      exact shorter

theorem textMembers_append (texts extra : List Bytes) :
    textMembers J (texts ++ extra) = textMembers J texts ++ textMembers J extra := by
  rw [textMembers, List.filterMap_append, List.flatten_append]
  rfl

theorem names_schemaOf (entries : List (String × Value)) :
    (schemaOf entries).fields.map Field.name = keyOrder entries := by
  rw [schemaOf, List.map_map]
  exact List.map_id _

/-- The schema of members tells the rung of each key. -/
theorem columnRung_eq_of_schemaOf_eq {entries entries' : List (String × Value)}
    (same : schemaOf entries = schemaOf entries') (key : String) :
    columnRung entries key = columnRung entries' key := by
  have order : keyOrder entries = keyOrder entries' := by
    rw [← names_schemaOf, same, names_schemaOf]
  by_cases mem : key ∈ keyOrder entries
  · have rungs := congrArg Schema.fields same
    simp only [schemaOf, ← order] at rungs
    have here := List.map_inj_left.mp rungs key mem
    exact Rung.dataType_injective (Field.mk.inj here).2.1
  · have untyped : ∀ own, key ∉ keyOrder own → columnRung own key = ⊥ := by
      intro own absent
      rw [keyOrder, List.mem_eraseDups, mem_filterMap_valuedKey?_iff, not_not] at absent
      exact absent
    rw [untyped entries mem, untyped entries' (order ▸ mem)]

/-- More members leave the schema as it is exactly when none of them is above the rung of
its key. -/
theorem schemaOf_append_eq_iff (entries more : List (String × Value)) :
    schemaOf (entries ++ more) = schemaOf entries ↔
      ∀ entry ∈ more, rungOf entry.2 ≤ columnRung entries entry.1 := by
  constructor
  · intro same entry mem
    rw [← columnRung_eq_of_schemaOf_eq same]
    exact rungOf_le_columnRung (List.mem_append_right _ mem)
  · intro below
    have rungs (key : String) : columnRung (entries ++ more) key = columnRung entries key := by
      apply le_antisymm
      · rw [columnRung_le_iff]
        intro value mem
        rcases List.mem_append.mp mem with own | extra
        · exact rungOf_le_columnRung own
        · exact below (key, value) extra
      · exact columnRung_mono (List.subset_append_left _ _) key
    have known : (more.filterMap valuedKey?).removeAll (entries.filterMap valuedKey?) = [] := by
      rw [List.removeAll, List.filter_eq_nil_iff]
      intro key mem
      rw [mem_filterMap_valuedKey?_iff] at mem
      have typed : columnRung entries key ≠ ⊥ := by
        rw [← rungs key]
        exact ne_bot_of_le_ne_bot mem (columnRung_mono (List.subset_append_right _ _) key)
      simp [mem_filterMap_valuedKey?_iff.mpr typed]
    have order : keyOrder (entries ++ more) = keyOrder entries := by
      rw [keyOrder, List.filterMap_append, List.eraseDups_append, known, List.eraseDups_nil,
        List.append_nil]
      rfl
    simp only [schemaOf, order, rungs]

/-- Inference from two such samples gives the same exactly when they come to the same. -/
theorem inferTexts_eq_iff {texts more : List Bytes}
    (longer : texts <+: more ∨ firstRefusal J texts ≠ none) :
    inferTexts J texts = inferTexts J more ↔ SameSample J texts more := by
  unfold inferTexts SameSample
  cases refusal : firstRefusal J texts with
  | some found =>
      cases refusal' : firstRefusal J more with
      | some found' =>
          rcases found with ⟨index, e⟩
          rcases found' with ⟨index', e'⟩
          simp
      | none =>
          dsimp only
          split <;> simp
  | none =>
      rcases longer.resolve_right (not_not.mpr refusal) with ⟨extra, rfl⟩
      cases refusal' : firstRefusal J (texts ++ extra) with
      | some found =>
          dsimp only
          split <;> simp
      | none =>
          have adds : AddsNothing J texts (texts ++ extra) ↔
              ∀ entry ∈ textMembers J extra,
                rungOf entry.2 ≤ columnRung (textMembers J texts) entry.1 := by
            simp [AddsNothing]
          by_cases none_sampled : texts = []
          · subst none_sampled
            by_cases none_left : extra = [] <;> simp [none_left]
          · rw [adds, ← schemaOf_append_eq_iff, ← textMembers_append]
            simp [none_sampled, eq_comm]

theorem inferTexts_eq_insufficientData_iff {texts : List Bytes} {rows : Nat} :
    inferTexts J texts = .error (.insufficientData rows) ↔ texts = [] ∧ rows = 0 := by
  unfold inferTexts
  cases refusal : firstRefusal J texts with
  | some found =>
      have some_text : texts ≠ [] := by
        rintro rfl
        cases refusal
      simp [some_text]
  | none =>
      dsimp only
      split
      · simp [*, eq_comm]
      · simp [*]

end Samples

/-! ## Whether blank lines can be seen -/

/-- A line behind the mark is JSON. -/
def HasReadable (J : SerdeJson) (data : Bytes) : Prop :=
  ∃ line ∈ splitLines (stripBom data), ∃ text value,
    trimmed? line = some text ∧ J.fromSlice text = .ok value

/-- Without its blank lines the data gives the same schema or fails in the same way, and
with a line of JSON it is never insufficient. -/
def BlanksInvisible (J : SerdeJson) (data : Bytes) (sampleSize : Nat) : Prop :=
  inferSchema J data sampleSize = inferSchema J (withoutBlankLines data) sampleSize ∧
    (HasReadable J data → ∀ rows, inferSchema J data sampleSize ≠ .error (.insufficientData rows))

/-- Blank lines cannot be seen in the result exactly when the sample without them comes to
the same, and has a text at all where the data has a line of JSON. -/
theorem blanksInvisible_iff (J : SerdeJson) (data : Bytes) (sampleSize : Nat) :
    BlanksInvisible J data sampleSize ↔
      SameSample J (sampleTexts data sampleSize) (sampleTexts (withoutBlankLines data) sampleSize) ∧
        (HasReadable J data → sampleTexts data sampleSize ≠ []) := by
  unfold BlanksInvisible
  rw [inferSchema_eq_inferTexts, inferSchema_eq_inferTexts,
    inferTexts_eq_iff (sampleTexts_prefix_or_refused J data sampleSize)]
  simp [inferTexts_eq_insufficientData_iff]

/-- A blank line in front of the only record uses up a sample of one line. -/
theorem leading_blank_line_insufficient :
    inferSchema .sample (ascii "\n\x7b\"a\":1\x7d") 1 = .error (.insufficientData 0) ∧
      inferSchema .sample (withoutBlankLines (ascii "\n\x7b\"a\":1\x7d")) 1 =
        .ok ⟨[⟨"a", .int64, true⟩]⟩ ∧
      ¬ BlanksInvisible .sample (ascii "\n\x7b\"a\":1\x7d") 1 := by
  have insufficient : inferSchema .sample (ascii "\n\x7b\"a\":1\x7d") 1 =
      .error (.insufficientData 0) := by
    rfl
  have inferred : inferSchema .sample (withoutBlankLines (ascii "\n\x7b\"a\":1\x7d")) 1 =
      .ok ⟨[⟨"a", .int64, true⟩]⟩ := by
    rfl
  refine ⟨insufficient, inferred, ?_⟩
  intro invisible
  cases insufficient.symm.trans (invisible.1.trans inferred)

end Parq.Schema
