import Parq.Schema.Blanks

/-!
# Inference over joined inputs

What is inferred from one input behind another is settled by what is inferred from each.
The schemas are merged field by field with `merge`, new fields go to the end, and an error
in the second input keeps its place behind the records of the first.
-/

namespace Parq.Schema

open Parq.Data
open Parq.Parser

/-! ## Merging schemas -/

/-- The type of the column `name` of a schema; a column that is missing is like one
of nulls. -/
def typeOf (schema : Schema) (name : String) : DataType :=
  ((schema.fields.find? fun field => field.name = name).map Field.dataType).getD .null

/-- The fields of the first schema with the types of both merged, and behind them the fields
that only the second has. -/
def merged (schema more : Schema) : Schema :=
  ⟨(schema.fields.map fun field =>
      { field with dataType := merge field.dataType (typeOf more field.name) }) ++
    more.fields.filter fun field => field.name ∉ schema.fields.map Field.name⟩

/-- What is inferred from one input behind another that has `rows` records. -/
def composed (rows : Nat) : Except Error Schema → Except Error Schema → Except Error Schema
  | .error (.parq (.insufficientData _)), second => second
  | .error e, _ => .error e
  | .ok schema, .ok more => .ok (merged schema more)
  | .ok _, .error (.parq (.jsonParse line source)) => .error (.jsonParse (rows + line) source)
  | .ok schema, .error _ => .ok schema

/-! ## Merging the schemas of members -/

theorem columnRung_append (entries more : List (String × Value)) (key : String) :
    columnRung (entries ++ more) key = columnRung entries key ⊔ columnRung more key := by
  apply le_antisymm
  · rw [columnRung_le_iff]
    intro value mem
    rcases List.mem_append.mp mem with first | second
    · exact le_sup_of_le_left (rungOf_le_columnRung first)
    · exact le_sup_of_le_right (rungOf_le_columnRung second)
  · apply sup_le
    · exact columnRung_mono (List.subset_append_left entries more) key
    · exact columnRung_mono (List.subset_append_right entries more) key

theorem mem_keyOrder_iff {entries : List (String × Value)} {key : String} :
    key ∈ keyOrder entries ↔ columnRung entries key ≠ ⊥ := by
  rw [keyOrder, List.mem_eraseDups, mem_filterMap_valuedKey?_iff]

/-- Filtering keeps first occurrences first. -/
theorem eraseDups_filter {α : Type} [BEq α] [LawfulBEq α] (keep : α → Bool) (xs : List α) :
    (xs.filter keep).eraseDups = xs.eraseDups.filter keep := by
  induction bound : xs.length using Nat.strongRecOn generalizing xs with
  | ind n ih =>
      cases xs with
      | nil => rfl
      | cons x xs =>
          have shorter : (xs.filter fun y => !y == x).length < n := by
            rw [← bound, List.length_cons]
            exact Nat.lt_succ_of_le (List.length_filter_le _ xs)
          have rest := ih _ shorter _ rfl
          rw [List.filter_comm] at rest
          rw [List.eraseDups_cons]
          by_cases kept : keep x = true
          · rw [List.filter_cons_of_pos kept, List.eraseDups_cons, List.filter_cons_of_pos kept,
              rest]
          · have without : ((xs.filter keep).filter fun y => !y == x) = xs.filter keep := by
              rw [List.filter_eq_self]
              intro y mem
              have y_kept := (List.mem_filter.mp mem).2
              rw [Bool.not_eq_true', beq_eq_false_iff_ne]
              rintro rfl
              exact kept y_kept
            rw [List.filter_cons_of_neg kept, List.filter_cons_of_neg kept, ← rest, without]

theorem keyOrder_append (entries more : List (String × Value)) :
    keyOrder (entries ++ more) =
      keyOrder entries ++ (keyOrder more).filter fun key => key ∉ keyOrder entries := by
  rw [keyOrder, List.filterMap_append, List.eraseDups_append, List.removeAll, eraseDups_filter]
  congr 1
  apply List.filter_congr
  intro key _
  rw [keyOrder]
  simp

theorem typeOf_schemaOf (entries : List (String × Value)) (key : String) :
    typeOf (schemaOf entries) key = (columnRung entries key).dataType := by
  rw [typeOf, schemaOf, List.find?_map]
  have same_name : ((fun field : Field => decide (field.name = key)) ∘ fun name : String =>
      (⟨name, (columnRung entries name).dataType, true⟩ : Field)) = fun name => name == key := by
    funext name
    exact (beq_eq_decide name key).symm
  rw [same_name]
  cases found : (keyOrder entries).find? fun name => name == key with
  | some name =>
      obtain rfl := beq_iff_eq.mp (List.find?_some (p := fun name => name == key) found)
      rfl
  | none =>
      have untyped : columnRung entries key = ⊥ := by
        by_contra typed
        have mem := mem_keyOrder_iff.mpr typed
        exact List.find?_eq_none.mp found key mem (beq_self_eq_true key)
      rw [untyped]
      rfl

/-- The schema of joined members is merged from the schemas of both. -/
theorem schemaOf_append (entries more : List (String × Value)) :
    schemaOf (entries ++ more) = merged (schemaOf entries) (schemaOf more) := by
  rw [merged, names_schemaOf]
  simp only [typeOf_schemaOf]
  simp only [schemaOf, keyOrder_append, List.map_append, List.map_map, List.filter_map]
  congr 2
  · apply List.map_congr_left
    intro key _
    rw [Function.comp_apply, columnRung_append, merge_dataType]
  · apply List.map_congr_left
    intro key mem
    have untyped : columnRung entries key = ⊥ := by
      have absent := of_decide_eq_true (List.mem_filter.mp mem).2
      by_contra typed
      exact absent (mem_keyOrder_iff.mpr typed)
    rw [columnRung_append, untyped, bot_sup_eq]

/-! ## Joined inputs -/

section Texts

variable {J : SerdeJson}

theorem firstRefusal_append_eq (texts more : List Bytes) :
    firstRefusal J (texts ++ more) =
      match firstRefusal J texts with
      | some found => some found
      | none => (firstRefusal J more).map fun found => (texts.length + found.1, found.2) := by
  induction texts with
  | nil => simp [firstRefusal]
  | cons text texts ih =>
      rw [List.cons_append, firstRefusal, firstRefusal]
      cases J.fromSlice text with
      | error e => rfl
      | ok value =>
          dsimp only
          rw [ih]
          cases firstRefusal J texts with
          | some found => rfl
          | none =>
              dsimp only [Option.map_none]
              rw [Option.map_map]
              congr 1
              funext found
              rw [Function.comp_apply, List.length_cons, Nat.add_right_comm]

/-- Inference over the texts of two samples composes. -/
theorem inferTexts_append (texts more : List Bytes) :
    inferTexts J (texts ++ more) =
      composed texts.length (inferTexts J texts) (inferTexts J more) := by
  unfold inferTexts
  rw [firstRefusal_append_eq]
  cases refused : firstRefusal J texts with
  | some found => rfl
  | none =>
      dsimp only
      by_cases empty : texts = []
      · subst empty
        rw [if_pos rfl, List.nil_append, List.length_nil]
        cases firstRefusal J more with
        | some found =>
            rw [Option.map_some, Nat.zero_add]
            rfl
        | none => rfl
      · rw [if_neg empty]
        cases firstRefusal J more with
        | some found => rfl
        | none =>
            dsimp only [Option.map_none]
            rw [if_neg fun both => empty (List.append_eq_nil_iff.mp both).1]
            by_cases nothing : more = []
            · rw [if_pos nothing, nothing, List.append_nil]
              rfl
            · rw [if_neg nothing, textMembers_append, schemaOf_append]
              rfl

end Texts

/-- The mark is taken off an input whatever is behind it. -/
theorem stripBom_append (first rest : Bytes) :
    stripBom (first ++ newline :: rest) = stripBom first ++ newline :: rest := by
  have marked : byteOrderMark <+: first ++ newline :: rest ↔ byteOrderMark <+: first := by
    constructor
    · intro pre
      rcases Nat.lt_or_ge first.length byteOrderMark.length with shorter | longer
      · have split : first ++ newline :: rest = (first ++ [newline]) ++ rest := by
          rw [List.append_assoc, List.singleton_append]
        rw [split] at pre
        have inside : first ++ [newline] <+: byteOrderMark := by
          apply List.prefix_of_prefix_length_le (List.prefix_append _ rest) pre
          rwa [List.length_append, List.length_singleton]
        have in_mark : newline ∈ byteOrderMark :=
          inside.subset (List.mem_append_right first (List.mem_singleton_self newline))
        exact absurd in_mark (by decide)
      · exact (List.isPrefix_append_of_length longer).mp pre
    · exact fun pre => pre.trans (List.prefix_append _ _)
  unfold stripBom
  simp only [List.isPrefixOf_iff_prefix, marked]
  split
  · rename_i pre
    exact List.drop_append_of_le_length pre.length_le
  · rfl

/-- Every line of the first input and `m` lines of the second are the sample of the joined
input. -/
theorem sampleTexts_joined (first : Bytes) {rest : Bytes} (unmarked : ¬ byteOrderMark <+: rest)
    (m : Nat) :
    sampleTexts (first ++ newline :: rest) ((splitLines (stripBom first)).length + m) =
      nonBlankLines (stripBom first) ++ sampleTexts rest m := by
  have lines : splitLines (stripBom first ++ newline :: rest) =
      splitLines (stripBom first) ++ splitLines rest := List.splitOn_append_cons_self ..
  have plain : stripBom rest = rest := by
    rw [stripBom, if_neg]
    rwa [List.isPrefixOf_iff_prefix]
  rw [sampleTexts, sampleLines, stripBom_append, lines, List.take_length_add_append,
    List.filterMap_append, sampleTexts, sampleLines, plain]
  rfl

theorem sampleTexts_all (data : Bytes) :
    sampleTexts data (splitLines (stripBom data)).length = nonBlankLines (stripBom data) := by
  rw [sampleTexts, sampleLines, List.take_length]
  rfl

/-- Inference over all lines of one input and some of another behind it is composed of the
inferences over each: the schemas are merged, an error in the first input is the
error, one in the second is reported behind the records of the first, and an input without
records counts for nothing. -/
theorem inferSchema_joined (J : SerdeJson) (first : Bytes) {rest : Bytes}
    (unmarked : ¬ byteOrderMark <+: rest) (m : Nat) :
    inferSchema J (first ++ newline :: rest) ((splitLines (stripBom first)).length + m) =
      composed (nonBlankLines (stripBom first)).length
        (inferSchema J first (splitLines (stripBom first)).length) (inferSchema J rest m) := by
  rw [inferSchema_eq_inferTexts, inferSchema_eq_inferTexts, inferSchema_eq_inferTexts,
    sampleTexts_joined first unmarked, sampleTexts_all, inferTexts_append]

theorem inferSchema_joined_two_lines :
    inferSchema .sample (ascii "\x7b\"a\":true\x7d\n\x7b\"a\":1\x7d") 2 =
      .ok (merged ⟨[⟨"a", .boolean, true⟩]⟩ ⟨[⟨"a", .int64, true⟩]⟩) := by
  have unmarked : ¬ byteOrderMark <+: ascii "\x7b\"a\":1\x7d" := by decide
  exact inferSchema_joined .sample (ascii "\x7b\"a\":true\x7d") unmarked 1

end Parq.Schema
