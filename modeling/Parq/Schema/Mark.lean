import Parq.Parser.Reading
import Parq.Schema.Core

/-!
# The byte order mark

Inference strips a byte order mark in front of the input, the parser does not.  To the
parser the first line of a marked input is not JSON.
-/

namespace Parq.Schema

open Parq.Data
open Parq.Parser
open Parq.Sequence

theorem trimAscii_byteOrderMark (rest : Bytes) :
    trimAscii (byteOrderMark ++ rest) = byteOrderMark ++ rest.rdropWhile isAsciiWhitespace := by
  have front : (byteOrderMark ++ rest).dropWhile isAsciiWhitespace = byteOrderMark ++ rest :=
    List.dropWhile_cons_of_neg (by decide)
  rw [trimAscii, trim, front]
  unfold List.rdropWhile
  rw [List.reverse_append, List.dropWhile_append]
  split
  · rename_i blank
    rw [List.isEmpty_iff] at blank
    rw [blank]
    rfl
  · rw [List.reverse_append, List.reverse_reverse]

/-- A line behind a byte order mark is not blank and not JSON. -/
theorem refused_byteOrderMark (J : SerdeJson) (rest : Bytes) :
    ∃ text e, trimmed? (byteOrderMark ++ rest) = some text ∧ J.fromSlice text = .error e := by
  obtain ⟨e, refused⟩ := J.fromSlice_byteOrderMark (rest.rdropWhile isAsciiWhitespace)
  refine ⟨_, e, ?_, refused⟩
  exact trimmed?_eq_some_iff.mpr ⟨trimAscii_byteOrderMark rest, by simp [byteOrderMark]⟩

/-- The parser rejects such a line. -/
theorem rejected?_byteOrderMark (J : SerdeJson) (rest : Bytes) :
    rejected? J (byteOrderMark ++ rest) =
      some (byteOrderMark ++ rest.rdropWhile isAsciiWhitespace) := by
  obtain ⟨text, e, nonblank, refused⟩ := refused_byteOrderMark J rest
  have trimmed := (trimmed?_eq_some_iff.mp nonblank).1
  rw [trimAscii_byteOrderMark] at trimmed
  simp [rejected?, classify, nonblank, refused, trimmed]

theorem record?_byteOrderMark (J : SerdeJson) (flattenJson : Bool) (rest : Bytes) :
    record? J flattenJson (byteOrderMark ++ rest) = none := by
  obtain ⟨text, e, nonblank, refused⟩ := refused_byteOrderMark J rest
  simp [record?_eq, nonblank, SerdeJson.object?, refused]

/-- A byte order mark stays in front of the first line. -/
theorem splitLines_byteOrderMark (rest : Bytes) :
    ∃ first others, splitLines rest = first :: others ∧
      splitLines (byteOrderMark ++ rest) = (byteOrderMark ++ first) :: others := by
  have lines : splitLines (byteOrderMark ++ rest) =
      (splitLines rest).modifyHead (byteOrderMark ++ ·) := by
    simp [splitLines, byteOrderMark, newline, List.splitOn_cons_eq_if_modifyHead,
      Function.comp_def]
  obtain ⟨first, others, split⟩ := List.exists_cons_of_ne_nil (List.splitOn_ne_nil newline rest)
  change splitLines rest = _ at split
  refine ⟨first, others, split, ?_⟩
  rw [lines, split, List.modifyHead_cons]

/-- The parser, which does not strip a byte order mark, accepts no record that
inference does not see. -/
theorem recordsOf_subset_stripBom (J : SerdeJson) (flattenJson : Bool) (data : Bytes) :
    recordsOf J flattenJson (splitLines data) ⊆
      recordsOf J flattenJson (splitLines (stripBom data)) := by
  unfold stripBom
  split
  · rename_i marked
    rcases List.isPrefixOf_iff_prefix.mp marked with ⟨rest, rfl⟩
    obtain ⟨first, others, split, marked_split⟩ := splitLines_byteOrderMark rest
    rw [List.drop_left, split, marked_split, recordsOf_cons, recordsOf_cons, record?_byteOrderMark]
    exact List.subset_append_right _ _
  · exact List.Subset.refl _

/-- An input whose non-blank lines are all JSON has no mark. -/
theorem stripBom_eq_self {J : SerdeJson} {input : Bytes}
    (readable : ∀ text ∈ nonBlankLines input, ∃ value, J.fromSlice text = .ok value) :
    stripBom input = input := by
  unfold stripBom
  split
  · rename_i marked
    rcases List.isPrefixOf_iff_prefix.mp marked with ⟨rest, rfl⟩
    obtain ⟨first, others, _, split⟩ := splitLines_byteOrderMark rest
    obtain ⟨text, e, nonblank, refused⟩ := refused_byteOrderMark J first
    have mem : text ∈ nonBlankLines (byteOrderMark ++ rest) :=
      List.mem_filterMap.mpr ⟨_, by simp [split], nonblank⟩
    obtain ⟨value, read⟩ := readable text mem
    rw [refused] at read
    cases read
  · rfl

end Parq.Schema
