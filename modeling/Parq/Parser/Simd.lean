import Parq.Data.Borrowed
import Parq.Parser.Core

/-!
# The SIMD build

With the `simd` feature `parse_chunk` reads each line with `simd_json`, converts the
object to the values of `serde_json`, and goes on as the default build does.  The two
builds differ in the source of a parse error and in nothing else, as long as the two
tokenizers agree.
-/

namespace Parq.Parser

open Parq.Data
open Parq.Sequence

/-! ## The conversion -/

mutual

/-- `simd_to_serde`. -/
def simdToSerde : BorrowedValue → Value
  | .static .null => .null
  | .static (.bool b) => .bool b
  | .static (.i64 n) => .number (.ofI64 n)
  | .static (.u64 n) => .number (.ofU64 n)
  | .static (.f64 f) => ((Number.ofF64 f).map Value.number).getD .null
  | .string s => .string s
  | .array items => .array (simdItems items)
  | .object members => .object (Map.fromIter (simdMembers members))

/-- `arr.iter().map(simd_to_serde)`. -/
def simdItems : List BorrowedValue → List Value
  | [] => []
  | item :: items => simdToSerde item :: simdItems items

/-- `obj.iter().map(|(k, v)| (k.to_string(), simd_to_serde(v)))`. -/
def simdMembers : List (String × BorrowedValue) → List (String × Value)
  | [] => []
  | member :: members => simdMember member :: simdMembers members

/-- The closure on one entry. -/
def simdMember : String × BorrowedValue → String × Value
  | (key, value) => (key, simdToSerde value)

end

mutual

/-- The conversion inverts the representation: it turns a tree into the value that the
tree stands for. -/
theorem simdToSerde_of_denotes : {borrowed : BorrowedValue} → {value : Value} →
    Denotes borrowed value → simdToSerde borrowed = value
  | _, _, .null => by rw [simdToSerde]
  | _, _, .bool => by rw [simdToSerde]
  | _, _, .i64 same => by
      rw [simdToSerde]
      exact congrArg Value.number (Number.integer?_injective (Number.integer?_ofI64 _) same)
  | _, _, .u64 same => by
      rw [simdToSerde]
      exact congrArg Value.number (Number.integer?_injective (Number.integer?_ofU64 _) same)
  | _, _, .f64 finite => by rw [simdToSerde, Number.ofF64, dif_pos finite]; rfl
  | _, _, .string => by rw [simdToSerde]
  | _, _, .array each => by rw [simdToSerde, simdItems_of_denote each]
  | _, _, .object each sorted last => by
      rw [simdToSerde, simdMembers_of_denote each, Map.eq_fromIter sorted last]

theorem simdItems_of_denote : {items : List BorrowedValue} → {values : List Value} →
    AllDenote items values → simdItems items = values
  | _, _, .nil => by rw [simdItems]
  | _, _, .cons head tail => by
      rw [simdItems, simdToSerde_of_denotes head, simdItems_of_denote tail]

theorem simdMembers_of_denote : {members : List (String × BorrowedValue)} →
    {entries : List (String × Value)} → MembersDenote members entries →
      simdMembers members = entries
  | _, _, .nil => by rw [simdMembers]
  | _, _, .cons head tail => by
      rw [simdMembers, simdMember, simdToSerde_of_denotes head, simdMembers_of_denote tail]

end

/-! ## The calls -/

section Simd

variable (J : SerdeJson) (B : SimdJson) (o : ParseOptions) (limit : Option Nat)

/-- The body of the loop over the lines.  `none` is the panic of `unwrap_err` on an error
text that is JSON. -/
def lineStepSimd (s : ChunkState) (lineBytes : Bytes) : Option Flow :=
  let s := { s with lineNo := s.lineNo + 1 }
  if limitReached limit s.totalOk then
    some (.stop s)
  else
    let trimmed := trimAscii lineBytes
    if trimmed.isEmpty then
      some (.next s)
    else
      match B.toBorrowedValue trimmed with
      | .error e =>
          if o.ignoreErrors then
            some (.next (s.skip o.deadLetterTx trimmed))
          else
            match J.fromSlice (utf8 e.message) with
            | .error source => some (.fail s (.jsonParse s.lineNo source))
            | .ok _ => none
      | .ok (.object m) =>
          let obj := Map.fromIter (simdMembers m)
          some (storeRecord J o s (dispatched J o.flattenJson obj))
      | .ok _ =>
          if o.ignoreErrors then some (.next (s.skip o.deadLetterTx trimmed))
          else some (.fail s (.jsonParse s.lineNo J.bang))

/-- The loop over the lines. -/
def parseLinesSimd : List Bytes → ChunkState → Option (ChunkState × Option Error)
  | [], s => some (s, none)
  | line :: lines, s =>
      match lineStepSimd J B o limit s line with
      | none => none
      | some (.next s) => parseLinesSimd lines s
      | some (.stop s) => some (s, none)
      | some (.fail s e) => some (s, some e)

/-- `parse_chunk` of the build with the `simd` feature. -/
def parseChunkSimd (data : Bytes) : Option ChunkOutcome :=
  match parseLinesSimd J B o limit (splitLines data) (.initial o.schema) with
  | none => none
  | some (s, some e) => some ⟨.error e, s.deadLetters⟩
  | some (s, none) => some ⟨finishChunk o.schema s, s.deadLetters⟩

end Simd

/-! ## Agreement of the builds -/

/-- The errors are the same but for the source of a parse error. -/
inductive SameVariant : Error → Error → Prop
  | same (e : Error) : SameVariant e e
  | jsonParse (line : Nat) (source source' : JsonError) :
      SameVariant (.jsonParse line source) (.jsonParse line source')

/-- Both results are the same success, or errors of one variant. -/
inductive ResultsAgree : Except Error Parsed → Except Error Parsed → Prop
  | ok (parsed : Parsed) : ResultsAgree (.ok parsed) (.ok parsed)
  | error {e e' : Error} (same : SameVariant e e') : ResultsAgree (.error e) (.error e')

/-- Two passes through the loop end in the same state and in the same way. -/
inductive FlowsAgree : Flow → Flow → Prop
  | next (s : ChunkState) : FlowsAgree (.next s) (.next s)
  | stop (s : ChunkState) : FlowsAgree (.stop s) (.stop s)
  | fail (s : ChunkState) {e e' : Error} (same : SameVariant e e') :
      FlowsAgree (.fail s e) (.fail s e')

theorem FlowsAgree.refl (flow : Flow) : FlowsAgree flow flow := by
  cases flow with
  | next s => exact .next s
  | stop s => exact .stop s
  | fail s e => exact .fail s (.same e)

theorem ResultsAgree.refl (result : Except Error Parsed) : ResultsAgree result result := by
  cases result with
  | ok parsed => exact .ok parsed
  | error e => exact .error (.same e)

section Agreement

variable {J : SerdeJson} {B : SimdJson} (agrees : B.Agrees J) (o : ParseOptions)
  (limit : Option Nat)

include agrees

/-- On a line that both builds read, they take the same pass. -/
theorem lineStepSimd_agrees (s : ChunkState) (line : Bytes) :
    ∃ flow, lineStepSimd J B o limit s line = some flow ∧
      FlowsAgree flow (lineStep J o limit s line) := by
  unfold lineStepSimd lineStep
  dsimp only
  by_cases reached : limitReached limit s.totalOk = true
  · rw [if_pos reached, if_pos reached]
    exact ⟨_, rfl, .refl _⟩
  · rw [if_neg reached, if_neg reached]
    by_cases blank : (trimAscii line).isEmpty = true
    · rw [if_pos blank, if_pos blank]
      exact ⟨_, rfl, .refl _⟩
    · rw [if_neg blank, if_neg blank]
      cases read : B.toBorrowedValue (trimAscii line) with
      | error e =>
          obtain ⟨source, refused⟩ := agrees.refuses read
          obtain ⟨source', not_json⟩ := agrees.message read
          dsimp only
          rw [refused, not_json]
          by_cases lenient : o.ignoreErrors = true
          · simp only [lenient, if_true]
            exact ⟨_, rfl, .refl _⟩
          · simp only [lenient]
            exact ⟨_, rfl, .fail _ (.jsonParse _ _ _)⟩
      | ok borrowed =>
          obtain ⟨value, parsed, denotes⟩ := agrees.accepts read
          rw [parsed]
          cases denotes with
          | object each sorted last =>
              dsimp only
              rw [simdMembers_of_denote each, Map.eq_fromIter sorted last]
              exact ⟨_, rfl, .refl _⟩
          | _ =>
              by_cases lenient : o.ignoreErrors = true
              · simp only [lenient, if_true]
                exact ⟨_, rfl, .refl _⟩
              · simp only [lenient]
                exact ⟨_, rfl, .refl _⟩

theorem parseLinesSimd_agrees (lines : List Bytes) (s : ChunkState) :
    ∃ last, parseLinesSimd J B o limit lines s = some last ∧
      last.1 = (parseLines J o limit lines s).1 ∧
      Option.Rel SameVariant last.2 (parseLines J o limit lines s).2 := by
  induction lines generalizing s with
  | nil => exact ⟨_, rfl, rfl, .none⟩
  | cons line lines ih =>
      obtain ⟨flow, stepped, agree⟩ := lineStepSimd_agrees agrees o limit s line
      rw [parseLinesSimd, parseLines, stepped]
      generalize lineStep J o limit s line = flow' at agree
      cases agree with
      | next s => exact ih s
      | stop s => exact ⟨_, rfl, rfl, .none⟩
      | fail s same => exact ⟨_, rfl, rfl, .some same⟩

/-- The SIMD build agrees with the default build: no call panics, it returns the same
batches and counters or an error of the same variant at the same line, and it sends the
same dead letters in the same order.  The conversion of values inverts their
representation on every tree. -/
theorem parseChunkSimd_agrees (data : Bytes) :
    (∃ outcome, parseChunkSimd J B o limit data = some outcome ∧
        ResultsAgree outcome.result (parseChunk J o limit data).result ∧
        outcome.deadLetters = (parseChunk J o limit data).deadLetters) ∧
      ∀ borrowed value, Denotes borrowed value → simdToSerde borrowed = value := by
  refine ⟨?_, fun _ _ denotes => simdToSerde_of_denotes denotes⟩
  obtain ⟨⟨s, ended⟩, parsed, state, errors⟩ :=
    parseLinesSimd_agrees agrees o limit (splitLines data) (.initial o.schema)
  unfold parseChunkSimd parseChunk
  rw [parsed]
  generalize parseLines J o limit (splitLines data) (.initial o.schema) = last at state errors
  rcases last with ⟨s', ended'⟩
  obtain rfl : s = s' := state
  cases errors with
  | none => exact ⟨_, rfl, .refl _, rfl⟩
  | some same => exact ⟨_, rfl, .error same, rfl⟩

end Agreement

/-- A lenient call of the SIMD build on two lines, the first of which is not JSON. -/
theorem parseChunkSimd_agrees_two_lines :
    (∃ outcome, parseChunkSimd .sample .sample (.oneColumn .int64 true) none
          (ascii "x\n\x7b\"a\":1\x7d") = some outcome ∧
        ResultsAgree outcome.result
          (parseChunk .sample (.oneColumn .int64 true) none (ascii "x\n\x7b\"a\":1\x7d")).result ∧
        outcome.deadLetters =
          (parseChunk .sample (.oneColumn .int64 true) none
            (ascii "x\n\x7b\"a\":1\x7d")).deadLetters) ∧
      ∀ borrowed value, Denotes borrowed value → simdToSerde borrowed = value :=
  parseChunkSimd_agrees SimdJson.agrees_sample (.oneColumn .int64 true) none
    (ascii "x\n\x7b\"a\":1\x7d")

end Parq.Parser
