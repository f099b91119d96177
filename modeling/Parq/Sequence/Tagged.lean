import Mathlib.Data.List.FinRange

/-!
# Streams merged from several sources

A merged stream lists items with the source each one came from.  Its projection
to a source is the stream of that source in order; when all projections are
known, the stream is an interleaving of them and so a permutation of their
concatenation.
-/

namespace Parq.Sequence

universe u v

variable {ι : Type u} {α : Type v} [DecidableEq ι]

/-- The items of one source, in the order of the merged stream. -/
def ofSource (source : ι) (stream : List (ι × α)) : List α :=
  (stream.filter fun item => item.1 = source).map Prod.snd

@[simp]
theorem ofSource_nil (source : ι) : ofSource source ([] : List (ι × α)) = [] :=
  rfl

@[simp]
theorem ofSource_append (source : ι) (stream more : List (ι × α)) :
    ofSource source (stream ++ more) = ofSource source stream ++ ofSource source more := by
  simp [ofSource]

@[simp]
theorem ofSource_cons_self (source : ι) (item : α) (stream : List (ι × α)) :
    ofSource source ((source, item) :: stream) = item :: ofSource source stream := by
  simp [ofSource]

theorem ofSource_cons_of_ne {source other : ι} (ne : other ≠ source) (item : α)
    (stream : List (ι × α)) :
    ofSource source ((other, item) :: stream) = ofSource source stream := by
  simp [ofSource, ne]

/-! ## Sources that merge into a stream -/

/-- Sources in the local states `locals` merge into `stream`: what each produces is
what the stream has of it, followed by what it owes in its state. -/
def Merged {γ : Type v} (produced : ι → List α) (owed : ι → γ → List α) (stream : List (ι × α))
    (locals : ι → γ) : Prop :=
  ∀ source, ofSource source stream ++ owed source (locals source) = produced source

section Merged

variable {γ : Type v} {produced : ι → List α} {owed : ι → γ → List α} {stream : List (ι × α)}
  {locals : ι → γ} {source : ι} {next : γ}

/-- A source may change its state and owe the same. -/
theorem Merged.keep (merged : Merged produced owed stream locals)
    (same : owed source next = owed source (locals source)) :
    Merged produced owed stream (Function.update locals source next) := by
  intro other
  by_cases here : other = source
  · subst here
    rw [Function.update_self, same]
    exact merged other
  · rw [Function.update_of_ne here]
    exact merged other

/-- A source may send the first item it owes. -/
theorem Merged.send (merged : Merged produced owed stream locals) {item : α}
    (first : owed source (locals source) = item :: owed source next) :
    Merged produced owed (stream ++ [(source, item)]) (Function.update locals source next) := by
  intro other
  by_cases here : other = source
  · subst here
    rw [Function.update_self, ofSource_append, ofSource_cons_self, ofSource_nil, List.append_assoc,
      List.singleton_append, ← first]
    exact merged other
  · rw [Function.update_of_ne here, ofSource_append, ofSource_cons_of_ne (Ne.symm here),
      ofSource_nil, List.append_nil]
    exact merged other

/-- A source that owes nothing has put all that it produces into the stream. -/
theorem Merged.complete (merged : Merged produced owed stream locals) (source : ι)
    (settled : owed source (locals source) = []) : ofSource source stream = produced source := by
  rw [← merged source, settled, List.append_nil]

end Merged

/-! ## Streams as permutations -/

/-- Putting one item in front of one of several lists puts it in front of their
concatenation, up to order. -/
theorem flatMap_update_cons_perm {sources : List ι} (nodup : sources.Nodup) {source : ι}
    (mem : source ∈ sources) (lists : ι → List α) (item : α) :
    (sources.flatMap (Function.update lists source (item :: lists source))).Perm
      (item :: sources.flatMap lists) := by
  induction sources with
  | nil => cases mem
  | cons first rest ih =>
      rw [List.nodup_cons] at nodup
      rw [List.flatMap_cons, List.flatMap_cons]
      by_cases here : first = source
      · subst here
        have unchanged : rest.flatMap (Function.update lists first (item :: lists first)) =
            rest.flatMap lists := by
          apply List.flatMap_congr
          intro other other_mem
          apply Function.update_of_ne
          rintro rfl
          exact nodup.1 other_mem
        rw [Function.update_self, unchanged, List.cons_append]
      · have later : source ∈ rest := by
          rcases List.mem_cons.mp mem with rfl | later
          · exact absurd rfl here
          · exact later
        rw [Function.update_of_ne here]
        exact ((ih nodup.2 later).append_left (lists first)).trans List.perm_middle

/-- A merged stream is a permutation of the streams of its sources. -/
theorem map_snd_perm_flatMap {n : Nat} (stream : List (Fin n × α)) :
    (stream.map Prod.snd).Perm ((List.finRange n).flatMap fun i => ofSource i stream) := by
  induction stream with
  | nil => simp
  | cons head stream ih =>
      rcases head with ⟨source, item⟩
      have split : (fun i => ofSource i ((source, item) :: stream)) =
          Function.update (fun i => ofSource i stream) source (item :: ofSource source stream) := by
        funext i
        by_cases same : i = source
        · subst same
          simp
        · rw [Function.update_of_ne same, ofSource_cons_of_ne (Ne.symm same)]
      rw [split, List.map_cons]
      exact (ih.cons item).trans
        (flatMap_update_cons_perm (List.nodup_finRange n) (List.mem_finRange source) _ item).symm

end Parq.Sequence
