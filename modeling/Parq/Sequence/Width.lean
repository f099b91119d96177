import Parq.Sequence.Tagged
import Mathlib.Data.Fintype.Card
import Mathlib.Data.Fintype.Fin

/-!
# The width of a merged stream

At each item, a merged stream is in the middle of some of its sources: those that
have an item up to there and an item from there on.  The stream is narrow when
these are never many.  A stream of width one lists its sources one after the
other.
-/

namespace Parq.Sequence

universe u v

variable {ι : Type u} {α : Type v}

/-- The blocks of the sources in `order`, one after the other. -/
def blocks (order : List ι) (items : ι → List α) : List (ι × α) :=
  order.flatMap fun source => (items source).map fun item => (source, item)

theorem blocks_cons (source : ι) (order : List ι) (items : ι → List α) :
    blocks (source :: order) items =
      ((items source).map fun item => (source, item)) ++ blocks order items :=
  List.flatMap_cons

variable [DecidableEq ι]

/-- The stream has an item of the source. -/
def occurs (source : ι) (stream : List (ι × α)) : Bool :=
  stream.any fun item => item.1 = source

theorem occurs_iff {source : ι} {stream : List (ι × α)} :
    occurs source stream = true ↔ ∃ item, (source, item) ∈ stream := by
  simp [occurs]

theorem occurs_append (source : ι) (stream more : List (ι × α)) :
    occurs source (stream ++ more) = (occurs source stream || occurs source more) :=
  List.any_append

theorem occurs_singleton {source other : ι} {item : α} :
    occurs source [(other, item)] = true ↔ other = source := by
  simp [occurs]

/-- A source occurs exactly when it has items in the stream. -/
theorem occurs_eq_true_iff_ofSource {source : ι} {stream : List (ι × α)} :
    occurs source stream = true ↔ ofSource source stream ≠ [] := by
  simp [occurs, ofSource, List.filter_eq_nil_iff]

theorem occurs_eq_false_iff_ofSource {source : ι} {stream : List (ι × α)} :
    occurs source stream = false ↔ ofSource source stream = [] := by
  rw [← Bool.not_eq_true, occurs_eq_true_iff_ofSource, not_not]

/-- A source that occurs among blocks is one of them. -/
theorem mem_of_occurs_blocks {order : List ι} {items : ι → List α} {source : ι}
    (occurring : occurs source (blocks order items) = true) : source ∈ order := by
  obtain ⟨item, mem⟩ := occurs_iff.mp occurring
  simp only [blocks, List.mem_flatMap, List.mem_map, Prod.mk.injEq] at mem
  rcases mem with ⟨other, other_mem, _, _, rfl, _⟩
  exact other_mem

/-- The stream is in the middle of the source at its `k`-th item. -/
def spans (stream : List (ι × α)) (k : Nat) (source : ι) : Bool :=
  occurs source (stream.take (k + 1)) && occurs source (stream.drop k)

variable [Fintype ι]

/-- At no item the stream is in the middle of more than `width` sources. -/
def Narrow (width : Nat) (stream : List (ι × α)) : Prop :=
  ∀ k < stream.length, (Finset.univ.filter fun source => spans stream k source = true).card ≤ width

/-- A stream is no wider than it has sources. -/
theorem narrow_of_card_le {width : Nat} (few : Fintype.card ι ≤ width) (stream : List (ι × α)) :
    Narrow width stream :=
  fun _ _ => le_trans (Finset.card_le_univ _) few

/-- What comes first in a narrow stream is narrow. -/
theorem Narrow.of_prefix {width : Nat} {stream whole : List (ι × α)} (narrow : Narrow width whole)
    (first : stream <+: whole) : Narrow width stream := by
  rcases first with ⟨more, rfl⟩
  intro k bound
  refine le_trans (Finset.card_le_card ?_) (narrow k (by rw [List.length_append]; omega))
  intro source
  simp only [Finset.mem_filter, Finset.mem_univ, true_and, spans, Bool.and_eq_true]
  rintro ⟨begun, needed⟩
  rw [List.take_append_of_le_length bound, List.drop_append_of_le_length (Nat.le_of_lt bound),
    occurs_append, needed]
  exact ⟨begun, rfl⟩

/-! ## Streams of width one -/

/-- What comes last in a narrow stream is narrow. -/
theorem Narrow.tail {width : Nat} {item : ι × α} {stream : List (ι × α)}
    (narrow : Narrow width (item :: stream)) : Narrow width stream := by
  intro k bound
  refine le_trans (Finset.card_le_card ?_) (narrow (k + 1) (Nat.succ_lt_succ bound))
  intro source
  simp only [Finset.mem_filter, Finset.mem_univ, true_and, spans, Bool.and_eq_true,
    List.take_succ_cons, List.drop_succ_cons]
  rintro ⟨begun, needed⟩
  refine ⟨?_, needed⟩
  rw [occurs, List.any_cons, ← occurs, begun, Bool.or_true]

/-- In a stream of width one, a source that comes back was not left. -/
theorem Narrow.stays {source next : ι} {item other : α} {stream : List (ι × α)}
    (narrow : Narrow 1 ((source, item) :: (next, other) :: stream))
    (again : occurs source ((next, other) :: stream) = true) : next = source := by
  have one := narrow 1 (by simp)
  rw [Finset.card_le_one] at one
  apply one <;> rw [Finset.mem_filter, spans, Bool.and_eq_true]
  · exact ⟨Finset.mem_univ next, by simp [occurs], by simp [occurs]⟩
  · exact ⟨Finset.mem_univ source, by simp [occurs], again⟩

/-- A stream of width one lists its sources one after the other. -/
theorem Narrow.exists_blocks {stream : List (ι × α)} (narrow : Narrow 1 stream) :
    ∃ order : List ι, order.Nodup ∧ (∀ source ∈ order, occurs source stream = true) ∧
      stream = blocks order fun source => ofSource source stream := by
  induction stream with
  | nil => exact ⟨[], List.nodup_nil, by simp, rfl⟩
  | cons head stream ih =>
      rcases head with ⟨source, item⟩
      obtain ⟨order, nodup, occurring, listed⟩ := ih narrow.tail
      have elsewhere : ∀ others : List ι, source ∉ others →
          blocks others (fun other => ofSource other ((source, item) :: stream)) =
            blocks others fun other => ofSource other stream := by
        intro others absent
        apply List.flatMap_congr
        intro other mem
        have ne : source ≠ other := fun same => absent (same ▸ mem)
        simp only [ofSource_cons_of_ne ne]
      have occurring_cons : ∀ other ∈ order, occurs other ((source, item) :: stream) = true := by
        intro other mem
        rw [occurs, List.any_cons, ← occurs, occurring other mem, Bool.or_true]
      cases again : occurs source stream with
      | false =>
          have absent : source ∉ order := by
            intro mem
            rw [occurring source mem] at again
            cases again
          refine ⟨source :: order, List.nodup_cons.mpr ⟨absent, nodup⟩, ?_, ?_⟩
          · rintro other (_ | ⟨_, mem⟩)
            · simp [occurs]
            · exact occurring_cons other mem
          · rw [blocks_cons, elsewhere order absent, ← listed, ofSource_cons_self,
              occurs_eq_false_iff_ofSource.mp again]
            rfl
      | true =>
          refine ⟨order, nodup, occurring_cons, ?_⟩
          cases order with
          | nil =>
              rw [listed] at again
              cases again
          | cons first order =>
              have begins := occurs_eq_true_iff_ofSource.mp (occurring first List.mem_cons_self)
              obtain ⟨other, others, items⟩ := List.exists_cons_of_ne_nil begins
              have same : first = source := by
                rw [blocks_cons, items, List.map_cons, List.cons_append] at listed
                rw [listed] at narrow again
                exact narrow.stays again
              subst same
              rw [List.nodup_cons] at nodup
              rw [blocks_cons, elsewhere order nodup.1, ofSource_cons_self, List.map_cons]
              exact congrArg (List.cons (first, item)) (listed.trans (blocks_cons first order _))

/-- A stream of width one lists all sources one after the other, those without items
anywhere. -/
theorem Narrow.exists_blocks_perm {n : Nat} {stream : List (Fin n × α)} (narrow : Narrow 1 stream) :
    ∃ order : List (Fin n), order.Perm (List.finRange n) ∧
      stream = blocks order fun source => ofSource source stream := by
  obtain ⟨order, nodup, _, listed⟩ := narrow.exists_blocks
  refine ⟨order ++ (List.finRange n).filter (· ∉ order), ?_, ?_⟩
  · rw [List.perm_ext_iff_of_nodup]
    · intro source
      simp [em]
    · refine nodup.append ((List.nodup_finRange n).filter _) ?_
      intro source mem later
      simp [mem] at later
    · exact List.nodup_finRange n
  · have absent : blocks ((List.finRange n).filter (· ∉ order))
        (fun source => ofSource source stream) = [] := by
      rw [blocks, List.flatMap_eq_nil_iff]
      intro source mem
      have missing : occurs source stream = false := by
        rw [← Bool.not_eq_true]
        intro occurring
        rw [listed] at occurring
        have listed_mem := mem_of_occurs_blocks occurring
        simp [listed_mem] at mem
      rw [occurs_eq_false_iff_ofSource.mp missing, List.map_nil]
    rw [blocks, List.flatMap_append, ← blocks, ← blocks, absent, List.append_nil]
    exact listed

end Parq.Sequence
