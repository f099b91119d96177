import Parq.Parser.Batches
import Parq.Pipeline.Progress
import Parq.Pipeline.Setup
import Mathlib.Algebra.Order.BigOperators.Group.Finset

/-!
# Batches in flight

The channel bounds what lies between the workers and the writer, but `parse_chunk`
returns all batches of its chunk before the first one is sent.  A worker therefore holds
the batches of a whole chunk, and the number of batches that are built and not taken by
the writer is bounded by the sizes of the chunks and not by the number of workers.
-/

namespace Parq.Pipeline

open Parq.Chunk
open Parq.Data
open Parq.Parser
open Parq.Transition

variable {P : Plan} {s target : State P}

/-! ## Counting the batches -/

/-- The batches that a worker holds, of the `built` batches that its call builds.  A call
under way counts with all of them, which it holds when it is about to return. -/
def Closure.heldBatches (built : Nat) : Closure → Nat
  | .quarantining _ => built
  | .counting parsed | .countingErrors parsed => parsed.batches.length
  | .sending rest => rest.length
  | _ => 0

/-- The batches that are built and not taken by the writer. -/
def State.inFlight (built : Fin P.jobs → Nat) (s : State P) : Nat :=
  s.channel.length + ∑ i, (s.closures i).heldBatches (built i)

/-- `built` counts at least what the successful calls return. -/
def Plan.BuildsAtLeast (P : Plan) (built : Fin P.jobs → Nat) : Prop :=
  ∀ i, (P.parsed i).batches.length ≤ built i

/-! ## The workers -/

/-- The closures that occupy a worker. -/
def State.occupied (s : State P) : Finset (Fin P.jobs) :=
  Finset.univ.filter fun i => (s.closures i).isRunning = true

theorem running_eq_sum (s : State P) : s.running = ∑ i, (s.closures i).isRunning.toNat := by
  rw [Fin.sum_univ_def, State.running]
  induction List.finRange P.jobs with
  | nil => rfl
  | cons i rest ih =>
      rw [List.countP_cons, List.map_cons, List.sum_cons, ih, Nat.add_comm]
      cases (s.closures i).isRunning <;> rfl

theorem card_occupied (s : State P) : s.occupied.card = s.running := by
  rw [State.occupied, Finset.card_filter, running_eq_sum]
  apply Finset.sum_congr rfl
  intro i _
  cases (s.closures i).isRunning <;> rfl

/-! ## What a step of a closure does to the batches -/

/-- A closure that moves to `c` sends no more batches than it owes, and takes a worker only
when one is free. -/
structure Sends (i : Fin P.jobs) (c : Closure) (s target : State P) : Prop where
  closures : target.closures = Function.update s.closures i c
  owes : (c.unsent P i).length ≤ ((s.closures i).unsent P i).length
  channel : target.channel.length + (c.unsent P i).length ≤
    s.channel.length + ((s.closures i).unsent P i).length
  worker : c.isRunning = true → (s.closures i).isRunning = true ∨ s.running < P.workers

theorem ClosureStep.sends {i : Fin P.jobs} (moved : ClosureStep i s target) (sound : Sound s) :
    ∃ c, Sends i c s target := by
  have here := sound i
  cases moved with
  | take waiting free =>
      refine ⟨_, rfl, ?_, ?_, fun _ => .inr free⟩ <;> simp [waiting, Closure.unsent]
  | countErrors state =>
      rw [state] at here
      refine ⟨_, rfl, ?_, ?_, ?_⟩ <;>
        simp [state, Closure.unsent, Closure.isRunning, Closure.isFinished, P.parsed_of_ok here]
  | push state =>
      refine ⟨_, rfl, ?_, ?_, ?_⟩ <;>
        simp [state, Closure.unsent, Closure.isRunning, Closure.isFinished]
      omega
  | skip state | parse state | quarantine state | lose state | parsed state | refused state
  | countRows state | handOver state | drop state | finish state | record state =>
      refine ⟨_, rfl, ?_, ?_, ?_⟩ <;>
        simp [state, Closure.unsent, Closure.isRunning, Closure.isFinished]

/-- No more closures run than there are workers, and the batches in the channel, together
with those not sent yet, are at most those that the calls returned. -/
structure Dispatched (s : State P) : Prop where
  running : s.running ≤ P.workers
  owes : ∀ i, ((s.closures i).unsent P i).length ≤ (P.parsed i).batches.length
  channel : s.channel.length + ∑ i, ((s.closures i).unsent P i).length ≤
    ∑ i, (P.parsed i).batches.length

theorem dispatched_initial (P : Plan) : Dispatched (.initial P) where
  running := by simp [running_eq_sum, State.initial, Closure.isRunning]
  owes _ := Nat.le_refl _
  channel := Nat.le_of_eq (Nat.zero_add _)

theorem Dispatched.sends (dispatched : Dispatched s) {i : Fin P.jobs} {c : Closure}
    (sends : Sends i c s target) : Dispatched target := by
  rcases sends with ⟨closures, owes, channel, worker⟩
  constructor
  · have moved := sum_update (fun _ c => c.isRunning.toNat) s.closures i c
    have before := dispatched.running
    rw [running_eq_sum] at before worker ⊢
    rw [closures]
    cases occupies : c.isRunning with
    | false =>
        simp only [occupies, Bool.toNat_false] at moved
        omega
    | true =>
        have one := Bool.toNat_le (s.closures i).isRunning
        simp only [occupies, Bool.toNat_true] at moved
        rcases worker occupies with running | free
        · simp only [running, Bool.toNat_true] at moved
          omega
        · omega
  · rw [closures]
    exact @forall_update P (fun j c => (c.unsent P j).length ≤ (P.parsed j).batches.length)
      s.closures dispatched.owes i c (owes.trans (dispatched.owes i))
  · have moved := sum_update (fun j c => (c.unsent P j).length) s.closures i c
    have before := dispatched.channel
    rw [closures]
    omega

theorem Dispatched.moves {a : Action P} (dispatched : Dispatched s) (sound : Sound s)
    (moves : Moves s a target) : Dispatched target := by
  cases moves with
  | closure moved =>
      obtain ⟨c, sends⟩ := moved.sends sound
      exact dispatched.sends sends
  | writer moved =>
      rcases dispatched with ⟨running, owes, channel⟩
      cases moved with
      | receive _ waiting =>
          rw [waiting, List.length_cons] at channel
          exact ⟨running, owes, by dsimp only; omega⟩
      | fail => exact ⟨running, owes, by dsimp only [List.length_nil]; omega⟩
      | _ => exact ⟨running, owes, channel⟩
  | quarantine moved =>
      cases moved <;> exact ⟨dispatched.running, dispatched.owes, dispatched.channel⟩
  | main moved => cases moved <;> exact ⟨dispatched.running, dispatched.owes, dispatched.channel⟩

theorem Reached.dispatched (reached : Reached P s) : Dispatched s := by
  have both : Sound s ∧ Dispatched s := by
    apply Reachable.invariant ⟨sound_initial P, dispatched_initial P⟩ _ reached
    rintro s a target ⟨sound, dispatched⟩ _ stepped
    exact ⟨sound.moves (moves_of_step stepped), dispatched.moves sound (moves_of_step stepped)⟩
  exact both.2

/-! ## What is in flight -/

section Bound

variable {built : Fin P.jobs → Nat}

/-- Only a closure that occupies a worker holds batches, and no more than its call
builds. -/
theorem heldBatches_le (least : P.BuildsAtLeast built) (sound : Sound s) (dispatched : Dispatched s)
    (i : Fin P.jobs) :
    (s.closures i).heldBatches (built i) ≤ if i ∈ s.occupied then built i else 0 := by
  have here := sound i
  have owes := dispatched.owes i
  have bound := least i
  simp only [State.occupied, Finset.mem_filter_univ]
  cases state : s.closures i with
  | counting parsed | countingErrors parsed =>
      rw [state] at here
      rw [P.parsed_of_ok here] at bound
      simpa [Closure.heldBatches, Closure.isRunning, Closure.isFinished] using bound
  | sending rest =>
      simp only [state, Closure.unsent] at owes
      simpa [Closure.heldBatches, Closure.isRunning, Closure.isFinished] using owes.trans bound
  | _ => simp [Closure.heldBatches, Closure.isRunning, Closure.isFinished]

/-- What a closure holds it owes, but for the batches of a call that is to fail. -/
theorem heldBatches_add_le (least : P.BuildsAtLeast built) (sound : Sound s) (i : Fin P.jobs) :
    (s.closures i).heldBatches (built i) +
        (if i ∈ s.occupied then (P.parsed i).batches.length else 0) ≤
      ((s.closures i).unsent P i).length + if i ∈ s.occupied then built i else 0 := by
  have here := sound i
  have bound := least i
  simp only [State.occupied, Finset.mem_filter_univ]
  cases state : s.closures i with
  | counting parsed | countingErrors parsed =>
      rw [state] at here
      rw [P.parsed_of_ok here] at bound ⊢
      simpa [Closure.heldBatches, Closure.unsent, P.parsed_of_ok here, Closure.isRunning,
        Closure.isFinished] using bound
  | sending rest =>
      simpa [Closure.heldBatches, Closure.unsent, Closure.isRunning, Closure.isFinished] using bound
  | quarantining rest =>
      simp only [Closure.heldBatches, Closure.unsent, Closure.isRunning, Closure.isFinished,
        Bool.not_false, if_true]
      omega
  | waiting | checking | recording e | skipped | returned =>
      simp [Closure.heldBatches, Closure.unsent, Closure.isRunning, Closure.isFinished, bound]

/-- The batches in flight are those of the calls on the occupied workers, and as many of
the others as the channel holds. -/
theorem Reached.inFlight_le (least : P.BuildsAtLeast built) (reached : Reached P s) :
    s.inFlight built ≤ ∑ i ∈ s.occupied, built i +
      min P.depth (∑ i ∈ s.occupiedᶜ, (P.parsed i).batches.length) := by
  have sound := reached.inv.sound
  have dispatched := reached.dispatched
  have held := Finset.sum_le_sum fun i (_ : i ∈ Finset.univ) =>
    heldBatches_le least sound dispatched i
  have paired := Finset.sum_le_sum fun i (_ : i ∈ Finset.univ) => heldBatches_add_le least sound i
  simp only [Finset.sum_add_distrib, Finset.sum_ite_mem, Finset.univ_inter] at held paired
  have bounded : s.channel.length ≤ P.depth := reached.inv.bounded
  have channel := dispatched.channel
  rw [← Finset.sum_add_sum_compl s.occupied fun i => (P.parsed i).batches.length] at channel
  rw [State.inFlight]
  omega

end Bound

/-! ## Filling the channel -/

/-- Steps that move the closure for chunk `i` to `c`, record no error, and leave the writer
where it is and `length` batches in the channel. -/
structure Advances (i : Fin P.jobs) (c : Closure) (length : Nat) (s target : State P) : Prop where
  reached : Reachable (step P) (fun _ => True) s target
  closures : target.closures = Function.update s.closures i c
  parseError : target.parseError = s.parseError
  writer : target.writer = s.writer
  channel : target.channel.length = length

section Advance

variable {i : Fin P.jobs} {c c' : Closure} {length length' : Nat}

theorem Advances.at (advances : Advances i c length s target) : target.closures i = c := by
  rw [advances.closures, Function.update_self]

theorem Advances.trans {middle : State P} (first : Advances i c length s middle)
    (rest : Advances i c' length' middle target) : Advances i c' length' s target where
  reached := first.reached.trans rest.reached
  closures := by rw [rest.closures, first.closures, Function.update_idem]
  parseError := rest.parseError.trans first.parseError
  writer := rest.writer.trans first.writer
  channel := rest.channel

/-- A worker that is free takes a chunk and calls `parse_chunk`. -/
theorem exists_called (waiting : s.closures i = .waiting) (free : s.running < P.workers)
    (clear : s.parseError = none) :
    ∃ target, Advances i (.quarantining (P.outcome i).deadLetters) s.channel.length s target := by
  have taken : step P s (.closure i) = some (s.setClosure i .checking) := by
    simp [step, State.stepClosure, waiting, free]
  have called : step P (s.setClosure i .checking) (.closure i) =
      some ((s.setClosure i .checking).setClosure i (.quarantining (P.outcome i).deadLetters)) := by
    simp [step, State.stepClosure, clear]
  refine ⟨_, .tail (.tail .refl trivial taken) trivial called, ?_, rfl, rfl, rfl⟩
  simp

/-- The call sends its dead letters. -/
theorem exists_quarantined {rest : List Bytes} (here : s.closures i = .quarantining rest) :
    ∃ target, Advances i (.quarantining []) s.channel.length s target := by
  induction rest generalizing s with
  | nil => exact ⟨s, .refl, by rw [← here, Function.update_eq_self], rfl, rfl, rfl⟩
  | cons line rest ih =>
      have sent : ∃ middle, Advances i (.quarantining rest) s.channel.length s middle := by
        by_cases listening : s.quarantine.isListening = true
        · have moved : step P s (.closure i) = some
              { s.setClosure i (.quarantining rest) with letters := s.letters ++ [(i, line)] } := by
            simp [step, State.stepClosure, here, listening]
          exact ⟨_, .tail .refl trivial moved, rfl, rfl, rfl, rfl⟩
        · have moved : step P s (.closure i) = some (s.setClosure i (.quarantining rest)) := by
            simp [step, State.stepClosure, here, listening]
          exact ⟨_, .tail .refl trivial moved, rfl, rfl, rfl, rfl⟩
      obtain ⟨middle, advanced⟩ := sent
      obtain ⟨target, rest⟩ := ih advanced.at
      rw [advanced.channel] at rest
      exact ⟨target, advanced.trans rest⟩

/-- A call that succeeds hands over its batches. -/
theorem exists_handed_over {parsed : Parsed} (here : s.closures i = .quarantining [])
    (succeeded : (P.outcome i).result = .ok parsed) :
    ∃ target, Advances i (.sending parsed.batches) s.channel.length s target := by
  have returned : step P s (.closure i) = some (s.setClosure i (.counting parsed)) := by
    simp [step, State.stepClosure, here, succeeded]
  let counted : State P :=
    { s.setClosure i (.countingErrors parsed) with totalRows := s.totalRows + parsed.rowsOk }
  have counts : step P (s.setClosure i (.counting parsed)) (.closure i) = some counted := by
    simp [step, State.stepClosure, counted]
  have last : step P counted (.closure i) = some
      { counted.setClosure i (.sending parsed.batches) with
        errorRows := counted.errorRows + parsed.rowsSkipped } := by
    simp [step, State.stepClosure, counted]
  refine ⟨_, .tail (.tail (.tail .refl trivial returned) trivial counts) trivial last,
    ?_, rfl, rfl, rfl⟩
  simp [counted]

/-- A closure sends a batch, for which the writer takes one when the channel is full. -/
theorem exists_pushed (deep : 0 < P.depth) {batch : RecordBatch} {rest : List RecordBatch}
    (here : s.closures i = .sending (batch :: rest)) (receiving : s.writer = .receiving)
    (bounded : s.channel.length ≤ P.depth) :
    ∃ target, Advances i (.sending rest) (min P.depth (s.channel.length + 1)) s target := by
  by_cases room : s.channel.length < P.depth
  · have moved : step P s (.closure i) = some
        { s.setClosure i (.sending rest) with channel := s.channel ++ [(i, batch)] } := by
      simp [step, State.stepClosure, here, State.send, receiving, Writer.isListening, room,
        Nat.ne_of_gt deep]
    refine ⟨_, .tail .refl trivial moved, rfl, rfl, rfl, ?_⟩
    simp only [List.length_append, List.length_singleton]
    omega
  · have full : s.channel.length = P.depth := by omega
    obtain ⟨item, tail, waiting⟩ := List.exists_cons_of_length_pos (full ▸ deep)
    have short : tail.length < P.depth := by
      rw [waiting, List.length_cons] at full
      omega
    let held : State P := { s with writer := .writing item, channel := tail }
    let taken : State P := { held with writer := .receiving, written := s.written ++ [item] }
    have takes : step P s (.writer none) = some held := by
      simp [step, State.stepWriter, receiving, waiting, held]
    have writes : step P held (.writer none) = some taken := by
      simp [step, State.stepWriter, held, taken]
    have moved : step P taken (.closure i) = some
        { taken.setClosure i (.sending rest) with channel := tail ++ [(i, batch)] } := by
      simp [step, State.stepClosure, here, State.send, taken, held, Writer.isListening, short,
        Nat.ne_of_gt deep]
    refine ⟨_, .tail (.tail (.tail .refl trivial takes) trivial writes) trivial moved,
      rfl, rfl, receiving.symm, ?_⟩
    rw [waiting, List.length_cons] at full
    simp only [List.length_append, waiting, List.length_cons, List.length_nil]
    omega

/-- A closure sends its batches one after the other. -/
theorem exists_sent (deep : 0 < P.depth) {rest : List RecordBatch}
    (here : s.closures i = .sending rest) (receiving : s.writer = .receiving)
    (bounded : s.channel.length ≤ P.depth) :
    ∃ target, Advances i (.sending []) (min P.depth (s.channel.length + rest.length)) s target := by
  induction rest generalizing s with
  | nil =>
      refine ⟨s, .refl, by rw [← here, Function.update_eq_self], rfl, rfl, ?_⟩
      simp [bounded]
  | cons batch rest ih =>
      obtain ⟨middle, advanced⟩ := exists_pushed deep here receiving bounded
      have level := advanced.channel
      obtain ⟨target, last⟩ := ih advanced.at (advanced.writer.trans receiving) (by omega)
      refine ⟨target, ?_⟩
      have total : min P.depth (middle.channel.length + rest.length) =
          min P.depth (s.channel.length + (batch :: rest).length) := by
        rw [level, List.length_cons]
        omega
      rw [total] at last
      exact advanced.trans last

/-- With a free worker the chunk can be parsed and its batches sent, as far as the channel
holds them. -/
theorem exists_completed (deep : 0 < P.depth) {parsed : Parsed}
    (succeeded : (P.outcome i).result = .ok parsed) (waiting : s.closures i = .waiting)
    (free : s.running < P.workers) (clear : s.parseError = none) (receiving : s.writer = .receiving)
    (bounded : s.channel.length ≤ P.depth) :
    ∃ target,
      Advances i .returned (min P.depth (s.channel.length + parsed.batches.length)) s target := by
  obtain ⟨called, first⟩ := exists_called waiting free clear
  obtain ⟨quarantined, second⟩ := exists_quarantined first.at
  obtain ⟨handed, third⟩ := exists_handed_over second.at succeeded
  have level : handed.channel.length = s.channel.length := by
    rw [third.channel, second.channel, first.channel]
  have so_far := (first.trans second).trans third
  obtain ⟨sent, fourth⟩ :=
    exists_sent deep third.at (so_far.writer.trans receiving) (level ▸ bounded)
  rw [level] at fourth
  have finished : step P sent (.closure i) = some (sent.setClosure i .returned) := by
    simp [step, State.stepClosure, fourth.at]
  have fifth : Advances i .returned sent.channel.length sent (sent.setClosure i .returned) :=
    ⟨.tail .refl trivial finished, rfl, rfl, rfl, rfl⟩
  rw [fourth.channel] at fifth
  exact ⟨_, (so_far.trans fourth).trans fifth⟩

end Advance

/-- Between two chunks: no closure occupies a worker, and the writer is at `recv`. -/
structure Idle (s : State P) : Prop where
  idle : ∀ i, (s.closures i).isRunning = false
  clear : s.parseError = none
  receiving : s.writer = .receiving
  bounded : s.channel.length ≤ P.depth

/-- Chunks that parse can be completed one after the other, and the channel keeps what it
can of their batches. -/
theorem exists_filled (deep : 0 < P.depth) {chunks : List (Fin P.jobs)} (nodup : chunks.Nodup)
    (parses : ∀ i ∈ chunks, (P.outcome i).result = .ok (P.parsed i)) (idle : Idle s)
    (waiting : ∀ i ∈ chunks, s.closures i = .waiting) :
    ∃ target, Reachable (step P) (fun _ => True) s target ∧ Idle target ∧
      (∀ i, i ∉ chunks → target.closures i = s.closures i) ∧
      target.channel.length = min P.depth
        (s.channel.length + (chunks.map fun i => (P.parsed i).batches.length).sum) := by
  induction chunks generalizing s with
  | nil => exact ⟨s, .refl, idle, fun _ _ => rfl, by simp [idle.bounded]⟩
  | cons i chunks ih =>
      rw [List.nodup_cons] at nodup
      have free : s.running < P.workers := by
        rw [running_eq_zero idle.idle]
        exact P.workers_pos
      obtain ⟨middle, advanced⟩ := exists_completed deep (parses i List.mem_cons_self)
        (waiting i List.mem_cons_self) free idle.clear idle.receiving idle.bounded
      have other : ∀ j, j ≠ i → middle.closures j = s.closures j := by
        intro j ne
        rw [advanced.closures, Function.update_of_ne ne]
      have idle' : Idle middle := by
        constructor
        · intro j
          by_cases same : j = i
          · rw [same, advanced.at]
            rfl
          · rw [other j same]
            exact idle.idle j
        · rw [advanced.parseError, idle.clear]
        · rw [advanced.writer, idle.receiving]
        · rw [advanced.channel]
          exact Nat.min_le_left _ _
      have waiting' : ∀ j ∈ chunks, middle.closures j = .waiting := by
        intro j mem
        rw [other j (fun same => nodup.1 (same ▸ mem))]
        exact waiting j (List.mem_cons_of_mem i mem)
      obtain ⟨target, reached, idle'', others, level⟩ :=
        ih nodup.2 (fun j mem => parses j (List.mem_cons_of_mem i mem)) idle' waiting'
      refine ⟨target, advanced.reached.trans reached, idle'', ?_, ?_⟩
      · intro j outside
        rw [List.mem_cons, not_or] at outside
        rw [others j outside.2, other j outside.1]
      · rw [level, advanced.channel, List.map_cons, List.sum_cons]
        omega

/-- As many chunks as there are free workers can be in `parse_chunk` together. -/
theorem exists_all_called {chunks : List (Fin P.jobs)} (nodup : chunks.Nodup)
    (waiting : ∀ i ∈ chunks, s.closures i = .waiting)
    (free : s.running + chunks.length ≤ P.workers) (clear : s.parseError = none) :
    ∃ target, Reachable (step P) (fun _ => True) s target ∧
      (∀ i ∈ chunks, target.closures i = .quarantining (P.outcome i).deadLetters) ∧
      (∀ i, i ∉ chunks → target.closures i = s.closures i) ∧
      target.channel.length = s.channel.length := by
  induction chunks generalizing s with
  | nil => exact ⟨s, .refl, fun _ mem => absurd mem List.not_mem_nil, fun _ _ => rfl, rfl⟩
  | cons i chunks ih =>
      rw [List.nodup_cons] at nodup
      rw [List.length_cons] at free
      have here := waiting i List.mem_cons_self
      obtain ⟨middle, advanced⟩ := exists_called here (by omega) clear
      have waiting' : ∀ j ∈ chunks, middle.closures j = .waiting := by
        intro j mem
        rw [advanced.closures, Function.update_of_ne (fun same : j = i => nodup.1 (same ▸ mem))]
        exact waiting j (List.mem_cons_of_mem i mem)
      have free' : middle.running + chunks.length ≤ P.workers := by
        have moved := sum_update (fun _ c => c.isRunning.toNat) s.closures i
          (.quarantining (P.outcome i).deadLetters)
        rw [running_eq_sum] at free ⊢
        rw [here] at moved
        rw [advanced.closures]
        change _ + 0 = _ + 1 at moved
        omega
      obtain ⟨target, reached, called, others, level⟩ :=
        ih nodup.2 waiting' free' (advanced.parseError.trans clear)
      refine ⟨target, advanced.reached.trans reached, ?_, ?_, level.trans advanced.channel⟩
      · intro j mem
        rcases List.mem_cons.mp mem with rfl | later
        · rw [others j nodup.1, advanced.at]
        · exact called j later
      · intro j outside
        rw [List.mem_cons, not_or] at outside
        rw [others j outside.2, advanced.closures, Function.update_of_ne outside.1]

/-- Some run fills the channel with batches of the chunks outside a set, and has not begun
with those in the set. -/
theorem exists_filled_outside (calls : Finset (Fin P.jobs)) :
    ∃ s, Reached P s ∧ Idle s ∧ (∀ i ∈ calls, s.closures i = .waiting) ∧
      min P.depth (∑ i ∈ callsᶜ, (P.parsed i).batches.length) ≤ s.channel.length := by
  let others := callsᶜ.filter fun i => (P.parsed i).batches.length ≠ 0
  let ready : State P := { State.initial P with writer := .receiving }
  have created : Reached P ready := .tail (a := .writer none) .refl trivial rfl
  have idle : Idle ready := ⟨fun _ => rfl, rfl, rfl, Nat.zero_le _⟩
  by_cases rendezvous : P.depth = 0
  · exact ⟨ready, created, idle, fun _ _ => rfl, by simp [rendezvous]⟩
  · have parses : ∀ i ∈ others.toList, (P.outcome i).result = .ok (P.parsed i) := by
      intro i mem
      have some_batch := (Finset.mem_filter.mp (Finset.mem_toList.mp mem)).2
      cases outcome : (P.outcome i).result with
      | ok parsed => rw [P.parsed_of_ok outcome]
      | error e => simp [P.parsed_of_error outcome] at some_batch
    obtain ⟨s, reached, idle', apart, level⟩ := exists_filled (Nat.pos_of_ne_zero rendezvous)
      others.nodup_toList parses idle (fun _ _ => rfl)
    refine ⟨s, created.trans reached, idle', ?_, ?_⟩
    · intro i mem
      apply apart
      intro listed
      have outside := (Finset.mem_filter.mp (Finset.mem_toList.mp listed)).1
      exact Finset.mem_compl.mp outside mem
    · rw [level, Finset.sum_map_toList, Finset.sum_filter_ne_zero]
      omega

/-- Some run has all batches of any set of calls for which there are workers in flight,
and as many of the other batches as the channel holds. -/
theorem exists_inFlight (built : Fin P.jobs → Nat) (calls : Finset (Fin P.jobs))
    (enough : calls.card ≤ P.workers) :
    ∃ s, Reached P s ∧
      ∑ i ∈ calls, built i + min P.depth (∑ i ∈ callsᶜ, (P.parsed i).batches.length) ≤
        s.inFlight built := by
  obtain ⟨s, reached, idle, waiting, level⟩ := exists_filled_outside calls
  have free : s.running + calls.toList.length ≤ P.workers := by
    rw [running_eq_zero idle.idle, Finset.length_toList]
    omega
  obtain ⟨target, rest, called, _, level'⟩ := exists_all_called calls.nodup_toList
    (fun i mem => waiting i (Finset.mem_toList.mp mem)) free idle.clear
  have held : ∑ i ∈ calls, built i = ∑ i ∈ calls, (target.closures i).heldBatches (built i) := by
    apply Finset.sum_congr rfl
    intro i mem
    rw [called i (Finset.mem_toList.mpr mem)]
    rfl
  have part := Finset.sum_le_sum_of_subset (f := fun i => (target.closures i).heldBatches (built i))
    (Finset.subset_univ calls)
  refine ⟨target, reached.trans rest, ?_⟩
  rw [State.inFlight, held, level']
  omega

/-! ## The bound -/

/-- For counts of items and sets of at most `w` indices: when the items of such a set,
and up to `d` of the others, are never more than `d + w`. -/
theorem sum_add_min_le_iff {n : Nat} (items : Fin n → Nat) (d : Nat) {w : Nat} (positive : 0 < w) :
    (∀ chosen : Finset (Fin n), chosen.card ≤ w →
        ∑ i ∈ chosen, items i + min d (∑ i ∈ chosenᶜ, items i) ≤ d + w) ↔
      (∀ i, items i ≤ 1) ∨ ∑ i, items i ≤ d + w := by
  constructor
  · intro bounded
    by_contra neither
    simp only [not_or, not_forall, not_le] at neither
    rcases neither with ⟨⟨i, several⟩, many⟩
    let filled := Finset.univ.filter fun j => items j ≠ 0
    have whole : ∑ j ∈ filled, items j = ∑ j, items j := Finset.sum_filter_ne_zero Finset.univ
    by_cases few : filled.card ≤ w
    · have := bounded filled few
      omega
    · have mem : {i} ⊆ filled := by
        rw [Finset.singleton_subset_iff, Finset.mem_filter_univ]
        omega
      obtain ⟨chosen, here, inside, card⟩ :=
        Finset.exists_subsuperset_card_eq mem ((Finset.card_singleton i).trans_le positive)
          (Nat.le_of_not_le few)
      have more : chosen.card < ∑ j ∈ chosen, items j := by
        rw [Finset.card_eq_sum_ones]
        apply Finset.sum_lt_sum
        · intro j mem
          exact Nat.one_le_iff_ne_zero.mpr (Finset.mem_filter.mp (inside mem)).2
        · exact ⟨i, Finset.singleton_subset_iff.mp here, several⟩
      have := bounded chosen (Nat.le_of_eq card)
      have := Finset.sum_add_sum_compl chosen items
      omega
  · rintro (single | few) chosen enough
    · have few : ∑ i ∈ chosen, items i ≤ chosen.card := by
        simpa using Finset.sum_le_card_nsmul chosen items 1 fun i _ => single i
      omega
    · have := Finset.sum_add_sum_compl chosen items
      omega

namespace Setup

/-- The batches that the call on chunk `i` builds. -/
def built (S : Setup) (i : Fin S.plan.jobs) : Nat :=
  builtBatches S.json S.options S.config.limit S.chunks[i]

/-- The records that the call on a chunk reads. -/
def recordsIn (S : Setup) (chunk : Bytes) : List Map :=
  recordsOf S.json S.config.flatten (S.taken chunk)

/-- The batches that the lines of a chunk make its call build. -/
def batchesBuilt (S : Setup) (chunk : Bytes) : Nat :=
  batchesOf S.json S.options S.config.limit chunk

/-- The batches that the call on a chunk returns: none when a line makes it fail. -/
def batchesReturned (S : Setup) (chunk : Bytes) : Nat :=
  if ∀ line ∈ S.taken chunk, LineOk S.json S.options line then S.batchesBuilt chunk else 0

/-- For any calls that the workers can be in together, the batches that these build, with
what the channel holds of those that the other calls return, fit into the channel and one
place for each worker. -/
def Roomy (S : Setup) : Prop :=
  ∀ calls : Finset (Fin S.plan.jobs), calls.card ≤ S.workers →
    ∑ i ∈ calls, S.batchesBuilt (S.chunks.get i) +
        min S.config.channelDepth (∑ i ∈ callsᶜ, S.batchesReturned (S.chunks.get i)) ≤
      S.config.channelDepth + S.workers

theorem built_eq (S : Setup) (i : Fin S.plan.jobs) :
    S.built i = S.batchesBuilt (S.chunks.get i) :=
  builtBatches_eq S.json S.options S.config.limit (S.chunks.get i)

theorem built_of_ok {S : Setup} {i : Fin S.plan.jobs} {parsed : Parsed}
    (succeeded : (S.plan.outcome i).result = .ok parsed) : S.built i = parsed.batches.length :=
  builtBatches_of_ok succeeded

theorem length_returned (S : Setup) (i : Fin S.plan.jobs) :
    (S.plan.parsed i).batches.length = S.batchesReturned (S.chunks.get i) := by
  unfold batchesReturned
  split
  · rename_i ok
    obtain ⟨parsed, succeeded⟩ : ∃ parsed, (S.plan.outcome i).result = .ok parsed :=
      parseChunk_isOk_iff.mpr ok
    rw [S.plan.parsed_of_ok succeeded, ← built_eq, built_of_ok succeeded]
  · rename_i some_bad
    cases outcome : (S.plan.outcome i).result with
    | ok parsed => exact absurd (parseChunk_isOk_iff.mp ⟨parsed, outcome⟩) some_bad
    | error e =>
        rw [S.plan.parsed_of_error outcome]
        rfl

theorem buildsAtLeast (S : Setup) : S.plan.BuildsAtLeast S.built := by
  intro i
  cases outcome : (S.plan.outcome i).result with
  | ok parsed => rw [S.plan.parsed_of_ok outcome, built_of_ok outcome]
  | error e => simp [S.plan.parsed_of_error outcome]

/-- When every chunk is parsed, what counts is how many records the chunks have. -/
theorem roomy_iff {S : Setup} (all : S.plan.AllParsed) :
    S.Roomy ↔
      (∀ chunk ∈ S.chunks, (S.recordsIn chunk).length ≤ max S.config.batchSize 1) ∨
        (S.chunks.map fun chunk => batchCount S.config.batchSize (S.recordsIn chunk).length).sum ≤
          S.config.channelDepth + S.workers := by
  have built : ∀ i : Fin S.plan.jobs,
      S.built i = batchCount S.config.batchSize (S.recordsIn S.chunks[i]).length := by
    intro i
    rw [built_of_ok (all i)]
    exact length_batches (delivers_of_allParsed all i).1
  have returned : ∀ i, (S.plan.parsed i).batches.length = S.built i := fun i =>
    (built_of_ok (all i)).symm
  unfold Roomy
  simp only [← built_eq, ← length_returned, returned]
  rw [sum_add_min_le_iff S.built S.config.channelDepth S.workers_pos]
  simp only [built, batchCount_le_one_iff]
  rw [S.sum_chunks fun chunk => batchCount S.config.batchSize (S.recordsIn chunk).length]
  apply or_congr_left
  constructor
  · intro few chunk mem
    rcases List.mem_iff_getElem.mp mem with ⟨i, inside, rfl⟩
    exact few ⟨i, inside⟩
  · exact fun few i => few _ (List.getElem_mem i.isLt)

end Setup

/-- In every state of every run, the batches that are built and not taken by the writer
fit into the channel and one place for each worker. -/
def InFlightBounded (S : Setup) : Prop :=
  ∀ s : State S.plan, Reached S.plan s → s.inFlight S.built ≤ S.config.channelDepth + S.workers

/-- The batches in flight are bounded by the depth of the channel and the number of workers
exactly when the batches that the lines of the chunks make up are: when all chunks are
parsed, no chunk fills more than one batch, or all chunks together fill no more batches
than the bound. -/
theorem inFlightBounded_iff (S : Setup) :
    (InFlightBounded S ↔ S.Roomy) ∧
      (S.plan.AllParsed →
        (S.Roomy ↔
          (∀ chunk ∈ S.chunks, (S.recordsIn chunk).length ≤ max S.config.batchSize 1) ∨
            (S.chunks.map fun chunk =>
                batchCount S.config.batchSize (S.recordsIn chunk).length).sum ≤
              S.config.channelDepth + S.workers)) := by
  refine ⟨⟨?_, ?_⟩, Setup.roomy_iff⟩
  · intro bounded calls enough
    obtain ⟨s, reached, many⟩ := exists_inFlight S.built calls enough
    simp only [← Setup.built_eq, ← Setup.length_returned]
    exact many.trans (bounded s reached)
  · intro roomy s reached
    have busy : s.occupied.card ≤ S.workers := by
      rw [card_occupied]
      exact reached.dispatched.running
    have fits := roomy s.occupied busy
    simp only [← Setup.built_eq, ← Setup.length_returned] at fits
    exact (reached.inFlight_le S.buildsAtLeast).trans fits

/-- Two workers on a chunk of two lines and one of one line, with batches of one row and a
channel of depth `1`. -/
theorem inFlightBounded_two_chunks :
    ∃ S : Setup, S.config.batchSize = 1 ∧ S.config.channelDepth = 1 ∧ S.workers = 2 ∧
      S.chunks.map (fun chunk => (S.recordsIn chunk).length) = [2, 1] ∧ InFlightBounded S := by
  let config := { PipelineConfig.default with channelDepth := 1, batchSize := 1 }
  let input := ascii "\x7b\"a\":1\x7d\n\x7b\"a\":1\x7d\n\x7b\"a\":true\x7d"
  let S : Setup :=
    { Setup.sample config input with
      chunks := fixedChunks input (some 10)
      flatten_chunks := flatten_fixedChunks input (some 10)
      delimited := delimited_fixedChunks input (some 10)
      workers := 2
      workers_pos := Nat.two_pos }
  have all : S.plan.AllParsed := S.plan.allParsed_iff.mpr fun
    | ⟨0, _⟩ => ⟨_, rfl⟩
    | ⟨1, _⟩ => ⟨_, rfl⟩
  obtain ⟨bounded, roomy⟩ := inFlightBounded_iff S
  refine ⟨S, rfl, rfl, rfl, rfl, bounded.mpr ((roomy all).mpr (.inr ?_))⟩
  decide

/-- One worker on one chunk of three lines, with batches of one row and a channel of depth
`1`, holds three batches at a time. -/
theorem three_batches_in_flight :
    ∃ S : Setup, S.config.channelDepth = 1 ∧ S.workers = 1 ∧ S.chunks.length = 1 ∧
      (∃ s : State S.plan, Reached S.plan s ∧ s.channel = [] ∧ s.inFlight S.built = 3) ∧
        ¬ InFlightBounded S := by
  let input := ascii "\x7b\"a\":1\x7d\n\x7b\"a\":1\x7d\n\x7b\"a\":1\x7d"
  let S : Setup :=
    { Setup.sample { PipelineConfig.default with channelDepth := 1, batchSize := 1 } input with
      chunks := fixedChunks input (some 64)
      flatten_chunks := flatten_fixedChunks input (some 64)
      delimited := delimited_fixedChunks input (some 64) }
  let schedule : List (Action S.plan) := List.replicate 5 (.closure ⟨0, by decide⟩)
  have reached : Reached S.plan _ :=
    reachable_of_run (fun _ _ => trivial) (rfl : run (step S.plan) schedule (.initial _) = some _)
  refine ⟨S, rfl, rfl, rfl, ⟨_, reached, rfl, rfl⟩, ?_⟩
  intro bounded
  have few : 3 ≤ 2 := bounded _ reached
  exact absurd few (by decide)

end Parq.Pipeline
