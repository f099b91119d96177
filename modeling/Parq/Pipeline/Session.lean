import Parq.Pipeline.Outcomes

/-!
# Several conversions in one process

Rayon's global pool is built by the first call of `run_pipeline` in a process.  Later calls
ask for a pool again, and the error that `build_global` then returns is dropped, so they run
on the pool that is there.  The pool has no part in what a call may return.
-/

namespace Parq.Pipeline

open Parq.Data
open Parq.Parser

/-- The number of workers of a pool. -/
abbrev Pool :=
  { size : Nat // 0 < size }

/-- The machine as a call sees it in a process that has this pool already. -/
def Host.inPool (host : Host) (pool : Pool) : Host :=
  { host with
    poolSize := fun _ => pool.val
    poolSize_pos := fun _ => pool.property }

/-- The machine as a call sees it in a process that may have a pool. -/
def Host.inProcess (host : Host) : Option Pool → Host
  | none => host
  | some pool => host.inPool pool

/-- `threads` in `run_pipeline`. -/
def Host.threadsFor (host : Host) (config : PipelineConfig) : Nat :=
  if config.numThreads = 0 then host.numCpus else config.numThreads

/-- The pool that a process has after a call: the one it had, or the one that the call
builds before it opens its input. -/
def Host.poolAfter (host : Host) (config : PipelineConfig) : Option Pool → Pool
  | some pool => pool
  | none => ⟨host.poolSize (host.threadsFor config), host.poolSize_pos _⟩

/-! ## Runs on other pools -/

/-- The same run on a pool of this size. -/
def Setup.onPool (S : Setup) (pool : Pool) : Setup :=
  { S with
    workers := pool.val
    workers_pos := pool.property }

/-- The pool has no part in the preparation. -/
theorem prepare_inPool (J : SerdeJson) (host : Host) (pool : Pool) (config : PipelineConfig) :
    prepare J (host.inPool pool) config =
      (prepare J host config).map fun S => S.onPool pool := by
  unfold prepare Host.inPool
  dsimp only
  cases host.openInput config.inputPath with
  | error message => rfl
  | ok rawBytes =>
      have same : chooseSchema J
          { host with
            poolSize := fun _ => pool.val
            poolSize_pos := fun _ => pool.property } config rawBytes =
          chooseSchema J host config rawBytes := rfl
      dsimp only
      rw [same]
      cases chooseSchema J host config rawBytes with
      | error e => rfl
      | ok schema => rfl

/-- Nor has it in what a run may return. -/
theorem Setup.mayReturn_onPool (S : Setup) (pool : Pool) (result : Except Error ProcessingMetrics) :
    (S.onPool pool).MayReturn result ↔ S.MayReturn result := by
  constructor
  · rintro (all | ⟨mem, failed⟩ | ⟨all, f⟩)
    · exact MayReturn.ok (S := S) all
    · exact MayReturn.refused (S := S) mem failed
    · exact MayReturn.fault (S := S) all f
  · rintro (all | ⟨mem, failed⟩ | ⟨all, f⟩)
    · exact MayReturn.ok (S := S.onPool pool) all
    · exact MayReturn.refused (S := S.onPool pool) mem failed
    · exact MayReturn.fault (S := S.onPool pool) all f

/-- `run_pipeline` returns what its preparation returns, or what the prepared run may
return. -/
theorem returns_iff (J : SerdeJson) (host : Host) (config : PipelineConfig)
    (result : Except Error ProcessingMetrics) :
    Returns J host config result ↔
      match prepare J host config with
      | .error e => result = .error e
      | .ok S => S.MayReturn result := by
  unfold Returns
  cases prepare J host config with
  | error e => exact Iff.rfl
  | ok S =>
      constructor
      · rintro ⟨s, reached, returned⟩
        exact reached.mayReturn returned
      · exact fun may => may.exists_state

/-- A call may return in a process with a pool what it may return in one without. -/
theorem returns_inProcess (J : SerdeJson) (host : Host) (pool : Option Pool)
    (config : PipelineConfig) (result : Except Error ProcessingMetrics) :
    Returns J (host.inProcess pool) config result ↔ Returns J host config result := by
  cases pool with
  | none => exact Iff.rfl
  | some pool =>
      rw [returns_iff, returns_iff, Host.inProcess, prepare_inPool]
      cases prepare J host config with
      | error e => exact Iff.rfl
      | ok S => exact S.mayReturn_onPool pool result

end Parq.Pipeline
