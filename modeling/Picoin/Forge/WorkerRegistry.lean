import Mathlib.Data.List.Sort
import Picoin.Core.Clock
import Picoin.Lib.Rounding
import Picoin.Lib.Table

/-!
# The registry of workers

The coordinator keeps a row for each worker: its registration, its last benchmark, and the scores that
an epoch is shared out by. Scores are exact numbers. The table is only written one row at a time, under
the id in the registration.

* **`register`**, **`updateBenchmark`**, **`heartbeat`**, **`penalizeMissedHeartbeats`** — the
  operations of `WorkerRegistry`;
* **`refreshWorkerScore`** — the score that the other scores are weighed into.
-/

namespace Picoin.Forge.Coordinator

/-- `round(value, 8)` in steps of `10 ^ -8`. -/
def roundSteps (value : ℚ) : ℤ := Rounding.roundEven (value * 10 ^ 8)

/-- `round(value, 8)`. -/
def roundEight (value : ℚ) : ℚ := roundSteps value / 10 ^ 8

/-- A time that a request carries. One without a zone cannot be compared with the coordinator's. -/
inductive RequestTime where
  | aware (instant : Instant)
  | naive

inductive WorkerStatus where
  | registered
  | online
  | offline
  | penalized
deriving DecidableEq

structure WorkerRegistration where
  workerId : String
  wallet : String
  publicKey : String
  status : WorkerStatus

structure BenchmarkResult where
  workerId : String
  cpuScore : ℚ
  gpuScore : ℚ
  ramScore : ℚ
  ioScore : ℚ

structure WorkerState where
  registration : WorkerRegistration
  benchmark : Option BenchmarkResult
  lastHeartbeatAt : Option RequestTime
  passedChallenges : ℤ
  failedChallenges : ℤ
  penaltyScore : ℚ
  uptimeScore : ℚ
  reliabilityScore : ℚ
  aiModelScore : ℚ
  verifiedComputeScore : ℚ

/-- `WorkerState(registration=…)`. -/
def newWorkerState (registration : WorkerRegistration) : WorkerState where
  registration := registration
  benchmark := none
  lastHeartbeatAt := none
  passedChallenges := 0
  failedChallenges := 0
  penaltyScore := 0
  uptimeScore := 0
  reliabilityScore := 50
  aiModelScore := 0
  verifiedComputeScore := 0

/-- The table `workers`. -/
abbrev Workers := Sql.Table String WorkerState

namespace WorkerRegistry

/-- `put`. -/
def put (workers : Workers) (state : WorkerState) : Workers :=
  workers.upsert state.registration.workerId state

/-- `get`. -/
def get (workers : Workers) (workerId : String) : Except String WorkerState :=
  match workers.find? workerId with
  | some state => .ok state
  | none => .error s!"worker not found: {workerId}"

/-- `all`. -/
def all (workers : Workers) : List WorkerState :=
  (workers.rows.insertionSort fun a b => a.1 ≤ b.1).map Prod.snd

/-- `register`: a worker that is known keeps its scores. -/
def register (workers : Workers) (registration : WorkerRegistration) : Workers :=
  match workers.find? registration.workerId with
  | some state => put workers { state with registration := registration }
  | none => put workers (newWorkerState registration)

/-- `update_benchmark`. -/
def updateBenchmark (workers : Workers) (benchmark : BenchmarkResult) : Except String Workers := do
  let state ← get workers benchmark.workerId
  return put workers { state with benchmark := some benchmark }

/-- `heartbeat`. -/
def heartbeat (workers : Workers) (workerId : String) (timestamp : RequestTime) :
    Except String Workers := do
  let state ← get workers workerId
  return put workers { state with
    registration := { state.registration with status := .online }
    lastHeartbeatAt := some timestamp
    uptimeScore := min 100 (state.uptimeScore + 1) }

/-- A worker whose heartbeat is missed. -/
def missedHeartbeat (penalty : ℚ) (state : WorkerState) : WorkerState :=
  { state with
    registration := { state.registration with status := .offline }
    penaltyScore := state.penaltyScore + penalty
    uptimeScore := max 0 (state.uptimeScore - penalty)
    reliabilityScore := max 0 (state.reliabilityScore - penalty) }

/-- The loop of `penalize_missed_heartbeats`; a heartbeat without a zone ends it with an error. -/
def penalizeEach (now : Instant) (graceSeconds : ℤ) (penalty : ℚ) :
    List WorkerState → Workers → Workers
  | [], workers => workers
  | state :: rest, workers =>
    match state.lastHeartbeatAt with
    | none => penalizeEach now graceSeconds penalty rest workers
    | some .naive => workers
    | some (.aware last) =>
      if now - last ≤ graceSeconds * 10 ^ 6 then penalizeEach now graceSeconds penalty rest workers
      else penalizeEach now graceSeconds penalty rest (put workers (missedHeartbeat penalty state))

/-- `penalize_missed_heartbeats`. -/
def penalizeMissedHeartbeats (now : Instant) (graceSeconds : ℤ) (penalty : ℚ) (workers : Workers) :
    Workers :=
  penalizeEach now graceSeconds penalty (all workers) workers

end WorkerRegistry

/-! ## Scores -/

structure ScoreWeights where
  cpuWeight : ℚ
  gpuWeight : ℚ
  aiModelWeight : ℚ
  ramWeight : ℚ
  ioWeight : ℚ
  uptimeWeight : ℚ
  reliabilityWeight : ℚ

/-- `DEFAULT_WEIGHTS`. -/
def defaultWeights : ScoreWeights where
  cpuWeight := 1
  gpuWeight := 5 / 2
  aiModelWeight := 3
  ramWeight := 35 / 100
  ioWeight := 25 / 100
  uptimeWeight := 1 / 2
  reliabilityWeight := 3 / 4

/-- `calculate_verified_compute_score`. -/
def calculateVerifiedComputeScore (state : WorkerState) (weights : ScoreWeights) : ℚ :=
  match state.benchmark with
  | none => 0
  | some benchmark =>
    let score :=
      benchmark.cpuScore * weights.cpuWeight
        + benchmark.gpuScore * weights.gpuWeight
        + state.aiModelScore * weights.aiModelWeight
        + benchmark.ramScore * weights.ramWeight
        + benchmark.ioScore * weights.ioWeight
        + state.uptimeScore * weights.uptimeWeight
        + state.reliabilityScore * weights.reliabilityWeight
        - state.penaltyScore
    roundEight (max 0 score)

/-- `refresh_worker_score`. -/
def refreshWorkerScore (state : WorkerState) : WorkerState :=
  { state with verifiedComputeScore := calculateVerifiedComputeScore state defaultWeights }

end Picoin.Forge.Coordinator
