import Picoin.Forge.AiAccessQueue
import Picoin.Forge.WorkloadQueue

/-!
# Concurrent claims

Each storage call of a queue is a transaction of its own. A call of `claim_next`, of `cancel` or of
`release_expired_assignments` reads rows in one transaction and puts whole rows back in later ones,
and the transactions of different calls come in any order.

* **`workloadStep`** — a transaction of the workload queue;
* **`aiClaimStep`** — a transaction of the queue of AI requests.
-/

namespace Picoin.Forge

/-! ## The workload queue -/

/-- A task that a call of `claim_next` has read. -/
structure WorkloadClaim where
  workerId : String
  task : WorkloadTask

/-- The table, the calls under way, and the claims that have returned: the task and the worker. -/
structure WorkloadClaims where
  tasks : Workloads
  calls : Sql.Table ℕ WorkloadClaim
  returned : List (String × String)

inductive WorkloadCall where
  | read (call : ℕ) (workerId : String)
  | put (call : ℕ) (now : Instant)

/-- One transaction. -/
def workloadStep (s : WorkloadClaims) : WorkloadCall → WorkloadClaims
  | .read call workerId => match WorkloadQueue.nextQueued s.tasks with
    | none => s
    | some task => { s with calls := s.calls.insertNew call ⟨workerId, task⟩ }
  | .put call now => match s.calls.find? call with
    | none => s
    | some claim =>
      { tasks := s.tasks.upsert claim.task.taskId
          (WorkloadQueue.claimTask claim.workerId now claim.task)
        calls := s.calls.filterRows fun id _ => id ≠ call
        returned := s.returned ++ [(claim.task.taskId, claim.workerId)] }

/-! ## The queue of AI requests -/

/-- What a call has left to do with what it has read. -/
inductive AiCall where
  | release (items : List AIInferenceRequest) (now : Instant)
  | claim (worker : WorkerState) (items : List AIInferenceRequest)
  | cancel (item : AIInferenceRequest)

/-- What the calls have written: an assignment with its lease, the release of an assignment with its
time, a cancellation. -/
inductive AiRecord where
  | claimed (requestId workerId : String) (leaseExpiresAt : Instant)
  | released (requestId : String) (now : Instant)
  | canceled (requestId : String)
deriving DecidableEq

structure AiClaims where
  requests : AiRequests
  calls : Sql.Table ℕ AiCall
  written : List AiRecord

inductive AiTransaction where
  | readExpired (call : ℕ) (now : Instant)
  | putReleased (call : ℕ)
  | readQueued (call : ℕ) (worker : WorkerState)
  | putClaimed (call : ℕ) (views : String → List WorkerState × (String → ℕ)) (now : Instant)
  | readCanceled (call : ℕ) (requestId : String)
  | putCanceled (call : ℕ) (now : Instant)

/-- One transaction. A call of `claim_next` makes those of `release_expired_assignments` first; where
the worker is unknown or cannot serve, it makes no others. -/
def aiClaimStep (fc : ForgeConfig) (s : AiClaims) : AiTransaction → AiClaims
  | .readExpired call now =>
    let items := (s.requests.rows.map Prod.snd).filter (leaseOver now)
    { s with calls := s.calls.insertNew call (.release items now) }
  | .putReleased call => match s.calls.find? call with
    | some (.release (item :: rest) now) =>
      { requests := s.requests.upsert item.requestId (releaseExpiredAssignment fc now item)
        calls := s.calls.upsert call (.release rest now)
        written := s.written ++ [.released item.requestId now] }
    | _ => s
  | .readQueued call worker =>
    if workerCanServeAi worker then
      { s with calls := s.calls.insertNew call (.claim worker (queuedRequests s.requests)) }
    else s
  | .putClaimed call views now => match s.calls.find? call with
    | some (.claim worker items) => match chooseRequest views worker items with
      | none => { s with calls := s.calls.filterRows fun id _ => id ≠ call }
      | some item =>
        { requests := s.requests.upsert item.requestId (item.claim fc worker now)
          calls := s.calls.filterRows fun id _ => id ≠ call
          written := s.written ++ [.claimed item.requestId worker.workerId
            (now + seconds fc.aiRequestLeaseSeconds)] }
    | _ => s
  | .readCanceled call requestId => match s.requests.find? requestId with
    | none => s
    | some item => { s with calls := s.calls.insertNew call (.cancel item) }
  | .putCanceled call now => match s.calls.find? call with
    | some (.cancel item) => match cancelItem now item with
      | .error _ => { s with calls := s.calls.filterRows fun id _ => id ≠ call }
      | .ok canceled =>
        if canceled.status = .canceled ∧ item.status ≠ .canceled then
          { requests := s.requests.upsert item.requestId canceled
            calls := s.calls.filterRows fun id _ => id ≠ call
            written := s.written ++ [.canceled item.requestId] }
        else { s with calls := s.calls.filterRows fun id _ => id ≠ call }
    | _ => s

end Picoin.Forge
