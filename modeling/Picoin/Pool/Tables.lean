import Picoin.Core.Clock
import Picoin.Core.Merkle
import Picoin.Lib.Json
import Picoin.Lib.Table

/-!
# The tables of the mining pool

The pool is one miner to the network. It splits the range of its task into chunks, hands them to
its workers, and keeps a share for the work that a worker has done; the shares divide the reward
of a block that the pool has won.

A time is kept as an instant. A payload of the network is kept as the value that its text holds.
-/

namespace Picoin.Pool

open Json

/-- A row of `pool_workers`, under its worker id. -/
structure WorkerRow where
  name : Option String
  payoutAddress : Option String
  registeredAt : Instant
  lastSeenAt : Instant

inductive TaskStatus where
  | gathering
  | active
  | submitting
  | submitted
  | validationPending
  | unsettled
  | accepted
  | rejected
  | expired
  | stale
  | lost
  | error
deriving DecidableEq

/-- A row of `pool_tasks`, under its pool task id. -/
structure TaskRow where
  mainnetTaskId : String
  status : TaskStatus
  rangeStart : ℤ
  rangeEnd : ℤ
  algorithm : String
  rawTask : Value
  rawCommit : Option Value
  rawReveal : Option Value
  error : Option String
  createdAt : Instant
  completedAt : Option Instant

inductive ChunkStatus where
  | pending
  | assigned
  | completed
deriving DecidableEq

/-- A row of `pool_chunks`, under its chunk id. -/
structure ChunkRow where
  poolTaskId : String
  workerId : Option String
  status : ChunkStatus
  rangeStart : ℤ
  rangeEnd : ℤ
  segment : Option String
  computeMs : ℤ
  assignedAt : Option Instant
  submittedAt : Option Instant
  units : ℤ

/-- A row of `pool_shares`, under its share id. -/
structure ShareRow where
  workerId : String
  poolTaskId : String
  chunkId : String
  units : ℤ
  credited : Bool
  createdAt : Instant

/-- The number of positions of a chunk. -/
def ChunkRow.length (chunk : ChunkRow) : ℤ := chunk.rangeEnd - chunk.rangeStart + 1

/-- A waiting chunk: the columns that a chunk loses when it is taken from its worker. -/
def ChunkRow.release (chunk : ChunkRow) : ChunkRow :=
  { chunk with status := .pending, workerId := none, assignedAt := none }

/-- What `int` and `calculate_pi_segment` give, the upper case of a text, and the settings of the
coordinator. -/
structure PoolConfig where
  chunkSize : Option ℤ
  hybridRace : Bool
  chunkTimeoutSeconds : ℤ
  verifyChunks : Bool
  requireWorkerPayout : Bool
  speculativeChunks : Bool
  caseMap : CaseMap
  isValidAddress : String → Bool
  calculatePiSegment : ℤ → ℤ → String → Option String

/-- What a request to the pool raises. -/
inductive PoolError where
  | value (detail : String)
  | integrity (detail : String)
  | runtime (detail : String)

end Picoin.Pool
