import Picoin.Lib.Run
import Picoin.Pool.Tables

/-!
# The work of the pool

A worker registers, claims a chunk, computes its digits and submits them. The first complete
submission of a chunk wins it; where all workers race over the whole task, a later one earns a part
of the units.

A submission takes two transactions: the first reads the chunk and its task, the second writes, and
requests of other workers can come between them. `PoolState` holds the submissions that have read
and not written yet, and the tasks that are being finalized.

* **`submitPlan`** is what a submission decides from what it has read;
* **`resumeSubmit`** is its second transaction;
* **`step`** is one transaction of the pool.
-/

namespace Picoin.Pool

open Json

/-! ## The state -/

/-- A call of `submit_work` with its cleaned arguments, and the rows that it has read. -/
structure SubmitCall where
  workerId : String
  chunkId : String
  segment : String
  computeMs : ℤ
  chunk : ChunkRow
  task : TaskRow

/-- The tables of the pool, and the calls between their transactions. -/
structure PoolState where
  workers : Sql.Table String WorkerRow
  tasks : Sql.Table String TaskRow
  chunks : Sql.Table String ChunkRow
  shares : Sql.Table String ShareRow
  calls : List SubmitCall
  finalizing : List String

def PoolState.empty : PoolState :=
  ⟨Sql.Table.empty, Sql.Table.empty, Sql.Table.empty, Sql.Table.empty, [], []⟩

/-- The answer to a worker. -/
structure SubmitResult where
  status : String
  units : ℤ
  message : String

/-! ## Workers -/

/-- `_normalize_payout_address`. -/
def normalizePayoutAddress (pc : PoolConfig) (payoutAddress : Option String) :
    Except PoolError (Option String) :=
  match payoutAddress with
  | none => .ok none
  | some address =>
    let normalized := pc.caseMap.upper (strip address)
    if normalized = "" then .ok none
    else if pc.isValidAddress normalized then .ok (some normalized)
    else .error (.value "payout_address must be a valid PI wallet address")

/-- `register_worker`: a worker keeps the payout address that it registered first. -/
def registerWorker (pc : PoolConfig) (s : PoolState) (workerId : String)
    (name payoutAddress : Option String) (now : Instant) : Except PoolError PoolState := do
  let workerId := strip workerId
  if workerId = "" then .error (.value "worker_id is required")
  else
    let payout ← normalizePayoutAddress pc payoutAddress
    if pc.requireWorkerPayout ∧ payout = none then
      .error (.value "payout_address is required for public pool workers")
    else
      let row : WorkerRow := match s.workers.find? workerId with
        | none => ⟨name, payout, now, now⟩
        | some worker =>
          { worker with
            name := name.or worker.name
            payoutAddress := worker.payoutAddress.or payout
            lastSeenAt := now }
      return { s with workers := s.workers.upsert workerId row }

/-- `UPDATE pool_workers SET last_seen_at`. -/
def PoolState.seen (s : PoolState) (workerId : String) (now : Instant) : PoolState :=
  { s with workers := s.workers.modify workerId fun worker => { worker with lastSeenAt := now } }

/-! ## Claims -/

/-- The task of a chunk takes submissions. -/
def gathers (s : PoolState) (chunk : ChunkRow) : Bool :=
  (s.tasks.find? chunk.poolTaskId).any fun task =>
    task.status = .gathering || task.status = .active

/-- The rows that come first; the statement picks any of them. -/
def leastRows {κ ρ : Type} (before : ρ → ρ → Bool) (rows : List (κ × ρ)) : List (κ × ρ) :=
  rows.filter fun r => rows.all fun r' => !before r'.2 r.2

/-- `COALESCE(assigned_at, '')` of the first comes before that of the second. -/
def assignedBefore (a b : Option Instant) : Bool :=
  match a, b with
  | none, some _ => true
  | some a, some b => a < b
  | _, none => false

/-- The chunks that `claim_work` may hand out, waiting ones first. -/
def claimable (pc : PoolConfig) (s : PoolState) (workerId : String) : List (String × ChunkRow) :=
  let open' (status : ChunkStatus) :=
    s.chunks.rows.filter fun r => r.2.status = status && gathers s r.2
  match open' .pending with
  | [] =>
    if pc.speculativeChunks then
      leastRows (fun a b =>
        (a.workerId ≠ some workerId && b.workerId = some workerId) ||
          ((a.workerId = some workerId) = (b.workerId = some workerId) &&
            assignedBefore a.assignedAt b.assignedAt)) (open' .assigned)
    else []
  | pending => leastRows (fun a b => a.rangeStart < b.rangeStart) pending

/-- The chunk goes to the worker. -/
def ChunkRow.assignTo (workerId : String) (now : Instant) (chunk : ChunkRow) : ChunkRow :=
  if chunk.status = .completed then chunk
  else { chunk with status := .assigned, workerId := some workerId, assignedAt := some now }

/-- The part of `claim_work` that looks at the worker: an unknown worker is registered. -/
def registerClaimant (pc : PoolConfig) (s : PoolState) (workerId : String) (now : Instant) :
    Except PoolError PoolState :=
  match s.workers.find? workerId with
  | none =>
    if pc.requireWorkerPayout then
      .error (.value "worker must register with payout_address before requesting work")
    else .ok { s with workers := s.workers.upsert workerId ⟨none, none, now, now⟩ }
  | some worker =>
    if pc.requireWorkerPayout ∧ textOr worker.payoutAddress "" = "" then
      .error (.value "worker payout_address is required before requesting work")
    else .ok s

/-- `claim_work`; `choice` is the choice among the rows that come first. -/
def claimWork (pc : PoolConfig) (s : PoolState) (workerId : String) (choice : ℕ) (now : Instant) :
    Except PoolError PoolState := do
  let workerId := strip workerId
  if workerId = "" then .error (.value "worker_id is required")
  else
    let s := (← registerClaimant pc s workerId now).seen workerId now
    let rows := claimable pc s workerId
    match rows[choice % rows.length]? with
    | none => return s
    | some r => return { s with chunks := s.chunks.modify r.1 (ChunkRow.assignTo workerId now) }

/-! ## Submissions -/

/-- The first transaction of `submit_work`: it reads the chunk and its task. -/
def beginSubmit (pc : PoolConfig) (s : PoolState) (workerId chunkId segment : String)
    (computeMs : ℤ) : Except PoolError PoolState :=
  let chunkId := strip chunkId
  match s.chunks.find? chunkId with
  | none => .error (.value "unknown chunk_id")
  | some chunk =>
    match s.tasks.find? chunk.poolTaskId with
    | none => .error (.value "unknown chunk_id")
    | some task =>
      let call : SubmitCall :=
        ⟨strip workerId, chunkId, pc.caseMap.upper (strip segment), computeMs, chunk, task⟩
      .ok { s with calls := s.calls ++ [call] }

/-- `_is_full_task_race_row`. -/
def isFullTaskRaceRow (pc : PoolConfig) (chunk : ChunkRow) (task : TaskRow) : Bool :=
  pc.hybridRace && chunk.rangeStart = task.rangeStart && chunk.rangeEnd = task.rangeEnd &&
    chunk.units = task.rangeEnd - task.rangeStart + 1

/-- A late submission to a race is credited while the task has one of these statuses. -/
def TaskStatus.creditsLate : TaskStatus → Bool
  | .gathering | .submitting => true
  | _ => false

def TaskStatus.takesWork : TaskStatus → Bool
  | .gathering | .active => true
  | _ => false

/-- The units of a late submission to a race. -/
def lateCreditUnits (call : SubmitCall) : ℤ :=
  let winnerMs := max 1 call.chunk.computeMs
  let workerMs := max 1 call.computeMs
  let taskUnits := max 1 call.chunk.units
  max 0 (min taskUnits (taskUnits * winnerMs / workerMs))

/-- The digits of the chunk that a call is about. -/
def SubmitCall.expected (pc : PoolConfig) (call : SubmitCall) : Option String :=
  (pc.calculatePiSegment call.chunk.rangeStart call.chunk.rangeEnd call.task.algorithm).map
    pc.caseMap.upper

/-- What `submit_work` does after its first transaction. -/
inductive SubmitPlan where
  | fail (error : PoolError)
  | answer (result : SubmitResult)
  | reject
  | complete
  | creditLate (units : ℤ)

def staleResult (message : String) : SubmitResult := ⟨"stale", 0, message⟩

/-- The decision of `submit_work`. -/
def submitPlan (pc : PoolConfig) (call : SubmitCall) : SubmitPlan :=
  if (call.segment.length : ℤ) ≠ call.chunk.length then
    .fail (.value "segment length does not match chunk range")
  else if call.chunk.status = .completed then
    if isFullTaskRaceRow pc call.chunk call.task && call.task.status.creditsLate then
      if lateCreditUnits call ≤ 0 then
        .answer (staleResult "full task race submit was too slow for share credit")
      else .creditLate (lateCreditUnits call)
    else .answer (staleResult "chunk already completed by another worker")
  else if !call.task.status.takesWork then .answer (staleResult "chunk is no longer active")
  else if pc.verifyChunks then
    match call.expected pc with
    | none => .fail (.value "range_start must be >= 1")
    | some expected => if call.segment = expected then .complete else .reject
  else .complete

/-- A wrong segment: the chunk waits again, unless another worker has completed it. -/
def rejectSegment (s : PoolState) (call : SubmitCall) : PoolState :=
  { s with
    chunks := s.chunks.modify call.chunkId fun chunk =>
      if chunk.status = .completed then chunk else chunk.release }

/-- `INSERT INTO pool_shares`. -/
def insertShare (s : PoolState) (shareId : String) (call : SubmitCall) (units : ℤ) (now : Instant) :
    Except PoolError PoolState :=
  match s.shares.insert? shareId ⟨call.workerId, call.chunk.poolTaskId, call.chunkId, units, false,
      now⟩ with
  | none => .error (.integrity "UNIQUE constraint failed: pool_shares.share_id")
  | some shares => .ok { s with shares }

/-- The chunk is open in the table. -/
def chunkOpen (s : PoolState) (chunkId : String) : Bool :=
  (s.chunks.find? chunkId).any fun chunk => chunk.status ≠ .completed

/-- The completing transaction of `submit_work`. -/
def completeChunk (s : PoolState) (call : SubmitCall) (shareId : String) (now : Instant) :
    Except PoolError (PoolState × SubmitResult) := do
  if !chunkOpen s call.chunkId then
    return (s, staleResult "chunk already completed by another worker")
  else if (s.workers.find? call.workerId).isNone then
    .error (.integrity "FOREIGN KEY constraint failed")
  else
    let s := { s with
      chunks := s.chunks.modify call.chunkId fun chunk =>
        { chunk with
          status := .completed
          workerId := some call.workerId
          segment := some call.segment
          computeMs := max 0 call.computeMs
          submittedAt := some now } }
    let s ← insertShare s shareId call call.chunk.length now
    return (s.seen call.workerId now, ⟨"accepted", call.chunk.length, ""⟩)

/-- The worker has a share of the chunk. -/
def hasShare (s : PoolState) (call : SubmitCall) : Bool :=
  s.shares.rows.any fun r => r.2.poolTaskId = call.chunk.poolTaskId &&
    r.2.chunkId = call.chunkId && r.2.workerId = call.workerId

/-- The chunk is completed and its task still credits late submissions. -/
def raceOpen (s : PoolState) (chunkId : String) : Bool :=
  (s.chunks.find? chunkId).any fun chunk =>
    chunk.status = .completed &&
      (s.tasks.find? chunk.poolTaskId).any fun task => task.status.creditsLate

/-- The second transaction of `_credit_late_full_task_race_share`. -/
def creditLateShare (s : PoolState) (call : SubmitCall) (units : ℤ) (shareId : String)
    (now : Instant) : Except PoolError (PoolState × SubmitResult) := do
  if !raceOpen s call.chunkId then
    return (s, staleResult "chunk already completed by another worker")
  else if hasShare s call then
    return (s, staleResult "worker already credited for full task race")
  else
    let s ← insertShare s shareId call units now
    return (s.seen call.workerId now, ⟨"accepted", units, "full task race share credited"⟩)

/-- The second transaction of `submit_work`. -/
def resumeSubmit (pc : PoolConfig) (s : PoolState) (call : SubmitCall) (shareId : String)
    (now : Instant) : Except PoolError (PoolState × SubmitResult) :=
  match submitPlan pc call with
  | .fail error => .error error
  | .answer result => .ok (s, result)
  | .reject => .ok (rejectSegment s call, ⟨"error", 0, "submitted segment failed pool verification"⟩)
  | .complete => completeChunk s call shareId now
  | .creditLate units => creditLateShare s call units shareId now

/-! ## Assignments that run out -/

/-- `expire_stale_assignments`. -/
def expireStaleAssignments (pc : PoolConfig) (s : PoolState) (now : Instant) : PoolState :=
  let cutoff := now - seconds pc.chunkTimeoutSeconds
  { s with
    chunks := s.chunks.mapRows fun _ chunk =>
      if chunk.status = .assigned ∧ chunk.assignedAt.getD 0 < cutoff then chunk.release else chunk }

/-! ## Tasks -/

/-- A chunk of `split_range`. -/
structure WorkChunk where
  rangeStart : ℤ
  rangeEnd : ℤ

def WorkChunk.units (chunk : WorkChunk) : ℤ := chunk.rangeEnd - chunk.rangeStart + 1

/-- The row of a new chunk. -/
def WorkChunk.toRow (poolTaskId : String) (chunk : WorkChunk) : ChunkRow where
  poolTaskId := poolTaskId
  workerId := none
  status := .pending
  rangeStart := chunk.rangeStart
  rangeEnd := chunk.rangeEnd
  segment := none
  computeMs := 0
  assignedAt := none
  submittedAt := none
  units := chunk.units

/-- The loop of `split_range`, for at most so many chunks. -/
def splitFrom (chunkSize current rangeEnd : ℤ) : ℕ → List WorkChunk
  | 0 => []
  | fuel + 1 =>
    if current ≤ rangeEnd then
      let chunkEnd := min rangeEnd (current + chunkSize - 1)
      ⟨current, chunkEnd⟩ :: splitFrom chunkSize (chunkEnd + 1) rangeEnd fuel
    else []

/-- `_resolve_chunks`; a worker is active if it was seen in the last five minutes. -/
def resolveChunks (pc : PoolConfig) (s : PoolState) (rangeStart rangeEnd : ℤ) (now : Instant) :
    Except PoolError (List WorkChunk) :=
  let taskUnits := rangeEnd - rangeStart + 1
  let activeWorkers := (s.workers.rows.filter fun r => now - seconds 300 ≤ r.2.lastSeenAt).length
  if taskUnits ≤ 0 then .error (.value "task range_end must be >= range_start")
  else if rangeStart < 1 ∧ (pc.chunkSize.isSome ∨ ¬pc.hybridRace ∨
      taskUnits ≤ max 1 activeWorkers) then
    .error (.value "range_start must be >= 1")
  else
    match pc.chunkSize with
    | some chunkSize => .ok (splitFrom chunkSize rangeStart rangeEnd taskUnits.toNat)
    | none =>
      if pc.hybridRace ∧ taskUnits > max 1 activeWorkers then .ok [⟨rangeStart, rangeEnd⟩]
      else .ok (splitFrom 1 rangeStart rangeEnd taskUnits.toNat)

/-- A task that the network has assigned to the pool. -/
structure MainnetTask where
  taskId : String
  rangeStart : ℤ
  rangeEnd : ℤ
  algorithm : String
  raw : Value

/-- A task of the pool is under way. -/
def TaskStatus.underWay : TaskStatus → Bool
  | .active | .gathering | .submitting => true
  | _ => false

/-- `ensure_active_task`, once the network has assigned a task; the ids are drawn at random. -/
def ensureActiveTask (pc : PoolConfig) (s : PoolState) (task : MainnetTask) (poolTaskId : String)
    (chunkIds : ℕ → String) (now : Instant) : Except PoolError PoolState := do
  if s.tasks.rows.any fun r => r.2.status.underWay then return s
  else
    let chunks ← resolveChunks pc s task.rangeStart task.rangeEnd now
    if s.tasks.rows.any fun r => r.2.mainnetTaskId = task.taskId then return s
    else
      let row : TaskRow :=
        { mainnetTaskId := task.taskId
          status := .gathering
          rangeStart := task.rangeStart
          rangeEnd := task.rangeEnd
          algorithm := task.algorithm
          rawTask := task.raw
          rawCommit := none
          rawReveal := none
          error := none
          createdAt := now
          completedAt := none }
      match s.tasks.insert? poolTaskId row with
      | none => return s
      | some tasks =>
        let rows := chunks.zipIdx.map fun (chunk, i) => (chunkIds i, chunk.toRow poolTaskId)
        match s.chunks.insertAll? rows with
        | none => .error (.integrity "UNIQUE constraint failed: pool_chunks.chunk_id")
        | some chunks => return { s with tasks, chunks }

/-- The first transaction of `finalize_task`. -/
def beginFinalize (s : PoolState) (poolTaskId : String) : PoolState :=
  match s.tasks.find? poolTaskId with
  | some task =>
    if task.status = .gathering then
      { s with
        tasks := s.tasks.modify poolTaskId fun task => { task with status := .submitting }
        finalizing := s.finalizing ++ [poolTaskId] }
    else s
  | none => s

/-- The columns that the last transaction of `finalize_task` writes, and whether it credits the
shares. -/
structure FinalizeResult where
  status : TaskStatus
  rawCommit : Option Value
  rawReveal : Option Value
  error : Option String
  credited : Bool

/-- The last transaction of `finalize_task`. -/
def endFinalize (s : PoolState) (poolTaskId : String) (result : FinalizeResult) (now : Instant) :
    PoolState :=
  if poolTaskId ∈ s.finalizing then
    { s with
      tasks := s.tasks.modify poolTaskId fun task =>
        { task with
          status := result.status
          rawCommit := result.rawCommit.or task.rawCommit
          rawReveal := result.rawReveal.or task.rawReveal
          error := result.error.or task.error
          completedAt := some now }
      shares := s.shares.mapRows fun _ share =>
        if result.credited ∧ share.poolTaskId = poolTaskId then { share with credited := true }
        else share
      finalizing := s.finalizing.erase poolTaskId }
  else s

/-! ## Runs -/

/-- One transaction of the pool. -/
inductive PoolEvent where
  | registerWorker (workerId : String) (name payoutAddress : Option String) (now : Instant)
  | claimWork (workerId : String) (choice : ℕ) (now : Instant)
  | submitWork (workerId chunkId segment : String) (computeMs : ℤ)
  | resumeSubmit (index : ℕ) (shareId : String) (now : Instant)
  | expireStaleAssignments (now : Instant)
  | ensureActiveTask (task : MainnetTask) (poolTaskId : String) (chunkIds : ℕ → String)
      (now : Instant)
  | beginFinalize (poolTaskId : String)
  | endFinalize (poolTaskId : String) (result : FinalizeResult) (now : Instant)

/-- A call goes on; whatever its second transaction does, the call is over. -/
def resumeCall (pc : PoolConfig) (s : PoolState) (index : ℕ) (shareId : String) (now : Instant) :
    PoolState :=
  match s.calls[index]? with
  | none => s
  | some call =>
    let s := { s with calls := s.calls.eraseIdx index }
    Run.attempt ((resumeSubmit pc s call shareId now).map Prod.fst) s

/-- One transaction; an error rolls it back. -/
def step (pc : PoolConfig) (s : PoolState) : PoolEvent → PoolState
  | .registerWorker workerId name payoutAddress now =>
    Run.attempt (registerWorker pc s workerId name payoutAddress now) s
  | .claimWork workerId choice now => Run.attempt (claimWork pc s workerId choice now) s
  | .submitWork workerId chunkId segment computeMs =>
    Run.attempt (beginSubmit pc s workerId chunkId segment computeMs) s
  | .resumeSubmit index shareId now => resumeCall pc s index shareId now
  | .expireStaleAssignments now => expireStaleAssignments pc s now
  | .ensureActiveTask task poolTaskId chunkIds now =>
    Run.attempt (ensureActiveTask pc s task poolTaskId chunkIds now) s
  | .beginFinalize poolTaskId => beginFinalize s poolTaskId
  | .endFinalize poolTaskId result now => endFinalize s poolTaskId result now

/-! ## A small pool -/

/-- A pool that races for whole tasks; the digits are those of the range `1..2`. -/
def localPool : PoolConfig where
  chunkSize := none
  hybridRace := true
  chunkTimeoutSeconds := 60
  verifyChunks := true
  requireWorkerPayout := false
  speculativeChunks := true
  caseMap := ⟨fun c => [c], fun _ => List.cons_ne_nil _ _, fun _ _ h => by
    rw [List.mem_singleton.mp h]⟩
  isValidAddress _ := false
  calculatePiSegment rangeStart rangeEnd _ :=
    if rangeStart = 1 ∧ rangeEnd = 2 then some "14" else none

end Picoin.Pool
