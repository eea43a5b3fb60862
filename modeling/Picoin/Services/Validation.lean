import Picoin.Lib.Run
import Picoin.Services.Acceptance
import Picoin.Services.Validators

/-!
# The votes on a result

A validator votes on the result of a task, and the vote that completes a quorum finalizes the
task's validation job: the block is accepted, or the task is rejected. A vote reaches a node in two
ways, each with its own code: its validator submits it (`submitValidationResult`), or a peer passes
it on (`receiveValidationVoteGossip`).

A request reads the clock as `now`, and an error takes back all that the request has written, but
for the penalty that is committed before a submitted vote is refused.
-/

namespace Picoin

open Outcome Run

variable {σ : Type}

/-! ## Counting -/

/-- `_validation_vote_counts`: the approvals and the rejections. -/
def validationVoteCounts (votes : List ValidationVoteRow) (jobId : String) : ℤ × ℤ :=
  ((votes.countP fun vote => vote.jobId = jobId && vote.approved : ℕ),
    (votes.countP fun vote => vote.jobId = jobId && !vote.approved : ℕ))

/-- `_effective_required_validator_approvals`. -/
def effectiveRequiredApprovals (mc : MiningConfig) (params : ProtocolParamsRow) : ℤ :=
  max 1 (intOr (some params.requiredValidatorApprovals) mc.requiredValidatorApprovals)

/-- `_quorum_validation_ms`; a job without a time fails in the comparison. -/
def quorumValidationMs (mc : MiningConfig) (job : ValidationJobRow) (receivedAt : String)
    (fallbackMs : ℤ) : Except MiningError ℤ :=
  match elapsedIsoMs mc (textOr job.jobCreatedAt job.createdAt) receivedAt with
  | none => .error (.mining 500 "internal server error")
  | some ms => .ok (max (max 0 fallbackMs) ms)

/-- `build_validation_result_signature_payload`. -/
def validationResultSignaturePayload (jobId validatorId taskId : String) (approved : Bool)
    (reason signedAt : String) : Json.Value :=
  .obj [("approved", .bool approved), ("job_id", .str jobId), ("reason", .str reason),
    ("signed_at", .str signedAt), ("task_id", .str taskId), ("validator_id", .str validatorId)]

/-! ## Responses -/

def ValidationJobStatus.text : ValidationJobStatus → String
  | .pending => "pending"
  | .approved => "approved"
  | .rejected => "rejected"
  | .expired => "expired"

structure VoteResponse where
  accepted : Bool
  status : String
  message : String
  block : Option MinedBlockRow

/-! ## Closing a job -/

/-- What is written into a validation job when it is closed. -/
structure JobVerdict where
  status : ValidationJobStatus
  validatorId : String
  reason : String
  signature : String
  validationMs : ℤ
  finalizedAt : String

/-- The `UPDATE validation_jobs` of a finalization. -/
def closeJob (s : MiningState σ) (jobId : String) (verdict : JobVerdict) : MiningState σ :=
  { s with
    jobs := s.jobs.modify jobId fun job =>
      { job with
        status := verdict.status
        assignedValidatorId := some verdict.validatorId
        resultReason := some verdict.reason
        validatorSignature := some verdict.signature
        validationMs := some verdict.validationMs
        completedAt := some verdict.finalizedAt } }

/-- `UPDATE tasks SET status = 'rejected'`. -/
def rejectTask (s : MiningState σ) (taskId timestamp : String) : MiningState σ :=
  { s with
    tasks := s.tasks.modify taskId fun task =>
      { task with status := .rejected, submittedAt := some timestamp } }

/-- `UPDATE tasks SET status = 'accepted'` for a block that is there already. -/
def acceptTask (s : MiningState σ) (taskId timestamp : String) : MiningState σ :=
  { s with
    tasks := s.tasks.modify taskId fun task =>
      { task with status := .accepted, submittedAt := task.submittedAt.or (some timestamp) } }

/-- Reject a task and release its transactions. -/
def rejectAndRelease (s : MiningState σ) (taskId timestamp : String) : MiningState σ :=
  let s := rejectTask s taskId timestamp
  { s with mempool := releaseSelectedTransactions s.mempool taskId timestamp }

/-- `SELECT ... FROM blocks WHERE result_hash = ? OR task_id = ?`: both columns have an index, and
the rows come from these in turn. -/
def duplicateBlock (s : MiningState σ) (job : ValidationJobRow) : Option MinedBlockRow :=
  (s.blocks.find? fun block => block.resultHash = job.resultHash).or
    (s.blocks.find? fun block => block.taskId = job.taskId)

/-- A vote as the finalization sees it. -/
structure CastVote where
  validatorId : String
  approved : Bool
  reason : String
  signature : String
  validationMs : ℤ

/-- The verdict of a finalization that the vote completes. -/
def CastVote.verdict (vote : CastVote) (status : ValidationJobStatus) (reason now : String) :
    JobVerdict where
  status := status
  validatorId := vote.validatorId
  reason := reason
  signature := vote.signature
  validationMs := vote.validationMs
  finalizedAt := now

/-- The claim of a job's block. -/
def jobClaim (jobId : String) (job : ValidationJobRow) (task : TaskRow) : BlockClaim where
  taskId := job.taskId
  task := task
  minerId := job.minerId
  resultHash := job.resultHash
  merkleRoot := some job.merkleRoot
  samples := job.samples
  jobId := some jobId

def isCompetitiveStale (reason : String) : Bool := startsWith reason "competitive round"

/-- The reason text of a failed acceptance. -/
def finalizationReason (raw : String) : String :=
  if isCompetitiveStale raw then raw else "transaction finalization failed: " ++ raw

def duplicateReason (block : MinedBlockRow) : String :=
  let height := block.height
  s!"duplicate competitive result already accepted at block {height}"

/-! ## The two finalizations -/

/-- What a finalization takes besides the tables. -/
structure FinalizationCall where
  jobId : String
  job : ValidationJobRow
  task : TaskRow
  vote : CastVote
  params : ℤ × ProtocolParamsRow
  now : String

/-- `_accept_block_in_connection` as both finalizations call it. -/
def FinalizationCall.accept (mc : MiningConfig) (services : BlockServices σ)
    (s : MiningState σ) (c : FinalizationCall) :
    Except AcceptError (MinedBlockRow × MiningState σ) := do
  let validationMs ← (quorumValidationMs mc c.job c.now c.vote.validationMs).mapError .other
  acceptBlock mc services c.now s (jobClaim c.jobId c.job c.task) c.params (some validationMs)

/-- A quorum of approvals for a result that another block has already. -/
def rejectDuplicate (s : MiningState σ) (c : FinalizationCall) (block : MinedBlockRow) :
    MiningState σ × VoteResponse :=
  let reason := duplicateReason block
  (closeJob (rejectAndRelease s c.job.taskId c.now) c.jobId (c.vote.verdict .rejected reason c.now),
    ⟨false, "rejected", reason, none⟩)

/-- A quorum of approvals after a failed acceptance of the block; `keepStale` leaves a task alone
that is stale already. -/
def rejectFailed (keepStale : Bool) (s : MiningState σ) (c : FinalizationCall) (raw : String) :
    MiningState σ × VoteResponse :=
  let reason := finalizationReason raw
  let s :=
    if isCompetitiveStale raw then markCompetitiveTaskStale s c.job.taskId reason c.now
    else if keepStale && (s.tasks.find? c.job.taskId).any (fun task => task.status = .stale) then s
    else rejectAndRelease s c.job.taskId c.now
  (closeJob s c.jobId (c.vote.verdict .rejected reason c.now),
    ⟨false, if isCompetitiveStale raw then "stale" else "rejected", reason, none⟩)

/-- A quorum of approvals: the acceptance of the block and what follows from its outcome. -/
def acceptByQuorum (mc : MiningConfig) (services : BlockServices σ) (keepStale : Bool)
    (s : MiningState σ) (c : FinalizationCall) :
    Except MiningError (MiningState σ × VoteResponse) :=
  match c.accept mc services s with
  | .error (.deferred message) => .ok (s, ⟨true, "validation_pending", message, none⟩)
  | .error (.transaction raw) => .ok (rejectFailed keepStale s c raw)
  | .error (.other e) => .error e
  | .ok (block, s) =>
    .ok (closeJob s c.jobId (c.vote.verdict .approved c.vote.reason c.now),
      ⟨true, "approved", "block accepted by validator quorum", some block⟩)

/-- A quorum of rejections. -/
def rejectByQuorum (s : MiningState σ) (c : FinalizationCall) : MiningState σ × VoteResponse :=
  (closeJob (rejectTask s c.job.taskId c.now) c.jobId
      (c.vote.verdict .rejected c.vote.reason c.now),
    ⟨true, "rejected", "validation rejected task by validator quorum", none⟩)

/-- The finalization at the end of `submit_validation_result`. -/
def finalizeSubmitted (mc : MiningConfig) (services : BlockServices σ) (s : MiningState σ)
    (c : FinalizationCall) (counts : ℤ × ℤ) (required : ℤ) :
    Except MiningError (MiningState σ × VoteResponse) :=
  if c.vote.approved ∧ required ≤ counts.1 then
    match duplicateBlock s c.job with
    | some block => .ok (rejectDuplicate s c block)
    | none => acceptByQuorum mc services true s c
  else if ¬c.vote.approved ∧ required ≤ counts.2 then .ok (rejectByQuorum s c)
  else .ok (s, ⟨true, "validation_pending", "validator vote recorded; waiting for quorum", none⟩)

/-- `_finalize_validation_quorum_from_gossip`. -/
def finalizeFromGossip (mc : MiningConfig) (services : BlockServices σ) (s : MiningState σ)
    (c : FinalizationCall) (counts : ℤ × ℤ) (required : ℤ) :
    Except MiningError (MiningState σ × Option VoteResponse) :=
  if c.vote.approved ∧ required ≤ counts.1 then
    match duplicateBlock s c.job with
    | some block =>
      if block.taskId = c.job.taskId ∧ block.resultHash = c.job.resultHash then
        let height := block.height
        let reason := s!"block already accepted at height {height}"
        .ok (closeJob (acceptTask s c.job.taskId c.now) c.jobId
            (c.vote.verdict .approved reason c.now),
          some ⟨true, "approved", reason, some block⟩)
      else
        let (s, response) := rejectDuplicate s c block
        .ok (s, some response)
    | none => do
      let (s, response) ← acceptByQuorum mc services false s c
      return (s, some response)
  else if ¬c.vote.approved ∧ required ≤ counts.2 then
    let (s, response) := rejectByQuorum s c
    .ok (s, some response)
  else .ok (s, none)

/-- The approving vote that is recorded last. -/
def lastApproval (votes : List ValidationVoteRow) (jobId : String) : Option ValidationVoteRow :=
  (votes.filter fun vote => vote.jobId = jobId && vote.approved).foldl
    (fun best vote => match best with
      | none => some vote
      | some best => if best.createdAt ≤ vote.createdAt then some vote else some best) none

/-- `_finalize_pending_validation_job_from_existing_votes`. -/
def finalizeFromExistingVotes (mc : MiningConfig) (services : BlockServices σ) (now : String)
    (s : MiningState σ) (jobId : String) (job : ValidationJobRow) (required : ℤ) :
    Except MiningError (MiningState σ × Option VoteResponse) :=
  let counts := validationVoteCounts s.votes jobId
  if job.status ≠ .pending ∨ counts.1 < required then .ok (s, none)
  else match s.tasks.find? job.taskId with
    | none => .error (.mining 404 "validation task not found")
    | some task =>
      match lastApproval s.votes jobId with
      | none => .ok (s, none)
      | some vote => do
        let params ← protocolParamsForTask s.protocolParams task
        let cast : CastVote :=
          { validatorId := vote.validatorId
            approved := true
            reason := vote.reason
            signature := vote.signature
            validationMs := vote.validationMs }
        finalizeFromGossip mc services s { jobId, job, task, vote := cast, params, now } counts
          required

/-! ## A vote -/

/-- A vote as its validator signs it, with its signature. -/
structure SignedVote where
  jobId : String
  taskId : String
  validatorId : String
  approved : Bool
  reason : String
  signature : String
  signedAt : String

/-- The signature verifies under the validator's key. -/
def SignedVote.verifies (cfg : Config) (vote : SignedVote) (publicKey : String) : Bool :=
  cfg.verifyPayloadSignature publicKey
    (validationResultSignaturePayload vote.jobId vote.validatorId vote.taskId vote.approved
      vote.reason vote.signedAt) vote.signature

/-- The `INSERT INTO validation_votes` and `_record_validator_completed_vote`. -/
def recordVote (s : MiningState σ) (now : Instant) (vote : SignedVote) (validationMs : ℤ)
    (receivedAt : String) : MiningState σ :=
  { s with
    votes := s.votes ++
      [{ jobId := vote.jobId
         taskId := vote.taskId
         validatorId := vote.validatorId
         approved := vote.approved
         reason := vote.reason
         signature := vote.signature
         signedAt := vote.signedAt
         validationMs
         createdAt := receivedAt }]
    validators := s.validators.modify vote.validatorId
      (ValidatorRow.recordCompletedVote vote.approved validationMs now) }

/-- The validator has voted on the job. -/
def hasVoted (votes : List ValidationVoteRow) (jobId validatorId : String) : Bool :=
  votes.any fun vote => vote.jobId = jobId && vote.validatorId = validatorId

/-- The validator may not vote yet. -/
def inCooldown (mc : MiningConfig) (now : Instant) (validator : ValidatorRow) : Bool :=
  (validator.cooldownUntil.bind mc.parseIso).any fun cooldownUntil => now < cooldownUntil

def SignedVote.cast (vote : SignedVote) (validationMs : ℤ) : CastVote where
  validatorId := vote.validatorId
  approved := vote.approved
  reason := vote.reason
  signature := vote.signature
  validationMs := validationMs

/-! ## Submitting -/

/-- What `submit_validation_result` is called with; the task is that of the job. -/
structure SubmitRequest where
  jobId : String
  validatorId : String
  approved : Bool
  reason : String
  signature : String
  signedAt : String

def SubmitRequest.signedVote (r : SubmitRequest) (taskId : String) : SignedVote where
  jobId := r.jobId
  taskId := taskId
  validatorId := r.validatorId
  approved := r.approved
  reason := r.reason
  signature := r.signature
  signedAt := r.signedAt

/-- The checks of `submit_validation_result` before it looks at votes: the job, its task and the
validator. -/
def checkSubmission (mc : MiningConfig) (now : Instant) (s : MiningState σ) (r : SubmitRequest) :
    Except MiningError (ValidationJobRow × TaskRow × ValidatorRow) :=
  match (s.jobs.find? r.jobId).bind fun job => (s.tasks.find? job.taskId).map fun task => (job, task)
      with
  | none => .error (.mining 404 "validation job not found")
  | some (job, task) =>
    match s.validators.find? r.validatorId with
    | none => .error (.mining 404 "validator not found")
    | some validator =>
      if validator.isBanned then .error (.mining 403 "validator is banned")
      else if inCooldown mc now validator then
        let cooldownUntil := textOr validator.cooldownUntil ""
        .error (.mining 429 s!"validator is in cooldown until {cooldownUntil}")
      else .ok (job, task, validator)

/-- The response to a vote of a validator that has voted already. -/
def existingVoteResponse (mc : MiningConfig) (services : BlockServices σ) (now : String)
    (s : MiningState σ) (jobId : String) (job : ValidationJobRow) (task : TaskRow) :
    Except MiningError (MiningState σ × VoteResponse) := do
  let params ← protocolParamsForTask s.protocolParams task
  let (s, finalization) ← finalizeFromExistingVotes mc services now s jobId job
    (effectiveRequiredApprovals mc params.2)
  match finalization with
  | none =>
    return (s, ⟨false, "already_voted", "validator already submitted a vote for this job", none⟩)
  | some response =>
    if response.status = "approved" then
      return (s, ⟨true, "approved", "block accepted by validator quorum", response.block⟩)
    else return (s, ⟨false, "already_voted", response.message, none⟩)

/-- A submitted vote whose signature verifies. -/
def countSubmittedVote (mc : MiningConfig) (services : BlockServices σ) (now : Instant)
    (validationMs : ℤ) (s : MiningState σ) (r : SubmitRequest) (job : ValidationJobRow)
    (task : TaskRow) : Except MiningError (MiningState σ × VoteResponse) := do
  let vote := r.signedVote job.taskId
  let params ← protocolParamsForTask s.protocolParams task
  let s := recordVote s now vote validationMs (isoformat now)
  finalizeSubmitted mc services s
    { jobId := r.jobId, job, task, vote := vote.cast validationMs, params, now := isoformat now }
    (validationVoteCounts s.votes r.jobId) (effectiveRequiredApprovals mc params.2)

/-- The penalty that is committed before a submitted vote is refused. -/
def penalizeValidator (s : MiningState σ) (now : Instant) (validatorId : String) :
    MiningState σ :=
  { s with validators := s.validators.modify validatorId (ValidatorRow.penalize now) }

/-- `submit_validation_result`: the tables after the request, and its response. -/
def submitValidationResult (mc : MiningConfig) (services : BlockServices σ) (now : Instant)
    (validationMs : ℤ) (s : MiningState σ) (r : SubmitRequest) :
    MiningState σ × Except MiningError VoteResponse :=
  let commit (result : Except MiningError (MiningState σ × VoteResponse)) :=
    match result with
    | .ok (s', response) => (s', .ok response)
    | .error e => (s, .error e)
  match checkSubmission mc now s r with
  | .error e => (s, .error e)
  | .ok (job, task, validator) =>
    if job.status ≠ .pending then
      commit ((protocolParamsForTask s.protocolParams task).map fun _ =>
        (s, ⟨false, job.status.text, "validation job already completed", none⟩))
    else if hasVoted s.votes r.jobId r.validatorId then
      commit (existingVoteResponse mc services (isoformat now) s r.jobId job task)
    else if (r.signedVote job.taskId).verifies mc.toConfig validator.publicKey then
      commit (countSubmittedVote mc services now validationMs s r job task)
    else
      (penalizeValidator s now r.validatorId, .error (.mining 400 "invalid validator signature"))

/-! ## Gossip -/

/-- What a peer passes on about a vote. -/
structure VoteMessage where
  jobId : Option String
  taskId : Option String
  validatorId : Option String
  approved : Bool
  reason : Option String
  signature : Option String
  signedAt : Option String
  validationMs : Option ℤ
  createdAt : Option String

def VoteMessage.signedVote (m : VoteMessage) : SignedVote where
  jobId := clean m.jobId
  taskId := clean m.taskId
  validatorId := clean m.validatorId
  approved := m.approved
  reason := textOr m.reason ""
  signature := textOr m.signature ""
  signedAt := textOr m.signedAt ""

/-- A gossiped vote of a validator that has voted already. The row of the job names no protocol
parameters, so that the active ones tell what is required. -/
def duplicateVoteGossip (mc : MiningConfig) (services : BlockServices σ) (now : String)
    (s : MiningState σ) (jobId : String) (job : ValidationJobRow) :
    Except MiningError (MiningState σ) := do
  let params ← activeProtocolParams s.protocolParams
  let (s, _) ← finalizeFromExistingVotes mc services now s jobId job
    (effectiveRequiredApprovals mc params.2)
  return s

/-- A gossiped vote whose signature verifies. -/
def countGossipedVote (mc : MiningConfig) (services : BlockServices σ) (now : Instant)
    (s : MiningState σ) (vote : SignedVote) (validationMs : ℤ) (receivedAt : String)
    (job : ValidationJobRow) : Except MiningError (MiningState σ) :=
  let s := recordVote s now vote validationMs receivedAt
  match s.tasks.find? vote.taskId with
  | none => .error (.mining 404 "validation task not found")
  | some task => do
    let params ← protocolParamsForTask s.protocolParams task
    if job.status = .pending then
      let (s, _) ← finalizeFromGossip mc services s
        { jobId := vote.jobId, job, task, vote := vote.cast validationMs, params
          now := isoformat now }
        (validationVoteCounts s.votes vote.jobId) (effectiveRequiredApprovals mc params.2)
      return s
    else return s

/-- `receive_validation_vote_gossip`: the tables after the message. -/
def receiveValidationVoteGossip (mc : MiningConfig) (services : BlockServices σ) (now : Instant)
    (s : MiningState σ) (m : VoteMessage) : Except MiningError (MiningState σ) :=
  let vote := m.signedVote
  if vote.jobId = "" ∨ vote.taskId = "" ∨ vote.validatorId = "" then
    .error (.mining 422 "validation vote gossip requires job_id, task_id, and validator_id")
  else match s.jobs.find? vote.jobId with
    | none => .error (.mining 404 "validation job not found")
    | some job =>
      if job.taskId ≠ vote.taskId then .error (.mining 409 "validation vote task mismatch")
      else match s.validators.find? vote.validatorId with
        | none => .error (.mining 404 "validator not found")
        | some validator =>
          if hasVoted s.votes vote.jobId vote.validatorId then
            duplicateVoteGossip mc services (isoformat now) s vote.jobId job
          else if vote.verifies mc.toConfig validator.publicKey then
            countGossipedVote mc services now s vote (intOr m.validationMs 0)
              (textOr m.createdAt (isoformat now)) job
          else .error (.mining 400 "invalid validator signature")

/-! ## Requests -/

/-- A vote that is submitted, with the time its validation took, or one that a peer passes on. -/
inductive VoteCall where
  | submit (validationMs : ℤ) (request : SubmitRequest)
  | gossip (message : VoteMessage)

/-- The job that a vote is for. -/
def VoteCall.jobId : VoteCall → String
  | .submit _ request => request.jobId
  | .gossip message => message.signedVote.jobId

/-- One request; a message that raises changes nothing. -/
def VoteCall.step (mc : MiningConfig) (services : BlockServices σ) (s : MiningState σ)
    (call : Instant × VoteCall) : MiningState σ :=
  match call.2 with
  | .submit validationMs request =>
    (submitValidationResult mc services call.1 validationMs s request).1
  | .gossip message => attempt (receiveValidationVoteGossip mc services call.1 s message) s

/-! ## What a check tells -/

theorem checkSubmission_eq_ok {mc : MiningConfig} {now : Instant} {s : MiningState σ}
    {r : SubmitRequest} {job : ValidationJobRow} {task : TaskRow} {validator : ValidatorRow}
    (h : checkSubmission mc now s r = .ok (job, task, validator)) :
    s.jobs.find? r.jobId = some job ∧ s.tasks.find? job.taskId = some task ∧
      s.validators.find? r.validatorId = some validator ∧ validator.isBanned = false ∧
      inCooldown mc now validator = false := by
  unfold checkSubmission at h
  split at h
  · cases h
  next job' task' hjob =>
  obtain ⟨job'', hfind, hjob⟩ := Option.bind_eq_some_iff.mp hjob
  obtain ⟨task'', htask, hpair⟩ := Option.map_eq_some_iff.mp hjob
  cases hpair
  split at h
  · cases h
  next validator' hvalidator =>
  split at h
  · cases h
  next hbanned =>
  dsimp only at h
  split at h
  · cases h
  next hcooldown =>
  cases h
  exact ⟨hfind, htask, hvalidator, Bool.not_eq_true _ ▸ hbanned, Bool.not_eq_true _ ▸ hcooldown⟩

end Picoin
