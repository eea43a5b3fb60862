import Picoin.Core.Clock
import Picoin.Core.Money
import Picoin.Core.Text
import Picoin.Lib.Json
import Picoin.Lib.Table
import Mathlib.Data.List.Sort
import Mathlib.Data.Rat.Defs

/-!
# The queue of AI requests

A request waits in `ai_requests` until a worker claims it. The claim sets a lease, and the result of
the worker or the end of the lease decides what becomes of the request. Scores and other floats are
whole numbers of 10⁻⁸.

* **`createRequest`**, **`claimNext`**, **`releaseExpiredAssignments`**, **`submit`**, **`cancel`** —
  the operations of `AIAccessQueue`;
* **`aiStep`** — a coordinator that takes them one after another.
-/

namespace Picoin.Forge

open Json

/-- The environment of the coordinator. The two limits are at least one. -/
structure ForgeConfig where
  sha256Text : String → String
  aiAccessMinStakePi : ℤ
  aiRequestLeaseSeconds : ℕ
  aiRequestMaxAssignments : ℕ
  one_le_leaseSeconds : 1 ≤ aiRequestLeaseSeconds
  one_le_maxAssignments : 1 ≤ aiRequestMaxAssignments

/-- `hash_json`. -/
def ForgeConfig.hashJson (fc : ForgeConfig) (data : Value) : String :=
  fc.sha256Text (canonicalJson data)

inductive AIRequestStatus where
  | queued
  | assigned
  | submitted
  | verified
  | failed
  | canceled
deriving DecidableEq, Repr

structure AIModelProfile where
  provider : String
  modelName : Option String
  parameterCountB : ℤ
  contextTokens : ℤ
  quantization : Option String
  capabilities : List String
  endpoint : Option String
  available : Bool
deriving DecidableEq

/-- What the queue reads of a registered worker. -/
structure WorkerState where
  workerId : String
  aiModelProfile : Option AIModelProfile
  uptimeScore : ℤ
  reliabilityScore : ℤ
  aiModelScore : ℤ

structure AIInferenceCreateRequest where
  requesterWallet : String
  stakeSnapshotPi : ℤ
  prompt : String
  requiredCapabilities : List String
  modelHint : Option String
  minParameterCountB : ℤ
  minContextTokens : ℤ
  preferredProvider : Option String
  maxTokens : ℤ
  storeOutput : Bool

structure AIInferenceRequest where
  requestId : String
  requesterWallet : String
  stakeSnapshotPi : ℤ
  requiredStakePi : ℤ
  prompt : String
  promptHash : String
  requiredCapabilities : List String
  modelHint : Option String
  minParameterCountB : ℤ
  minContextTokens : ℤ
  preferredProvider : Option String
  maxTokens : ℤ
  storeOutput : Bool
  status : AIRequestStatus
  assignedWorkerId : Option String
  assignedAt : Option Instant
  leaseExpiresAt : Option Instant
  assignmentAttempts : ℕ
  assignmentHistory : List String
  modelProfile : Option AIModelProfile
  output : Option String
  outputHash : Option String
  receiptHash : Option String
  failureReason : Option String
  createdAt : Instant
  updatedAt : Instant
deriving DecidableEq

structure AIInferenceResult where
  requestId : String
  workerId : String
  output : String
  submittedAt : Instant

/-- The table `ai_requests`. Its columns repeat fields of the payload. -/
abbrev AiRequests := Sql.Table String AIInferenceRequest

/-! ## Creation -/

/-- The distinct capabilities of a request, sorted. -/
def sortedCapabilities (capabilities : List String) : List String :=
  (((capabilities.map strip).filter (· ≠ "")).dedup).insertionSort (· ≤ ·)

def requestId (fc : ForgeConfig) (request : AIInferenceCreateRequest) (now : Instant) : String :=
  "ai_req_" ++ takeChars 18 (fc.hashJson (.obj
    [("requester_wallet", .str request.requesterWallet),
      ("prompt_hash", .str (fc.sha256Text request.prompt)), ("created_at", .str (isoformat now))]))

/-- The request that `create` puts into the queue. -/
def createRequest (fc : ForgeConfig) (request : AIInferenceCreateRequest) (now : Instant) :
    Except String AIInferenceRequest :=
  if request.stakeSnapshotPi < fc.aiAccessMinStakePi then
    let stake := String.ofList (reprFloat request.stakeSnapshotPi)
    let required := String.ofList (reprFloat fc.aiAccessMinStakePi)
    .error s!"stake_snapshot_pi {stake} below required AI access stake {required}"
  else .ok
    { requestId := requestId fc request now
      requesterWallet := upper (strip request.requesterWallet)
      stakeSnapshotPi := request.stakeSnapshotPi
      requiredStakePi := fc.aiAccessMinStakePi
      prompt := request.prompt
      promptHash := fc.sha256Text request.prompt
      requiredCapabilities := sortedCapabilities request.requiredCapabilities
      modelHint := request.modelHint
      minParameterCountB := request.minParameterCountB
      minContextTokens := request.minContextTokens
      preferredProvider := request.preferredProvider
      maxTokens := request.maxTokens
      storeOutput := request.storeOutput
      status := .queued
      assignedWorkerId := none
      assignedAt := none
      leaseExpiresAt := none
      assignmentAttempts := 0
      assignmentHistory := []
      modelProfile := none
      output := none
      outputHash := none
      receiptHash := none
      failureReason := none
      createdAt := now
      updatedAt := now }

/-! ## Leases -/

/-- `_release_expired_assignment`. -/
def releaseExpiredAssignment (fc : ForgeConfig) (now : Instant) (item : AIInferenceRequest) :
    AIInferenceRequest :=
  if fc.aiRequestMaxAssignments ≤ item.assignmentAttempts then
    { item with
      status := .failed
      failureReason := some "assignment_lease_expired_max_attempts"
      updatedAt := now }
  else
    { item with
      status := .queued
      assignedWorkerId := none
      assignedAt := none
      leaseExpiresAt := none
      modelProfile := none
      failureReason := some "assignment_lease_expired"
      updatedAt := now }

/-- The item is assigned, and its lease is over. -/
def leaseOver (now : Instant) (item : AIInferenceRequest) : Bool :=
  item.status = .assigned && item.leaseExpiresAt.any (· ≤ now)

/-- `release_expired_assignments`. -/
def releaseExpiredAssignments (fc : ForgeConfig) (now : Instant) (requests : AiRequests) :
    AiRequests :=
  requests.mapRows fun _ item =>
    if leaseOver now item then releaseExpiredAssignment fc now item else item

/-! ## Routing -/

/-- A text that is present and not empty. -/
def given (text : Option String) : Bool := text.any (· ≠ "")

/-- `part in text`. -/
def contains (part text : String) : Bool := text.toList.tails.any part.toList.isPrefixOf

def workerCanServeAi (worker : WorkerState) : Bool :=
  worker.aiModelProfile.any fun profile =>
    profile.available && given profile.modelName && given profile.endpoint &&
      0 < worker.aiModelScore

def workerMatchesRequest (worker : WorkerState) (item : AIInferenceRequest) : Bool :=
  workerCanServeAi worker && worker.aiModelProfile.any fun profile =>
    (item.requiredCapabilities.all fun capability =>
      lower capability ∈ profile.capabilities.map lower) &&
    (!given item.modelHint ||
      contains (lower (textOr item.modelHint "")) (lower (textOr profile.modelName ""))) &&
    (!given item.preferredProvider ||
      lower (textOr item.preferredProvider "") = lower profile.provider) &&
    item.minParameterCountB ≤ profile.parameterCountB &&
    item.minContextTokens ≤ profile.contextTokens

structure RouteCandidate where
  workerId : String
  activeRequests : ℕ
  routingScore : ℤ

/-- `ai_route_candidate`, for a worker with a profile. -/
def aiRouteCandidate (worker : WorkerState) (profile : AIModelProfile) (activeRequests : ℕ) :
    RouteCandidate where
  workerId := worker.workerId
  activeRequests := activeRequests
  routingScore :=
    let capabilityBonus : ℚ := ((profile.capabilities.map lower).dedup.length : ℚ) * 2 * 10 ^ 8
    let contextBonus : ℚ := min ((profile.contextTokens : ℚ) / 4096) 50 * 10 ^ 8
    let modelSizeBonus : ℚ := min ((profile.parameterCountB : ℚ) * 2) (100 * 10 ^ 8)
    let reliabilityBonus : ℚ := worker.reliabilityScore / 2
    let uptimeBonus : ℚ := worker.uptimeScore / 4
    let loadPenalty : ℚ := activeRequests * 50 * 10 ^ 8
    let score : ℚ := worker.aiModelScore + modelSizeBonus + contextBonus + capabilityBonus +
      reliabilityBonus + uptimeBonus - loadPenalty
    Decimal.roundHalfEven score.num score.den

/-- The order of the candidates. -/
def routesBefore (a b : RouteCandidate) : Prop :=
  b.routingScore < a.routingScore ∨ (a.routingScore = b.routingScore ∧
    (a.activeRequests < b.activeRequests ∨
      (a.activeRequests = b.activeRequests ∧ a.workerId ≤ b.workerId)))

instance : DecidableRel routesBefore := fun a b => by
  unfold routesBefore; infer_instance

/-- `candidate_workers_for_request`, for the workers of the registry and their loads. -/
def candidateWorkersForRequest (workers : List WorkerState) (load : String → ℕ)
    (item : AIInferenceRequest) : List RouteCandidate :=
  let candidates := (workers.filter fun worker => workerMatchesRequest worker item).filterMap
    fun worker => worker.aiModelProfile.map fun profile =>
      aiRouteCandidate worker profile (load worker.workerId)
  let fresh := candidates.filter fun candidate => candidate.workerId ∉ item.assignmentHistory
  (if fresh = [] then candidates else fresh).insertionSort routesBefore

def selectWorkerForRequest (workers : List WorkerState) (load : String → ℕ)
    (item : AIInferenceRequest) : Option RouteCandidate :=
  (candidateWorkersForRequest workers load item).head?

/-- `active_ai_load_by_worker`. -/
def activeAiLoad (requests : AiRequests) (workerId : String) : ℕ :=
  (requests.rows.filter fun r =>
    r.2.status = .assigned && r.2.assignedWorkerId = some workerId).length

/-! ## Claims -/

/-- The order of `ai_request_priority_key`. -/
def hasPriority (a b : AIInferenceRequest) : Prop :=
  b.stakeSnapshotPi < a.stakeSnapshotPi ∨ (a.stakeSnapshotPi = b.stakeSnapshotPi ∧
    (a.createdAt < b.createdAt ∨ (a.createdAt = b.createdAt ∧ a.requestId ≤ b.requestId)))

instance : DecidableRel hasPriority := fun a b => by
  unfold hasPriority; infer_instance

/-- The queued requests that a claim looks at: the hundred oldest, in their priority. -/
def queuedRequests (requests : AiRequests) : List AIInferenceRequest :=
  ((((requests.rows.map Prod.snd).filter fun item => item.status = .queued).insertionSort
    fun a b => a.updatedAt ≤ b.updatedAt).take 100).insertionSort hasPriority

/-- The request after a claim. -/
def AIInferenceRequest.claim (fc : ForgeConfig) (worker : WorkerState) (now : Instant)
    (item : AIInferenceRequest) : AIInferenceRequest :=
  { item with
    status := .assigned
    assignedWorkerId := some worker.workerId
    modelProfile := worker.aiModelProfile
    assignedAt := some now
    leaseExpiresAt := some (now + seconds fc.aiRequestLeaseSeconds)
    assignmentAttempts := item.assignmentAttempts + 1
    assignmentHistory :=
      if worker.workerId ∈ item.assignmentHistory then item.assignmentHistory
      else item.assignmentHistory ++ [worker.workerId]
    failureReason := none
    updatedAt := now }

/-- The request that a claim of the worker takes among those it has read. `views` is the registry
and the load that the queue reads for a request. -/
def chooseRequest (views : String → List WorkerState × (String → ℕ)) (worker : WorkerState)
    (items : List AIInferenceRequest) : Option AIInferenceRequest :=
  items.find? fun item => workerMatchesRequest worker item &&
    (selectWorkerForRequest (views item.requestId).1 (views item.requestId).2 item).any
      fun candidate => candidate.workerId = worker.workerId

/-- `claim_next`: the table after it, and the request. An unknown worker raises, after the release of
the expired assignments. -/
def claimNext (fc : ForgeConfig) (workers : List WorkerState) (workerId : String)
    (released now : Instant) (requests : AiRequests) :
    AiRequests × Except String (Option AIInferenceRequest) :=
  let requests := releaseExpiredAssignments fc released requests
  match workers.find? fun worker => worker.workerId = workerId with
  | none => (requests, .error s!"worker not found: {workerId}")
  | some worker =>
    if !workerCanServeAi worker then (requests, .ok none)
    else match chooseRequest (fun _ => (workers, activeAiLoad requests)) worker
        (queuedRequests requests) with
      | none => (requests, .ok none)
      | some item =>
        let item := item.claim fc worker now
        (requests.upsert item.requestId item, .ok (some item))

/-! ## Results -/

/-- `model_dump` of a profile. -/
def AIModelProfile.toJson (profile : AIModelProfile) : Value :=
  .obj [("provider", .str profile.provider), ("model_name", Value.optStr profile.modelName),
    ("parameter_count_b", .float profile.parameterCountB),
    ("context_tokens", .int profile.contextTokens),
    ("quantization", Value.optStr profile.quantization),
    ("capabilities", .arr (profile.capabilities.map .str)), ("endpoint", Value.optStr profile.endpoint),
    ("available", .bool profile.available)]

/-- `ai_inference_receipt_hash`. -/
def aiInferenceReceiptHash (fc : ForgeConfig) (item : AIInferenceRequest)
    (result : AIInferenceResult) : String :=
  fc.hashJson (.obj
    [("schema", .str "picoin-forge-ai-inference-receipt-v1"), ("request_id", .str item.requestId),
      ("worker_id", if result.workerId ≠ "" then .str result.workerId
        else Value.optStr item.assignedWorkerId),
      ("requester_wallet", .str item.requesterWallet), ("prompt_hash", .str item.promptHash),
      ("output_hash", .str (fc.sha256Text result.output)),
      ("model_profile", item.modelProfile.elim .null AIModelProfile.toJson),
      ("no_l1_transaction_created", .bool true), ("no_per_task_payment", .bool true)])

/-- The request after `submit`. -/
def submitItem (fc : ForgeConfig) (result : AIInferenceResult) (now : Instant)
    (item : AIInferenceRequest) : AIInferenceRequest :=
  if item.status = .assigned ∧ item.leaseExpiresAt.any (· < result.submittedAt) = true then
    releaseExpiredAssignment fc result.submittedAt item
  else if item.assignedWorkerId ≠ some result.workerId then
    { item with
      status := .failed
      outputHash := some (fc.sha256Text result.output)
      failureReason := some "worker_mismatch"
      updatedAt := now }
  else
    { item with
      output := if item.storeOutput then some result.output else none
      outputHash := some (fc.sha256Text result.output)
      receiptHash := some (aiInferenceReceiptHash fc item result)
      status := .verified
      failureReason := none
      updatedAt := now }

/-- `submit`; an unknown request raises. -/
def submit (fc : ForgeConfig) (result : AIInferenceResult) (now : Instant) (requests : AiRequests) :
    Except String AiRequests :=
  match requests.find? result.requestId with
  | none =>
    let id := result.requestId
    .error s!"AI request not found: {id}"
  | some item => .ok (requests.upsert result.requestId (submitItem fc result now item))

/-! ## Cancellation -/

/-- The request after `cancel`. -/
def cancelItem (now : Instant) (item : AIInferenceRequest) : Except String AIInferenceRequest :=
  if item.status = .verified then .error "verified AI requests cannot be canceled"
  else if item.status = .failed ∨ item.status = .canceled then .ok item
  else .ok
    { item with
      status := .canceled
      assignedWorkerId := none
      assignedAt := none
      leaseExpiresAt := none
      failureReason := some "requester_canceled"
      updatedAt := now }

/-- `cancel`. -/
def cancel (id : String) (now : Instant) (requests : AiRequests) : Except String AiRequests := do
  match requests.find? id with
  | none => .error s!"AI request not found: {id}"
  | some item => return requests.upsert id (← cancelItem now item)

/-! ## One step -/

/-- The queue, and the requests that have been claimed. -/
structure AiQueue where
  requests : AiRequests
  claimed : List String

def AiQueue.empty : AiQueue := ⟨.empty, []⟩

inductive AiEvent where
  | create (request : AIInferenceCreateRequest) (now : Instant)
  | claimNext (workers : List WorkerState) (workerId : String) (released now : Instant)
  | submit (result : AIInferenceResult) (now : Instant)
  | cancel (requestId : String) (now : Instant)
  | releaseExpiredAssignments (now : Instant)

/-- One call; what it raises leaves the queue as it is. -/
def aiStep (fc : ForgeConfig) (s : AiQueue) : AiEvent → AiQueue
  | .create request now => match createRequest fc request now with
    | .error _ => s
    | .ok item => { s with requests := s.requests.upsert item.requestId item }
  | .claimNext workers workerId released now =>
    let (requests, answer) := claimNext fc workers workerId released now s.requests
    match answer with
    | .ok (some item) => ⟨requests, s.claimed ++ [item.requestId]⟩
    | _ => { s with requests }
  | .submit result now => match submit fc result now s.requests with
    | .error _ => s
    | .ok requests => { s with requests }
  | .cancel requestId now => match cancel requestId now s.requests with
    | .error _ => s
    | .ok requests => { s with requests }
  | .releaseExpiredAssignments now =>
    { s with requests := releaseExpiredAssignments fc now s.requests }

end Picoin.Forge
