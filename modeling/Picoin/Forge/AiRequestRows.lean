import Picoin.Forge.AiAccessQueue

/-!
# Stored requests and their receipts

`put` stores a request as the JSON of its model, and `get` validates that JSON again. The receipt of
a request is served from the row: its payload is built from the fields that are stored, and its hash
is compared with the stored one.

* **`AIInferenceRequest.modelDump`**, **`modelValidate`** — a request as JSON, and the request read
  from it;
* **`aiInferenceReceiptPayload`** — what a receipt hashes;
* **`aiRequestReceipt`** — the receipt that the coordinator serves.
-/

namespace Picoin.Forge

open Json

/-- How the model library writes a time, and what it reads from a text. -/
structure TimeFormat where
  dump : Instant → String
  parse : String → Option Instant

/-! ## Writing -/

def AIRequestStatus.text : AIRequestStatus → String
  | .queued => "queued"
  | .assigned => "assigned"
  | .submitted => "submitted"
  | .verified => "verified"
  | .failed => "failed"
  | .canceled => "canceled"

/-- `model_dump_json`, after `json.loads`. -/
def AIInferenceRequest.modelDump (times : TimeFormat) (item : AIInferenceRequest) :
    List (String × Value) :=
  let time (t : Option Instant) : Value := t.elim .null fun t => .str (times.dump t)
  [("request_id", .str item.requestId), ("requester_wallet", .str item.requesterWallet),
    ("stake_snapshot_pi", .float item.stakeSnapshotPi),
    ("required_stake_pi", .float item.requiredStakePi), ("prompt", .str item.prompt),
    ("prompt_hash", .str item.promptHash),
    ("required_capabilities", .arr (item.requiredCapabilities.map .str)),
    ("model_hint", Value.optStr item.modelHint),
    ("min_parameter_count_b", .float item.minParameterCountB),
    ("min_context_tokens", .int item.minContextTokens),
    ("preferred_provider", Value.optStr item.preferredProvider),
    ("max_tokens", .int item.maxTokens), ("store_output", .bool item.storeOutput),
    ("status", .str item.status.text), ("assigned_worker_id", Value.optStr item.assignedWorkerId),
    ("assigned_at", time item.assignedAt), ("lease_expires_at", time item.leaseExpiresAt),
    ("assignment_attempts", .int item.assignmentAttempts),
    ("assignment_history", .arr (item.assignmentHistory.map .str)),
    ("model_profile", item.modelProfile.elim .null AIModelProfile.toJson),
    ("output", Value.optStr item.output), ("output_hash", Value.optStr item.outputHash),
    ("receipt_hash", Value.optStr item.receiptHash),
    ("failure_reason", Value.optStr item.failureReason),
    ("created_at", time (some item.createdAt)), ("updated_at", time (some item.updatedAt)),
    ("no_l1_transaction_created", .bool true), ("no_per_task_payment", .bool true)]

/-! ## Reading -/

/-- A field of the model; without a default it is required. -/
def readField {α : Type} (fields : List (String × Value)) (key : String)
    (read : Value → Option α) (default : Option α) : Option α :=
  match fields.lookup key with
  | none => default
  | some value => read value

def readStr : Value → Option String
  | .str s => some s
  | _ => none

def readInt : Value → Option ℤ
  | .int i => some i
  | _ => none

def readFloat : Value → Option ℤ
  | .float x => some x
  | .int i => some (i * 10 ^ 8)
  | _ => none

def readBool : Value → Option Bool
  | .bool b => some b
  | _ => none

def readStrings : Value → Option (List String)
  | .arr items => items.mapM readStr
  | _ => none

/-- A field that may be `null`. -/
def readOption {α : Type} (read : Value → Option α) : Value → Option (Option α)
  | .null => some none
  | value => (read value).map some

def readTime (times : TimeFormat) (value : Value) : Option Instant :=
  (readStr value).bind times.parse

def readStatus : Value → Option AIRequestStatus
  | .str "queued" => some .queued
  | .str "assigned" => some .assigned
  | .str "submitted" => some .submitted
  | .str "verified" => some .verified
  | .str "failed" => some .failed
  | .str "canceled" => some .canceled
  | _ => none

/-- `AIModelProfile.model_validate`. -/
def readModelProfile : Value → Option AIModelProfile
  | .obj fields => do
    let provider ← readField fields "provider" readStr (some "none")
    let modelName ← readField fields "model_name" (readOption readStr) (some none)
    let parameterCountB ← readField fields "parameter_count_b" readFloat (some 0)
    let contextTokens ← readField fields "context_tokens" readInt (some 0)
    let quantization ← readField fields "quantization" (readOption readStr) (some none)
    let capabilities ← readField fields "capabilities" readStrings (some [])
    let endpoint ← readField fields "endpoint" (readOption readStr) (some none)
    let available ← readField fields "available" readBool (some false)
    return { provider, modelName, parameterCountB, contextTokens, quantization, capabilities,
             endpoint, available }
  | _ => none

/-- `AIInferenceRequest.model_validate`, at the time `now`. -/
def modelValidate (times : TimeFormat) (now : Instant) (fields : List (String × Value)) :
    Option AIInferenceRequest := do
  let requestId ← readField fields "request_id" readStr none
  let requesterWallet ← readField fields "requester_wallet" readStr none
  let stakeSnapshotPi ← readField fields "stake_snapshot_pi" readFloat (some 0)
  let requiredStakePi ← readField fields "required_stake_pi" readFloat (some 0)
  let prompt ← readField fields "prompt" readStr none
  let promptHash ← readField fields "prompt_hash" readStr none
  let requiredCapabilities ← readField fields "required_capabilities" readStrings (some [])
  let modelHint ← readField fields "model_hint" (readOption readStr) (some none)
  let minParameterCountB ← readField fields "min_parameter_count_b" readFloat (some 0)
  let minContextTokens ← readField fields "min_context_tokens" readInt (some 0)
  let preferredProvider ← readField fields "preferred_provider" (readOption readStr) (some none)
  let maxTokens ← readField fields "max_tokens" readInt (some 256)
  let storeOutput ← readField fields "store_output" readBool (some true)
  let status ← readField fields "status" readStatus (some .queued)
  let assignedWorkerId ← readField fields "assigned_worker_id" (readOption readStr) (some none)
  let assignedAt ← readField fields "assigned_at" (readOption (readTime times)) (some none)
  let leaseExpiresAt ← readField fields "lease_expires_at" (readOption (readTime times)) (some none)
  let assignmentAttempts ← readField fields "assignment_attempts" readInt (some 0)
  let assignmentHistory ← readField fields "assignment_history" readStrings (some [])
  let modelProfile ← readField fields "model_profile" (readOption readModelProfile) (some none)
  let output ← readField fields "output" (readOption readStr) (some none)
  let outputHash ← readField fields "output_hash" (readOption readStr) (some none)
  let receiptHash ← readField fields "receipt_hash" (readOption readStr) (some none)
  let failureReason ← readField fields "failure_reason" (readOption readStr) (some none)
  let createdAt ← readField fields "created_at" (readTime times) (some now)
  let updatedAt ← readField fields "updated_at" (readTime times) (some now)
  return { requestId, requesterWallet, stakeSnapshotPi, requiredStakePi, prompt, promptHash,
           requiredCapabilities, modelHint, minParameterCountB, minContextTokens, preferredProvider,
           maxTokens, storeOutput, status, assignedWorkerId, assignedAt, leaseExpiresAt,
           assignmentAttempts := assignmentAttempts.toNat, assignmentHistory, modelProfile, output,
           outputHash, receiptHash, failureReason, createdAt, updatedAt }

/-! ## Receipts -/

/-- `ai_inference_receipt_payload`. -/
def aiInferenceReceiptPayload (item : AIInferenceRequest) (workerId outputHash : Option String) :
    Value :=
  .obj [("schema", .str "picoin-forge-ai-inference-receipt-v1"), ("request_id", .str item.requestId),
    ("worker_id", Value.optStr (if given workerId then workerId else item.assignedWorkerId)),
    ("requester_wallet", .str item.requesterWallet), ("prompt_hash", .str item.promptHash),
    ("output_hash", Value.optStr (if given outputHash then outputHash else item.outputHash)),
    ("model_profile", item.modelProfile.elim .null AIModelProfile.toJson),
    ("no_l1_transaction_created", .bool true), ("no_per_task_payment", .bool true)]

/-- What the coordinator serves as the receipt of a request. -/
structure ReceiptResponse where
  requestId : String
  receiptHash : String
  computedReceiptHash : String
  valid : Bool
  payload : Value

/-- `ai_request_receipt_api`, for the request that `get` has read. -/
def aiRequestReceipt (fc : ForgeConfig) (item : AIInferenceRequest) :
    Except String ReceiptResponse :=
  match item.receiptHash with
  | none => .error "AI request does not have a receipt yet"
  | some receiptHash =>
    if receiptHash = "" then .error "AI request does not have a receipt yet"
    else
      let payload := aiInferenceReceiptPayload item none none
      let computed := fc.hashJson payload
      .ok { requestId := item.requestId, receiptHash, computedReceiptHash := computed,
            valid := receiptHash = computed, payload }

end Picoin.Forge
