import Picoin.Core.Text
import Picoin.Forge.ChallengeEngine
import Picoin.Lib.Base64

/-!
# Requests of workers

A request that writes for a worker names it in a header and carries a time and a signature. The
coordinator checks the signature, remembers the hash of its text, and hands the request on to the route
of its path. A registration is checked against the key that it brings, every other request against the
key in the registry.

* **`verifyMessage`**, **`requestSigningPayload`** — keys and signatures as texts;
* **`requireWorkerSubmission`** — the checks, and the row of the signature;
* **`SubmissionEvent.apply`** — a request with what its route does, and the coordinator's own calls.
-/

namespace Picoin.Forge.Coordinator

open Json Base64

/-! ## Keys and signatures -/

/-- What `float` reads from a text. -/
inductive FloatText where
  | finite (value : ℚ)
  | infinite
  | nan

/-- The environment, and what the libraries under the coordinator do: hashes, Ed25519 over bytes, and the
reading of a time and of a body. -/
structure SubmissionConfig extends ChallengeConfig where
  coordinatorToken : String
  requireWorkerSignatures : String
  sha256Bytes : List UInt8 → String
  verify : List UInt8 → String → List UInt8 → Bool
  floatText : String → Option FloatText
  loads : List UInt8 → Option Value

/-- `_strip_prefixed_key`. -/
def stripPrefixedKey (value start : String) : Option (List UInt8) :=
  if startsWith value start then
    b64urlDecode (String.ofList (value.toList.drop start.toList.length))
  else none

/-- The start of a key or a signature. -/
def keyPrefix : String := "ed25519:"

/-- `verify_message`; the message is a text in UTF-8. -/
def verifyMessage (sc : SubmissionConfig) (publicKey message signature : String) : Bool :=
  match stripPrefixedKey publicKey keyPrefix, stripPrefixedKey signature keyPrefix with
  | some publicRaw, some signatureRaw => sc.verify publicRaw message signatureRaw
  | _, _ => false

/-- What `sign_message` returns for the bytes of a signature. -/
def signatureText (raw : List UInt8) : String := keyPrefix ++ b64urlEncode raw

/-! ## Checks -/

/-- A request with the headers that are read. -/
structure WorkerRequest where
  method : String
  path : String
  body : List UInt8
  token : Option String
  workerId : Option String
  timestamp : Option String
  signature : Option String

/-- `request_signing_payload`. -/
def requestSigningPayload (sc : SubmissionConfig) (method path timestamp : String)
    (body : List UInt8) : String :=
  upper method ++ "\n" ++ path ++ "\n" ++ timestamp ++ "\n" ++ sc.sha256Bytes body

structure HTTPException where
  statusCode : ℕ
  detail : String
deriving DecidableEq

/-- What raises without being caught. -/
def internalServerError : HTTPException := ⟨500, "Internal Server Error"⟩

def unauthorized (detail : String) : HTTPException := ⟨401, detail⟩

/-- `require_write_token`. -/
def requireWriteToken (sc : SubmissionConfig) (token : Option String) : Except HTTPException Unit :=
  if sc.coordinatorToken = "" ∨ token = some sc.coordinatorToken then .ok ()
  else .error (unauthorized "missing or invalid coordinator token")

/-- `PICOIN_FORGE_REQUIRE_WORKER_SIGNATURES`. -/
def SubmissionConfig.signatureRequired (sc : SubmissionConfig) : Bool :=
  lower sc.requireWorkerSignatures ∈ ["1", "true", "yes"]

/-- `abs(time.time() - timestamp) > 300`; no comparison with what is not a number holds. -/
def stale (now : Instant) : FloatText → Bool
  | .finite value => decide (300 < |((now : ℚ) / 10 ^ 6) - value|)
  | .infinite => true
  | .nan => false

/-- `payload.get(key)` of what has been loaded; only an object has it. -/
def getKey (payload : Value) (key : String) : Except HTTPException Value :=
  match payload with
  | .obj fields => .ok ((fields.lookup key).getD .null)
  | _ => .error internalServerError

/-- A row of `worker_signature_replay`. -/
structure SeenSignature where
  workerId : String
  requestTimestamp : String
  seenAt : Instant

/-- The table `worker_signature_replay`, by the hash of a signature. -/
abbrev SeenSignatures := Sql.Table String SeenSignature

/-- `record_worker_signature_once`: the table, and whether a row was inserted. -/
def recordWorkerSignatureOnce (sc : SubmissionConfig) (now : Instant) (seen : SeenSignatures)
    (workerId signature requestTimestamp : String) : SeenSignatures × Bool :=
  match seen.insert? (sc.sha256Text signature) ⟨workerId, requestTimestamp, now⟩ with
  | some seen => (seen, true)
  | none => (seen, false)

/-- The headers, all of which are there. -/
structure SignatureHeaders where
  workerId : String
  timestamp : String
  signature : String
deriving DecidableEq

/-- The three headers, or that one is missing. -/
def signatureHeaders (request : WorkerRequest) : Except HTTPException SignatureHeaders :=
  let workerId := request.workerId.getD ""
  let timestamp := request.timestamp.getD ""
  let signature := request.signature.getD ""
  if workerId = "" ∨ timestamp = "" ∨ signature = "" then
    .error (unauthorized "missing worker signature headers")
  else .ok ⟨workerId, timestamp, signature⟩

/-- That the time of a request can be read and is at most 300 seconds away. -/
def checkTimestamp (sc : SubmissionConfig) (now : Instant) (timestamp : String) :
    Except HTTPException Unit :=
  match sc.floatText timestamp with
  | none => .error (unauthorized "invalid worker signature timestamp")
  | some value => if stale now value then .error (unauthorized "stale worker signature timestamp")
    else .ok ()

/-- The key that a request is checked against: of a registration the one that it brings. -/
def checkedKey (workers : Workers) (path workerId : String) (payload : Value) :
    Except HTTPException Value :=
  if path = "/workers/register" then getKey payload "public_key"
  else
    match WorkerRegistry.get workers workerId with
    | .ok state => .ok (.str state.registration.publicKey)
    | .error _ => .error (unauthorized "worker is not registered")

/-- That the signature is one of the message under the key. -/
def checkSignature (sc : SubmissionConfig) (publicKey : Value) (message signature : String) :
    Except HTTPException String :=
  match publicKey with
  | .str key =>
    if key ≠ "" ∧ verifyMessage sc key message signature then .ok key
    else .error (unauthorized "invalid worker signature")
  | value => .error (if truthy value then internalServerError
    else unauthorized "invalid worker signature")

/-- What is checked of a signed request before its signature is recorded: the headers, the loaded body
and the key. -/
def checkSubmission (sc : SubmissionConfig) (now : Instant) (workers : Workers)
    (request : WorkerRequest) : Except HTTPException (SignatureHeaders × Value × String) := do
  let headers ← signatureHeaders request
  checkTimestamp sc now headers.timestamp
  -- a body that is no JSON text raises in `json.loads`
  let some payload := sc.loads request.body | throw internalServerError
  let bodyWorkerId ← getKey payload "worker_id"
  if truthy bodyWorkerId && !isText (some bodyWorkerId) headers.workerId then
    throw (unauthorized "worker signature id mismatch")
  let publicKey ← checkedKey workers request.path headers.workerId payload
  let key ← checkSignature sc publicKey
    (requestSigningPayload sc request.method request.path headers.timestamp request.body)
    headers.signature
  return (headers, payload, key)

/-- An accepted request, with the headers and the key if it was signed. -/
structure Accepted where
  request : WorkerRequest
  signed : Option (SignatureHeaders × String)

/-- `require_worker_submission`: the rows of signatures, and whether the request goes on. -/
def requireWorkerSubmission (sc : SubmissionConfig) (now : Instant) (workers : Workers)
    (seen : SeenSignatures) (request : WorkerRequest) :
    SeenSignatures × Except HTTPException Accepted :=
  match requireWriteToken sc request.token with
  | .error e => (seen, .error e)
  | .ok () =>
    -- where signatures are not required, one header is enough for all of them to be checked
    if sc.signatureRequired ∨ request.workerId.getD "" ≠ "" ∨ request.timestamp.getD "" ≠ "" ∨
        request.signature.getD "" ≠ "" then
      match checkSubmission sc now workers request with
      | .error e => (seen, .error e)
      | .ok (headers, _, key) =>
        match recordWorkerSignatureOnce sc now seen headers.workerId headers.signature
            headers.timestamp with
        | (seen, true) => (seen, .ok ⟨request, some (headers, key)⟩)
        | (seen, false) => (seen, .error (unauthorized "replayed worker signature"))
    else (seen, .ok ⟨request, none⟩)

/-! ## Routes -/

/-- A call of a route other than the registration's: of the registry, of the challenge engine, or of a
queue, which has tables of its own. -/
inductive WorkerCall where
  | createChallenge (seed expectedHash workerId : String) (challengeType : ChallengeType)
      (difficulty : ℤ)
  | verifyResult (result : ChallengeResult)
  | updateBenchmark (benchmark : BenchmarkResult)
  | heartbeat (workerId : String) (timestamp : RequestTime)
  | queue

/-- What the framework makes of a request: the registration in its body, and the calls of the other
routes. -/
structure Routes where
  otherFieldsValid : WorkerRequest → Bool
  status : Value → Option WorkerStatus
  call : WorkerRequest → Instant → Option WorkerCall

/-- A text of a body that is a model. -/
def bodyField (fields : List (String × Value)) (key : String) : Option String :=
  match fields.lookup key with
  | some (.str text) => some text
  | _ => none

/-- The `WorkerRegistration` of a body. -/
def registrationOf (routes : Routes) (request : WorkerRequest) (payload : Value) :
    Option WorkerRegistration := do
  let .obj fields := payload | none
  guard (routes.otherFieldsValid request)
  let workerId ← bodyField fields "worker_id"
  let wallet ← bodyField fields "wallet"
  let publicKey ← bodyField fields "public_key"
  let status ← (fields.lookup "status").elim (some .registered) routes.status
  return ⟨workerId, wallet, publicKey, status⟩

/-- What a call does at a time. -/
def WorkerCall.apply (sc : SubmissionConfig) (now : Instant) (s : CoordinatorState) :
    WorkerCall → CoordinatorState
  | .createChallenge seed expectedHash workerId challengeType difficulty =>
    CoordinatorCall.apply sc.toChallengeConfig s
      (.createChallenge now seed expectedHash workerId challengeType difficulty)
  | .verifyResult result => CoordinatorCall.apply sc.toChallengeConfig s (.verifyResult now result)
  | .updateBenchmark benchmark =>
    CoordinatorCall.apply sc.toChallengeConfig s (.updateBenchmark benchmark)
  | .heartbeat workerId timestamp =>
    CoordinatorCall.apply sc.toChallengeConfig s (.heartbeat workerId timestamp)
  | .queue => s

/-- The route of an accepted request; a body that is not taken has no effect. -/
def handle (sc : SubmissionConfig) (routes : Routes) (now : Instant) (s : CoordinatorState)
    (request : WorkerRequest) : CoordinatorState :=
  if request.path = "/workers/register" then
    match (sc.loads request.body).bind (registrationOf routes request) with
    | some registration => CoordinatorCall.apply sc.toChallengeConfig s (.register registration)
    | none => s
  else
    match routes.call request now with
    | some call => call.apply sc now s
    | none => s

/-! ## Requests one after another -/

/-- The coordinator with the signatures it has seen, and the requests that it accepted. -/
structure SubmissionState where
  coordinator : CoordinatorState
  seen : SeenSignatures
  accepted : List Accepted

def SubmissionState.initDb : SubmissionState := ⟨Coordinator.initDb, .empty, []⟩

/-- A request of a worker, or a call that the coordinator makes without one. -/
inductive SubmissionEvent where
  | request (now : Instant) (request : WorkerRequest)
  | expireOpenChallenges (now : Instant)
  | penalizeMissedHeartbeats (now : Instant) (graceSeconds : ℤ) (penalty : ℚ)

/-- A request that passes `require_worker_submission` and its route, one after another. -/
def submit (sc : SubmissionConfig) (routes : Routes) (s : SubmissionState) (now : Instant)
    (request : WorkerRequest) : SubmissionState :=
  match requireWorkerSubmission sc now s.coordinator.workers s.seen request with
  | (seen, .error _) => { s with seen }
  | (seen, .ok accepted) =>
    { coordinator := handle sc routes now s.coordinator request
      seen
      accepted := s.accepted ++ [accepted] }

def SubmissionEvent.apply (sc : SubmissionConfig) (routes : Routes) (s : SubmissionState) :
    SubmissionEvent → SubmissionState
  | .request now received => submit sc routes s now received
  | .expireOpenChallenges now =>
    { s with
      coordinator :=
        CoordinatorCall.apply sc.toChallengeConfig s.coordinator (.expireOpenChallenges now) }
  | .penalizeMissedHeartbeats now graceSeconds penalty =>
    { s with
      coordinator := CoordinatorCall.apply sc.toChallengeConfig s.coordinator
        (.penalizeMissedHeartbeats now graceSeconds penalty) }

end Picoin.Forge.Coordinator
