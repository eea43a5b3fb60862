import Picoin.Forge.WorkerRegistry
import Picoin.Forge.AiAccessQueue

/-!
# Challenges

A challenge asks a worker for a hash that the coordinator computes itself. Its result, or the end of its
time, decides it; the outcome is put into the row of the challenge and counted in the row of a worker.
These are two transactions, and what raises between them or after them leaves what was put. The rows
of `challenge_metrics` and `events` come last; no call reads them, but writing them may raise.

* **`createChallenge`**, **`verifyResult`**, **`expireOpenChallenges`** — the operations of
  `ChallengeEngine`;
* **`CoordinatorCall.apply`** — a coordinator that takes its calls one after another.

What raises is returned beside the tables, since it does not undo what was put.
-/

namespace Picoin.Forge.Coordinator

open Json

/-! ## Values of a proof -/

/-- `bool(value)`. -/
def truthy : Value → Bool
  | .null => false
  | .bool b => b
  | .int i => i ≠ 0
  | .float x => x ≠ 0
  | .str s => s ≠ ""
  | .arr items => !items.isEmpty
  | .obj fields => !fields.isEmpty

/-- `value == text`. -/
def isText (value : Option Value) (text : String) : Bool :=
  match value with
  | some (.str s) => s = text
  | _ => false

/-- `value in {…}` for a set of texts: a list or a dictionary has no hash. -/
def inTexts (value : Option Value) (texts : List String) : Except String Bool :=
  match value with
  | some (.str s) => .ok (s ∈ texts)
  | some (.arr _) => .error "unhashable type: 'list'"
  | some (.obj _) => .error "unhashable type: 'dict'"
  | _ => .ok false

/-- What `float` and `int` read from a text, and the values that an event can be written with: the
text of one with an unpaired surrogate has no encoding. -/
structure ChallengeConfig extends ForgeConfig where
  floatOfText : String → Option ℚ
  intOfText : String → Option ℤ
  dumpable : Value → Bool

/-- A float; not each of them is a number. -/
inductive PyFloat where
  | number (x : ℚ)
  | infinite (negative : Bool)
  | nan
deriving DecidableEq

/-- The float of an integer. -/
def floatOfInt (i : ℤ) : Except String ℚ :=
  if |i| < floatBound then .ok i else .error "int too large to convert to float"

/-- `_safe_float(value, 0.0)`. `NaN` is compared with zero only, and is not greater. -/
def safeFloat (cc : ChallengeConfig) : Option Value → Except String ℚ
  | some (.int i) => floatOfInt i
  | some (.float x) => .ok (if x = nanUnits then 0 else x / 10 ^ 8)
  | some (.bool b) => .ok (if b then 1 else 0)
  | some (.str s) => .ok ((cc.floatOfText s).getD 0)
  | _ => .ok 0

/-- `_safe_int(value, 0)`: a float is cut off, and what is raised for an infinity is not caught. -/
def safeInt (cc : ChallengeConfig) : Option Value → Except String ℤ
  | some (.int i) => .ok i
  | some (.float x) =>
    if x = nanUnits then .ok 0
    else if |x| < floatLimit then .ok (x.tdiv (10 ^ 8))
    else .error "cannot convert float infinity to integer"
  | some (.bool b) => .ok (if b then 1 else 0)
  | some (.str s) => .ok ((cc.intOfText s).getD 0)
  | _ => .ok 0

/-! ## Challenges and results -/

inductive ChallengeType where
  | cpu
  | ram
  | io
  | gpu
  | aiModel
deriving DecidableEq

inductive ChallengeStatus where
  | created
  | assigned
  | passed
  | failed
  | expired
deriving DecidableEq

/-- The status is a last one. -/
def ChallengeStatus.final (status : ChallengeStatus) : Bool :=
  status = .passed || status = .failed || status = .expired

/-- A challenge with the time its row was written. -/
structure ComputeChallenge where
  challengeId : String
  workerId : String
  challengeType : ChallengeType
  seed : String
  difficulty : ℤ
  expectedHash : String
  deadline : Instant
  status : ChallengeStatus
  updatedAt : Instant

structure ChallengeResult where
  challengeId : String
  workerId : String
  resultHash : String
  submittedAt : RequestTime
  elapsedMs : PyFloat
  proof : List (String × Value)

/-- The table `challenges`. -/
abbrev Challenges := Sql.Table String ComputeChallenge

/-- The tables of the coordinator. -/
structure CoordinatorState where
  workers : Workers
  challenges : Challenges

/-- `put`. -/
def CoordinatorState.putChallenge (s : CoordinatorState) (now : Instant)
    (challenge : ComputeChallenge) : CoordinatorState :=
  { s with challenges := s.challenges.upsert challenge.challengeId { challenge with updatedAt := now } }

/-- The put of a worker. -/
def CoordinatorState.putWorker (s : CoordinatorState) (state : WorkerState) : CoordinatorState :=
  { s with workers := WorkerRegistry.put s.workers state }

/-! ## Metrics and events -/

/-- `record_challenge_metric`: SQLite stores a `NaN` as `NULL`, and no integer of more than eight
bytes. -/
def recordChallengeMetric (difficulty : ℤ) (elapsedMs : PyFloat) : Except String Unit :=
  if difficulty < -2 ^ 63 ∨ 2 ^ 63 ≤ difficulty then
    .error "Python int too large to convert to SQLite INTEGER"
  else if elapsedMs = .nan then
    .error "NOT NULL constraint failed: challenge_metrics.elapsed_ms"
  else .ok ()

/-! ## Creation -/

def defaultChallengeTtlSeconds : ℤ := 300

/-- The id of a challenge. -/
def newChallengeId (cc : ChallengeConfig) (workerId seed : String) : String :=
  "challenge_" ++ String.ofList ((cc.sha256Text (workerId ++ ":" ++ seed)).toList.take 16)

/-- `create_challenge`, with the seed that is drawn and the hash that is computed from it. -/
def createChallenge (cc : ChallengeConfig) (now : Instant) (seed expectedHash workerId : String)
    (challengeType : ChallengeType) (difficulty : ℤ) (s : CoordinatorState) : CoordinatorState :=
  -- a challenge has a positive difficulty
  if difficulty < 1 then s
  else s.putChallenge now
    { challengeId := newChallengeId cc workerId seed
      workerId, challengeType, seed, difficulty, expectedHash
      deadline := now + defaultChallengeTtlSeconds * 10 ^ 6
      status := .assigned
      updatedAt := now }

/-! ## Expiry -/

def expiredChallengePenalty : ℚ := 5

/-- A worker whose challenge has expired. -/
def countExpired (state : WorkerState) : WorkerState :=
  { state with
    failedChallenges := state.failedChallenges + 1
    penaltyScore := state.penaltyScore + expiredChallengePenalty
    reliabilityScore := max 0 (state.reliabilityScore - expiredChallengePenalty) }

/-- `_expire_challenge`. -/
def expireChallenge (now : Instant) (challenge : ComputeChallenge) (s : CoordinatorState) :
    CoordinatorState × Except String Unit :=
  let s := s.putChallenge now { challenge with status := .expired }
  match WorkerRegistry.get s.workers challenge.workerId with
  | .error e => (s, .error e)
  | .ok state =>
    (s.putWorker (countExpired state), recordChallengeMetric challenge.difficulty (.number 0))

/-- The loop of `expire_open_challenges`. -/
def expireEach (now : Instant) : List ComputeChallenge → CoordinatorState → CoordinatorState
  | [], s => s
  | challenge :: rest, s =>
    if now ≤ challenge.deadline then expireEach now rest s
    else
      -- what raises ends the loop, with its challenge already expired
      match expireChallenge now challenge s with
      | (s, .ok ()) => expireEach now rest s
      | (s, .error _) => s

/-- `list_open`: the rows that were written last come first. -/
def listOpen (challenges : Challenges) : List ComputeChallenge :=
  ((challenges.rows.map Prod.snd).insertionSort fun a b => b.updatedAt ≤ a.updatedAt).filter
    fun challenge => challenge.status = .created || challenge.status = .assigned

/-- `expire_open_challenges`. -/
def expireOpenChallenges (now : Instant) (s : CoordinatorState) : CoordinatorState :=
  expireEach now (listOpen s.challenges) s

/-! ## Results -/

/-- `result.proof.get("model_profile") or {}`, when this is a dictionary. -/
def modelProfile (result : ChallengeResult) : Option (List (String × Value)) :=
  match result.proof.lookup "model_profile" with
  | none => some []
  | some (.obj fields) => some fields
  | some value => if truthy value then none else some []

/-- The truth value of an entry. -/
def flag (fields : List (String × Value)) (key : String) : Bool :=
  ((fields.lookup key).map truthy).getD false

/-- The proof of a GPU challenge. -/
def validateGpuProof (result : ChallengeResult) : Except String Bool :=
  if flag result.proof "gpu_verified" then
    inTexts (result.proof.lookup "backend") ["cupy", "test-gpu"]
  else .ok false

/-- `validate_ai_model_proof`. -/
def validateAiModelProof (cc : ChallengeConfig) (result : ChallengeResult)
    (challenge : ComputeChallenge) : Except String Bool :=
  match modelProfile result with
  | none => .ok false
  | some profile => do
    let parameterCountB ← safeFloat cc (profile.lookup "parameter_count_b")
    if flag result.proof "ai_model_verified"
        && isText (result.proof.lookup "prompt_hash") challenge.expectedHash
        && isText (result.proof.lookup "proof_hash") result.resultHash then
      let known ← inTexts (result.proof.lookup "backend") ["test-ai-model", "ollama", "openai-compatible"]
      return known && flag profile "model_name" && decide (0 < parameterCountB)
    else return false

/-- Whether the result passes the challenge. -/
def judge (cc : ChallengeConfig) (result : ChallengeResult) (challenge : ComputeChallenge) :
    Except String Bool :=
  let sameWorker := decide (result.workerId = challenge.workerId)
  let sameHash := decide (result.resultHash = challenge.expectedHash)
  match challenge.challengeType with
  | .gpu => do
    let proofValid ← validateGpuProof result
    return sameWorker && sameHash && proofValid
  -- the hash of the result is compared with the one in the proof, not with the expected one
  | .aiModel => do
    let proofValid ← validateAiModelProof cc result challenge
    return sameWorker && proofValid
  | _ => .ok (sameWorker && sameHash)

/-- `min(50.0, 1000.0 / max(float(elapsed_ms), 1.0))`. -/
def speedScore : PyFloat → ℚ
  | .number elapsedMs => min 50 (1000 / max elapsedMs 1)
  | .infinite negative => if negative then 50 else 0
  -- no comparison with `NaN` holds, so that `max` and `min` take their first argument
  | .nan => 50

/-- `apply_verified_gpu_score`. -/
def applyVerifiedGpuScore (result : ChallengeResult) (challenge : ComputeChallenge)
    (state : WorkerState) : Except String WorkerState :=
  match state.benchmark with
  | none => .ok state
  | some benchmark => do
    let difficultyScore := min 100 ((← floatOfInt challenge.difficulty) * 10)
    let score := roundEight (difficultyScore + speedScore result.elapsedMs)
    return { state with
      benchmark := some { benchmark with gpuScore := max benchmark.gpuScore score } }

/-- `apply_verified_ai_model_score`. -/
def applyVerifiedAiModelScore (cc : ChallengeConfig) (result : ChallengeResult)
    (challenge : ComputeChallenge) (state : WorkerState) : Except String WorkerState := do
  let profile := (modelProfile result).getD []
  let parameterCountB := max (← safeFloat cc (profile.lookup "parameter_count_b")) 0
  let contextTokens := max (← safeInt cc (profile.lookup "context_tokens")) 0
  let capabilityBonus : ℚ :=
    match profile.lookup "capabilities" with
    | some (.arr items) => min ((items.length : ℚ) * 5) 50
    | _ => 0
  let difficultyScore := min 100 ((← floatOfInt challenge.difficulty) * 10)
  let modelSizeScore := min 600 (parameterCountB * 18)
  let contextScore := min 200 ((← floatOfInt contextTokens) / 512)
  let score := roundEight (modelSizeScore + contextScore + capabilityBonus + difficultyScore)
  return { state with aiModelScore := max state.aiModelScore score }

/-- The score that a passed challenge of this type verifies. -/
def applyVerifiedScore (cc : ChallengeConfig) (result : ChallengeResult)
    (challenge : ComputeChallenge) (state : WorkerState) : Except String WorkerState :=
  match challenge.challengeType with
  | .gpu => applyVerifiedGpuScore result challenge state
  | .aiModel => applyVerifiedAiModelScore cc result challenge state
  | _ => .ok state

/-- A worker that has passed a challenge. -/
def countPassed (cc : ChallengeConfig) (result : ChallengeResult) (challenge : ComputeChallenge)
    (state : WorkerState) : Except String WorkerState := do
  let state ← applyVerifiedScore cc result challenge
    { state with passedChallenges := state.passedChallenges + 1 }
  return { state with reliabilityScore := min 100 (state.reliabilityScore + 5) }

/-- A worker that has failed a challenge. -/
def countFailed (state : WorkerState) : WorkerState :=
  { state with
    failedChallenges := state.failedChallenges + 1
    penaltyScore := state.penaltyScore + 10
    reliabilityScore := max 0 (state.reliabilityScore - 10) }

/-- The values of a proof that the event of its outcome is written with. -/
def eventValues (result : ChallengeResult) : List Value :=
  [result.proof.lookup "backend", (modelProfile result).bind (List.lookup "model_name")].reduceOption

/-- `record_event` for an outcome. -/
def recordOutcomeEvent (cc : ChallengeConfig) (result : ChallengeResult) : Except String Unit :=
  if (eventValues result).all cc.dumpable then .ok () else .error "surrogates not allowed"

/-- The end of `verify_result`: the outcome is put into the challenge, and counted for the worker that
the result names. -/
def recordOutcome (cc : ChallengeConfig) (now : Instant) (result : ChallengeResult)
    (challenge : ComputeChallenge) (passed : Bool) (s : CoordinatorState) :
    CoordinatorState × Except String Bool :=
  let s := s.putChallenge now { challenge with status := if passed then .passed else .failed }
  match WorkerRegistry.get s.workers result.workerId with
  | .error e => (s, .error e)
  | .ok state =>
    match if passed then countPassed cc result challenge state else .ok (countFailed state) with
    | .error e => (s, .error e)
    | .ok state =>
      (s.putWorker state, do
        recordChallengeMetric challenge.difficulty result.elapsedMs
        recordOutcomeEvent cc result
        return passed)

/-- `verify_result`. -/
def verifyResult (cc : ChallengeConfig) (now : Instant) (result : ChallengeResult)
    (s : CoordinatorState) : CoordinatorState × Except String Bool :=
  match s.challenges.find? result.challengeId with
  | none =>
    let challengeId := result.challengeId
    (s, .error s!"challenge not found: {challengeId}")
  | some challenge =>
    -- an outcome is given again, and nothing is counted
    if challenge.status.final then (s, .ok (challenge.status = .passed))
    else
      match result.submittedAt with
      | .naive => (s, .error "can't compare offset-naive and offset-aware datetimes")
      | .aware submitted =>
        -- too late by the time in the result, not by the clock
        if challenge.deadline < submitted then
          match expireChallenge now challenge s with
          | (s, .ok ()) => (s, .ok false)
          | (s, .error e) => (s, .error e)
        else
          match judge cc result challenge with
          | .error e => (s, .error e)
          | .ok passed => recordOutcome cc now result challenge passed s

/-! ## Calls -/

/-- A call of the challenge engine or of the registry. -/
inductive CoordinatorCall where
  | createChallenge (now : Instant) (seed expectedHash workerId : String)
      (challengeType : ChallengeType) (difficulty : ℤ)
  | verifyResult (now : Instant) (result : ChallengeResult)
  | expireOpenChallenges (now : Instant)
  | register (registration : WorkerRegistration)
  | updateBenchmark (benchmark : BenchmarkResult)
  | heartbeat (workerId : String) (timestamp : RequestTime)
  | penalizeMissedHeartbeats (now : Instant) (graceSeconds : ℤ) (penalty : ℚ)

/-- The workers after an operation of the registry that may raise before it writes. -/
def CoordinatorState.withWorkers (s : CoordinatorState) (workers : Except String Workers) :
    CoordinatorState :=
  match workers with
  | .ok workers => { s with workers }
  | .error _ => s

/-- What a call does. -/
def CoordinatorCall.apply (cc : ChallengeConfig) (s : CoordinatorState) :
    CoordinatorCall → CoordinatorState
  | .createChallenge now seed expectedHash workerId challengeType difficulty =>
    Coordinator.createChallenge cc now seed expectedHash workerId challengeType difficulty s
  | .verifyResult now result => (Coordinator.verifyResult cc now result s).1
  | .expireOpenChallenges now => Coordinator.expireOpenChallenges now s
  | .register registration => { s with workers := WorkerRegistry.register s.workers registration }
  | .updateBenchmark benchmark => s.withWorkers (WorkerRegistry.updateBenchmark s.workers benchmark)
  | .heartbeat workerId timestamp =>
    s.withWorkers (WorkerRegistry.heartbeat s.workers workerId timestamp)
  | .penalizeMissedHeartbeats now graceSeconds penalty =>
    { s with
      workers := WorkerRegistry.penalizeMissedHeartbeats now graceSeconds penalty s.workers }

/-- The tables that `init_db` creates. -/
def initDb : CoordinatorState := ⟨.empty, .empty⟩

end Picoin.Forge.Coordinator
