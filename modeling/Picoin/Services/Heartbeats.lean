import Picoin.Lib.Run
import Picoin.Services.Consensus
import Picoin.Services.Execution
import Picoin.Services.Validators

/-!
# Heartbeats of validators

A validator counts for a quorum while its node sends signed heartbeats. A heartbeat arrives from
the validator or by gossip, and it may name a new validator; a node also inserts rows of validators
it has not heard of, and it looks at the age of all heartbeats from time to time.

* **`recordValidatorHeartbeat`** — one heartbeat; a public key that another row has disables the
  row that it is sent for;
* **`refreshParticipantLiveness`** — the age of the heartbeats, and how long a node lags;
* **`LivenessNode.step`** — these, the operator's switch and whatever else writes a row.
-/

namespace Picoin

open Run Json Decimal

/-! ## Settings and tables -/

/-- The settings of the liveness of validators, and what libraries provide: `validate_public_key`,
and `parse_iso` with the text that `isoformat` writes for the time it reads. -/
structure LivenessConfig extends Config where
  participantOnlineSeconds : ℤ
  participantOfflineSeconds : ℤ
  validatorOutOfSyncSeconds : ℤ
  walletBackedStake : Bool
  validatePublicKey : String → Except String Unit
  parseIso : String → Option Timestamp

def validatorSyncLagBlocks : ℤ := 3
def validatorHeartbeatFutureSkewSeconds : ℤ := 60

inductive OnlineStatus where
  | offline
  | stale
  | online
  | duplicatedIdentity
deriving DecidableEq

def OnlineStatus.text : OnlineStatus → String
  | .offline => "offline"
  | .stale => "stale"
  | .online => "online"
  | .duplicatedIdentity => "duplicated_identity"

inductive SyncStatus where
  | unknown
  | synced
  | syncing
  | outOfSync
deriving DecidableEq

def SyncStatus.text : SyncStatus → String
  | .unknown => "unknown"
  | .synced => "synced"
  | .syncing => "syncing"
  | .outOfSync => "out_of_sync"

/-- A row of `validators`, with the columns of its liveness. -/
structure LivenessRow extends ValidatorRow where
  lastHeartbeatAt : Option Timestamp := none
  onlineStatus : OnlineStatus := .offline
  syncStatus : SyncStatus := .unknown
  outOfSyncSince : Option Timestamp := none
  nodeId : Option String := none
  advertisedAddress : Option String := none
  lastIp : Option String := none
  effectiveHeight : ℤ := 0
  syncLag : ℤ := 0
  pendingReplayBlocks : ℤ := 0
  reasonIfNotEligible : Option String := none
deriving DecidableEq

/-- A row of `validator_heartbeats`, under its heartbeat id. -/
structure HeartbeatRow where
  validatorId : String
  publicKey : String
  nodeId : String
  advertisedAddress : String
  localHeight : ℤ
  effectiveHeight : ℤ
  latestBlockHash : Option String
  pendingReplayBlocks : ℤ
  syncLag : ℤ
  protocolVersion : String
  heartbeatAt : String
  observedAt : String
  sourcePeer : Option String
  signature : String
  payload : String
  createdAt : String
deriving DecidableEq

/-- The validators of a node, the heartbeats it has seen and the height of its chain. -/
structure LivenessNode where
  validators : Sql.Table String LivenessRow
  heartbeats : Sql.Table String HeartbeatRow
  latestBlockHeight : ℤ

/-! ## Requests -/

/-- The payload of a heartbeat. `extra` has the other keys, and the keys that hold `null`. -/
structure HeartbeatRequest where
  validatorId : Option String
  nodeId : Option String
  publicKey : Option String
  address : Option String
  name : Option String
  version : Option String
  heartbeatAt : Option String
  latestBlockHash : Option String
  localHeight : Option ℤ
  effectiveHeight : Option ℤ
  syncLag : Option ℤ
  pendingReplayBlocks : Option ℤ
  signature : Option String
  extra : List (String × Value)

/-- The entry of a dict for a key that it may lack. -/
def dictEntry {α : Type} (key : String) (toJson : α → Value) (value : Option α) :
    List (String × Value) :=
  (value.map fun x => (key, toJson x)).toList

/-- The keys of a heartbeat that are published, without the signature. -/
def HeartbeatRequest.publicEntries (r : HeartbeatRequest) : List (String × Value) :=
  dictEntry "validator_id" .str r.validatorId ++ dictEntry "node_id" .str r.nodeId ++
    dictEntry "public_key" .str r.publicKey ++ dictEntry "address" .str r.address ++
    dictEntry "local_height" .int r.localHeight ++
    dictEntry "effective_height" .int r.effectiveHeight ++
    dictEntry "latest_block_hash" .str r.latestBlockHash ++
    dictEntry "pending_replay_blocks" .int r.pendingReplayBlocks ++
    dictEntry "sync_lag" .int r.syncLag ++ dictEntry "version" .str r.version ++
    dictEntry "heartbeat_at" .str r.heartbeatAt

/-- `_heartbeat_signature_payload`. -/
def HeartbeatRequest.signaturePayload (r : HeartbeatRequest) : Value :=
  .obj (r.publicEntries ++ dictEntry "name" .str r.name ++ r.extra)

/-- `_public_validator_heartbeat_payload`. -/
def HeartbeatRequest.publicPayload (r : HeartbeatRequest) : Value :=
  .obj (r.publicEntries ++ dictEntry "signature" .str r.signature)

/-- `_validator_heartbeat_id`. -/
def HeartbeatRequest.heartbeatId (lc : LivenessConfig) (r : HeartbeatRequest) : String :=
  lc.hashJson (.obj [("validator_heartbeat", r.publicPayload)])

/-- The public key is one, and it verifies the signature. -/
def HeartbeatRequest.signed (lc : LivenessConfig) (r : HeartbeatRequest) : Bool :=
  (lc.validatePublicKey (textOr r.publicKey "")).isOk &&
    lc.verifyPayloadSignature (textOr r.publicKey "") r.signaturePayload (textOr r.signature "")

/-- `text.rstrip("/")`. -/
def rstripSlash (text : String) : String := String.ofList (text.toList.rdropWhile (· = '/'))

/-- `_parse_heartbeat_time`. -/
def parseHeartbeatTime (lc : LivenessConfig) (value : Option String) : Option Timestamp :=
  match textOr value "" with
  | "" => none
  | text => lc.parseIso
      (String.ofList (text.toList.flatMap fun c => if c = 'Z' then "+00:00".toList else [c]))

/-- `_validator_heartbeat_time`. -/
def validatorHeartbeatTime (lc : LivenessConfig) (now : Instant) (observedAt : Option String)
    (r : HeartbeatRequest) : Except MiningError Timestamp :=
  let heartbeatAt := ((parseHeartbeatTime lc r.heartbeatAt).or
    (parseHeartbeatTime lc observedAt)).getD (.ofInstant now)
  if now + seconds validatorHeartbeatFutureSkewSeconds < heartbeatAt.instant then
    .error (.mining 400 "validator heartbeat timestamp is too far in the future")
  else .ok heartbeatAt

/-- What a heartbeat that passed its checks writes. -/
structure Heartbeat where
  validatorId : String
  publicKey : String
  name : String
  nodeId : String
  advertisedAddress : String
  version : String
  heartbeatAt : Timestamp
  effectiveHeight : ℤ
  syncLag : ℤ
  pendingReplayBlocks : ℤ

/-- The checks of `record_validator_heartbeat`; the lag is at least what the chain of the node
says. -/
def checkHeartbeat (lc : LivenessConfig) (now : Instant) (latestBlockHeight : ℤ)
    (observedAt : Option String) (r : HeartbeatRequest) : Except MiningError Heartbeat :=
  let validatorId := clean r.validatorId
  let nodeId := clean r.nodeId
  let advertisedAddress := rstripSlash (clean r.address)
  if !r.signed lc then .error (.mining 401 "invalid validator heartbeat signature")
  else if validatorId = "" then .error (.mining 400 "validator_id is required")
  else if nodeId = "" ∨ advertisedAddress = "" then
    .error (.mining 400 "validator heartbeat requires active node_id and address")
  else do
    let heartbeatAt ← validatorHeartbeatTime lc now observedAt r
    let effectiveHeight := max 0 (intOr r.effectiveHeight (intOr r.localHeight 0))
    return {
      validatorId
      publicKey := textOr r.publicKey ""
      name := takeChars 80 (textOr r.name validatorId)
      nodeId
      advertisedAddress
      version := textOr r.version lc.protocolVersion
      heartbeatAt
      effectiveHeight
      syncLag := max (max 0 (intOr r.syncLag 0)) (max 0 (latestBlockHeight - effectiveHeight))
      pendingReplayBlocks := max 0 (intOr r.pendingReplayBlocks 0) }

/-- `_store_validator_heartbeat_observation`: a heartbeat that is stored is not stored again. -/
def storeHeartbeatObservation (lc : LivenessConfig) (now : Instant) (heartbeatAt : String)
    (sourcePeer observedAt : Option String) (r : HeartbeatRequest)
    (heartbeats : Sql.Table String HeartbeatRow) : Sql.Table String HeartbeatRow :=
  heartbeats.insertNew (r.heartbeatId lc)
    { validatorId := clean r.validatorId
      publicKey := textOr r.publicKey ""
      nodeId := clean r.nodeId
      advertisedAddress := rstripSlash (clean r.address)
      localHeight := max 0 (intOr r.localHeight 0)
      effectiveHeight := max 0 (intOr r.effectiveHeight 0)
      latestBlockHash := r.latestBlockHash
      pendingReplayBlocks := max 0 (intOr r.pendingReplayBlocks 0)
      syncLag := max 0 (intOr r.syncLag 0)
      protocolVersion := textOr r.version lc.protocolVersion
      heartbeatAt
      observedAt := textOr observedAt heartbeatAt
      sourcePeer
      signature := textOr r.signature ""
      payload := canonicalJson r.publicPayload
      createdAt := isoformat now }

/-! ## Statuses -/

/-- `_status_from_heartbeat`. -/
def statusFromHeartbeat (lc : LivenessConfig) (now : Instant) :
    Option Timestamp → OnlineStatus
  | none => .offline
  | some heartbeatAt =>
    if now - heartbeatAt.instant ≤ seconds lc.participantOnlineSeconds then .online
    else if now - heartbeatAt.instant ≤ seconds lc.participantOfflineSeconds then .stale
    else .offline

/-- `_sync_status_from_metrics`, with the time since when the node lags. -/
def syncStatusFromMetrics (lc : LivenessConfig) (now : Instant) (syncLag pendingReplayBlocks : ℤ)
    (outOfSyncSince : Option Timestamp) : SyncStatus × Option Timestamp :=
  if syncLag ≤ validatorSyncLagBlocks ∧ pendingReplayBlocks ≤ 0 then (.synced, none)
  else
    let since := outOfSyncSince.getD (.ofInstant now)
    if seconds lc.validatorOutOfSyncSeconds ≤ now - since.instant then (.outOfSync, some since)
    else (.syncing, some since)

/-- `_validator_eligibility_stake`. -/
def LivenessConfig.eligibilityStake (lc : LivenessConfig) (row : LivenessRow) : ℤ :=
  if lc.walletBackedStake then row.walletStakeLocked else row.stakeLocked

def LivenessRow.inCooldown (lc : LivenessConfig) (now : Instant) (row : LivenessRow) : Bool :=
  (row.cooldownUntil.bind lc.parseIso).any fun cooldownUntil => now < cooldownUntil.instant

/-- The row passes the conditions of `_eligible_validator_rows`. -/
def LivenessRow.eligible (lc : LivenessConfig) (now : Instant) (row : LivenessRow) : Bool :=
  !row.isBanned && row.enabled && row.onlineStatus = .online && row.syncStatus ≠ .outOfSync &&
    row.nodeId.getD "" ≠ "" && row.advertisedAddress.getD "" ≠ "" &&
    row.protocolVersion = some lc.protocolVersion &&
    lc.minValidatorStake ≤ lc.eligibilityStake row &&
    Dec.atLeast row.trustScore validatorMinTrustScore && !row.inCooldown lc now

/-- What the votes on blocks read of a row. -/
def LivenessRow.toConsensus (lc : LivenessConfig) (row : LivenessRow) :
    ConsensusValidatorRow where
  isBanned := row.isBanned
  enabled := row.enabled
  onlineStatus := row.onlineStatus.text
  syncStatus := row.syncStatus.text
  protocolVersion := row.protocolVersion
  eligibilityStake := lc.eligibilityStake row
  trustScore := row.trustScore

/-- `_validator_reason_if_not_eligible`. -/
def validatorReasonIfNotEligible (lc : LivenessConfig) (now : Instant) (row : LivenessRow) :
    Option String :=
  let cooldownUntil := row.cooldownUntil.getD ""
  let status := row.onlineStatus.text
  if row.inCooldown lc now then some s!"validator is in cooldown until {cooldownUntil}"
  else if !row.enabled then some (textOr row.reasonIfNotEligible "validator disabled")
  else if row.isBanned then some "validator banned"
  else if row.onlineStatus ≠ .online then some s!"validator {status}"
  else if clean row.nodeId = "" ∨ clean row.advertisedAddress = "" then
    some "validator node heartbeat required"
  else if row.syncStatus = .outOfSync then some "validator out of sync"
  else if textOr row.protocolVersion lc.protocolVersion ≠ lc.protocolVersion then
    some "protocol version mismatch"
  else if lc.eligibilityStake row < lc.minValidatorStake then
    some (if lc.walletBackedStake then
      "validator wallet-backed stake is below the minimum required"
    else "validator stake is below the minimum required")
  else if !Dec.atLeast row.trustScore validatorMinTrustScore then
    some "validator trust score is below the minimum required"
  else none

/-! ## Heartbeats -/

/-- The row that the node inserts for a validator that it has not heard of: no heartbeat, no node,
offline. -/
def unheardRow (name publicKey : String) (rewardAddress : Option String)
    (timestamp protocolVersion : String) (stakeLocked : ℤ) : LivenessRow where
  name := name
  publicKey := publicKey
  rewardAddress := rewardAddress
  registeredAt := timestamp
  acceptedJobs := 0
  rejectedJobs := 0
  invalidResults := 0
  trustScore := 1
  cooldownUntil := none
  lastSeenAt := some timestamp
  totalValidationMs := 0
  stakeLocked := stakeLocked
  walletStakeLocked := 0
  stakeOwnerAddress := none
  slashedAmount := 0
  isBanned := false
  enabled := true
  protocolVersion := some protocolVersion

/-- The columns that every heartbeat writes. -/
def Heartbeat.write (h : Heartbeat) (now : Instant) (clientHost : Option String)
    (row : LivenessRow) : LivenessRow :=
  { row with
    publicKey := h.publicKey
    lastSeenAt := some (isoformat now)
    lastHeartbeatAt := some h.heartbeatAt
    nodeId := some h.nodeId
    advertisedAddress := some h.advertisedAddress
    lastIp := clientHost
    effectiveHeight := h.effectiveHeight
    syncLag := h.syncLag
    pendingReplayBlocks := h.pendingReplayBlocks
    protocolVersion := some h.version }

/-- The row of a heartbeat whose public key another row has. -/
def Heartbeat.duplicate (h : Heartbeat) (now : Instant) (clientHost : Option String)
    (existing : Option LivenessRow) : LivenessRow :=
  let row := existing.getD
    (unheardRow h.name h.publicKey none (isoformat now) h.version 0)
  { h.write now clientHost row with
    onlineStatus := .duplicatedIdentity
    enabled := false
    reasonIfNotEligible := some "duplicate public key identity detected" }

/-- The row of any other heartbeat; the operator's switch stays as it is. -/
def Heartbeat.heard (lc : LivenessConfig) (h : Heartbeat) (now : Instant)
    (clientHost : Option String) (existing : Option LivenessRow) : LivenessRow :=
  let row := existing.getD
    (unheardRow h.name h.publicKey none (isoformat now) h.version lc.validatorRegistrationStake)
  let sync := syncStatusFromMetrics lc now h.syncLag h.pendingReplayBlocks row.outOfSyncSince
  { h.write now clientHost row with
    name := if h.name = "" then row.name else h.name
    onlineStatus := statusFromHeartbeat lc now (some h.heartbeatAt)
    syncStatus := sync.1
    outOfSyncSince := sync.2 }

/-- Another row has the public key. -/
def hasDuplicate (validators : Sql.Table String LivenessRow) (h : Heartbeat) : Bool :=
  validators.rows.any fun r => r.2.publicKey = h.publicKey && r.1 ≠ h.validatorId

/-- `record_validator_heartbeat`, which `receive_validator_heartbeat_gossip` calls for a heartbeat
of a peer. -/
def recordValidatorHeartbeat (lc : LivenessConfig) (now : Instant)
    (clientHost sourcePeer observedAt : Option String) (r : HeartbeatRequest) (n : LivenessNode) :
    Except MiningError LivenessNode := do
  let h ← checkHeartbeat lc now n.latestBlockHeight observedAt r
  let existing := n.validators.find? h.validatorId
  let row := if hasDuplicate n.validators h then h.duplicate now clientHost existing
    else h.heard lc now clientHost existing
  return { n with
    heartbeats :=
      storeHeartbeatObservation lc now h.heartbeatAt.text sourcePeer observedAt r n.heartbeats
    validators := n.validators.upsert h.validatorId
      { row with reasonIfNotEligible := validatorReasonIfNotEligible lc now row } }

/-! ## The other writes -/

/-- What `refresh_participant_liveness` writes into a row. -/
def LivenessRow.refresh (lc : LivenessConfig) (now : Instant) (row : LivenessRow) : LivenessRow :=
  let sync := syncStatusFromMetrics lc now row.syncLag row.pendingReplayBlocks row.outOfSyncSince
  let row := { row with
    onlineStatus :=
      if row.isBanned ∨ row.enabled = false then .offline
      else statusFromHeartbeat lc now row.lastHeartbeatAt
    syncStatus := sync.1
    outOfSyncSince := sync.2 }
  { row with reasonIfNotEligible := validatorReasonIfNotEligible lc now row }

/-- `refresh_participant_liveness`, when it is not throttled. -/
def refreshParticipantLiveness (lc : LivenessConfig) (now : Instant) (n : LivenessNode) :
    LivenessNode :=
  { n with validators := n.validators.mapRows fun _ row => row.refresh lc now }

/-- `set_validator_enabled`, the operator's switch. -/
def LivenessRow.switch (enabled : Bool) (row : LivenessRow) : LivenessRow :=
  { row with
    enabled
    reasonIfNotEligible := if enabled then none else some "disabled by operator"
    onlineStatus := if enabled then row.onlineStatus else .offline }

/-- `prune_stale_validators`. -/
def pruneStaleValidators (now : Instant) (olderThanSeconds : ℤ) (n : LivenessNode) :
    LivenessNode :=
  let threshold := isoformat (now - seconds (max 1 olderThanSeconds))
  { n with
    validators := n.validators.filterRows fun _ row =>
      !(row.onlineStatus = .offline &&
        decide ((row.lastHeartbeatAt.map Timestamp.text).getD row.registeredAt < threshold) &&
        row.acceptedJobs = 0 && row.rejectedJobs = 0) }

/-- The insert of `register_validator`, for a reward address that it has checked. -/
def registerHeartbeatValidator (lc : LivenessConfig) (suffix name publicKey : String)
    (rewardAddress : Option String) (timestamp : String) (n : LivenessNode) :
    Except MiningError LivenessNode :=
  match lc.validatePublicKey publicKey with
  | .error detail => .error (.mining 400 detail)
  | .ok () =>
    match n.validators.insert? ("validator_" ++ suffix)
        (unheardRow name publicKey rewardAddress timestamp lc.protocolVersion
          lc.validatorRegistrationStake) with
    | none => .error (.integrity "UNIQUE constraint failed: validators.validator_id")
    | some validators => .ok { n with validators }

/-- `_restore_validator_identity`, for a validator that asks for a job; a row that exists keeps its
public key. -/
def restoreValidatorIdentity (lc : LivenessConfig) (validatorId publicKey : String)
    (name rewardAddress : Option String) (timestamp : String) (n : LivenessNode) :
    Except MiningError LivenessNode :=
  let validatorId := strip validatorId
  let name := takeChars 80 (textOr name validatorId)
  if !startsWith validatorId "validator_" then .ok n
  else
    match lc.validatePublicKey publicKey with
    | .error detail => .error (.mining 400 detail)
    | .ok () => .ok { n with
        validators := n.validators.upsert validatorId <|
          match n.validators.find? validatorId with
          | none => unheardRow name publicKey rewardAddress timestamp lc.protocolVersion
              lc.validatorRegistrationStake
          | some row => { row with
              name := if name = "" then row.name else name
              rewardAddress := rewardAddress.or row.rewardAddress
              lastSeenAt := some timestamp
              protocolVersion := some lc.protocolVersion } }

/-- What else writes the row of a validator: penalties, recorded votes, requests and stakes. -/
inductive ValidatorWrite where
  | penalize (now : Instant)
  | penalizeFraud (now : Instant)
  | recordCompletedVote (approved : Bool) (validationMs : ℤ) (now : Instant)
  | seen (now : Instant)
  | rewardAddress (address : String)
  | stake (amount : ℤ) (sender timestamp : String)
  | unstake (amountUnits : ℤ) (timestamp : String)

def ValidatorWrite.apply : ValidatorWrite → ValidatorRow → ValidatorRow
  | .penalize now, row => row.penalize now
  | .penalizeFraud now, row => row.penalizeFraud now
  | .recordCompletedVote approved validationMs now, row =>
    row.recordCompletedVote approved validationMs now
  | .seen now, row => { row with lastSeenAt := some (isoformat now) }
  | .rewardAddress address, row => { row with rewardAddress := some address }
  | .stake amount sender timestamp, row => row.stake amount sender timestamp
  | .unstake amountUnits timestamp, row => row.unstake amountUnits timestamp

/-! ## Runs -/

/-- What happens to the validators of a node; a restored snapshot is not among it. `placeholder` is
the row that a block inserts for a validator that the node does not know. -/
inductive LivenessCall where
  | heartbeat (now : Instant) (clientHost sourcePeer observedAt : Option String)
    (request : HeartbeatRequest)
  | refresh (now : Instant)
  | setEnabled (validatorId : String) (enabled : Bool)
  | prune (now : Instant) (olderThanSeconds : ℤ)
  | register (suffix name publicKey : String) (rewardAddress : Option String) (timestamp : String)
  | restore (validatorId publicKey : String) (name rewardAddress : Option String)
    (timestamp : String)
  | placeholder (validatorId : String) (row : ValidatorRow)
  | write (validatorId : String) (what : ValidatorWrite)
  | newBlock (height : ℤ)

/-- The node after a call; a call that raises changes nothing. -/
def LivenessNode.step (lc : LivenessConfig) (n : LivenessNode) : LivenessCall → LivenessNode
  | .heartbeat now clientHost sourcePeer observedAt request =>
    attempt (recordValidatorHeartbeat lc now clientHost sourcePeer observedAt request n) n
  | .refresh now => refreshParticipantLiveness lc now n
  | .setEnabled validatorId enabled =>
    { n with validators := n.validators.modify validatorId (.switch enabled) }
  | .prune now olderThanSeconds => pruneStaleValidators now olderThanSeconds n
  | .register suffix name publicKey rewardAddress timestamp =>
    attempt (registerHeartbeatValidator lc suffix name publicKey rewardAddress timestamp n) n
  | .restore validatorId publicKey name rewardAddress timestamp =>
    attempt (restoreValidatorIdentity lc validatorId publicKey name rewardAddress timestamp n) n
  | .placeholder validatorId row =>
    { n with validators := n.validators.insertNew validatorId { toValidatorRow := row } }
  | .write validatorId what =>
    { n with
      validators := n.validators.modify validatorId fun row =>
        { row with toValidatorRow := what.apply row.toValidatorRow } }
  | .newBlock height => { n with latestBlockHeight := height }

end Picoin
