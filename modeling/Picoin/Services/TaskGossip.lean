import Picoin.Core.Text
import Picoin.Db.Mining
import Picoin.Lib.Outcome

/-!
# Task gossip

A node tells its peers about the tasks it knows; `receiveTaskGossip` merges one message into the
node's own rows. A message is a JSON object with the task's columns, and optionally the miner, the
commitment and the snapshot of the task. What a key holds is modelled by its column's type.

The statuses have ranks; a message changes the task's row if its status has a higher rank, or the
same rank and it changes something.
-/

namespace Picoin

open Outcome

/-! ## Messages -/

/-- What a dict holds under a key whose absence and `None` are told apart. -/
inductive Field (α : Type) where
  | absent
  | null
  | value (a : α)
deriving DecidableEq

/-- `task.get("selected_tx_hashes")`: a list, or a text that should be JSON. -/
inductive HashesField where
  | absent
  | text (s : String)
  | list (hashes : List String)
deriving DecidableEq

structure TaskMessage where
  taskId : Option String := none
  minerId : Option String := none
  status : Option String := none
  rangeStart : Field ℤ := .absent
  rangeEnd : Field ℤ := .absent
  algorithm : Field String := .absent
  assignmentSeed : Option String := none
  assignmentMode : Option String := none
  competitiveRoundHeight : Option ℤ := none
  competitiveRoundPreviousHash : Option String := none
  assignmentMs : Option ℤ := none
  computeMs : Option ℤ := none
  protocolParamsId : Option ℤ := none
  createdAt : Option String := none
  expiresAt : Option String := none
  submittedAt : Option String := none
  staleAt : Option String := none
  staleReason : Option String := none
  mempoolSnapshotId : Option String := none
  selectedTxHashes : HashesField := .absent
  txMerkleRoot : Option String := none
  txCount : Option ℤ := none
  txFeeTotalUnits : Option ℤ := none
  selectedTxHashesHash : Option String := none

structure MinerMessage where
  name : Option String := none
  publicKey : Option String := none
  rewardAddress : Option String := none
  registeredAt : Option String := none

structure CommitmentMessage where
  minerId : Field String := .absent
  resultHash : Field String := .absent
  merkleRoot : Field String := .absent
  challengeSeed : Field String := .absent
  samples : HashesField := .absent
  txMerkleRoot : Option String := none
  mempoolSnapshotId : Option String := none
  selectedTxHashesHash : Option String := none
  txCount : Option ℤ := none
  txFeeTotalUnits : Option ℤ := none
  signature : Option String := none
  signedAt : Option String := none
  commitMs : Option ℤ := none
  createdAt : Option String := none

structure SnapshotMessage where
  snapshotId : Option String := none
  blockHeight : Option ℤ := none
  txHashes : HashesField := .absent
  txMerkleRoot : Option String := none
  txCount : Option ℤ := none
  txFeeTotalUnits : Option ℤ := none
  createdAt : Option String := none

structure TaskEnvelope where
  task : TaskMessage
  miner : Option MinerMessage := none
  commitment : Option CommitmentMessage := none
  snapshot : Option SnapshotMessage := none

/-- The settings that gossip reads: the identity of the chain, signatures, and `json.loads`.
`jsonLoads text` is `none` for a text that is no JSON, and holds no list for other JSON values. -/
structure GossipConfig where
  networkId : String
  chainId : ChainId
  verifyPayloadSignature : String → Json.Value → String → Bool
  jsonLoads : String → Option (Option (List String))

/-! ## Reading fields -/

/-- `value or 0`. -/
def intOr (v : Option ℤ) (default : ℤ) : ℤ :=
  match v with
  | none => default
  | some n => if n = 0 then default else n

/-- `dict.get(key)`. -/
def Field.get {α : Type} : Field α → Option α
  | .absent => none
  | .null => none
  | .value a => some a

/-- `str(dict.get(key, existing))` of a text. -/
def Field.strOr (f : Field String) (existing : String) : String :=
  match f with
  | .absent => existing
  | .null => "None"
  | .value s => s

/-- `str(dict.get(key, existing))` of a number. -/
def Field.intStrOr (f : Field ℤ) (existing : ℤ) : String :=
  match f with
  | .absent => toString existing
  | .null => "None"
  | .value n => toString n

/-- `json.dumps` of a list of texts. -/
def dumpsTexts (texts : List String) : String :=
  "[" ++ ", ".intercalate (texts.map fun s => String.ofList (Json.quoted s)) ++ "]"

/-- `_json_payload_text(value, [])`. -/
def jsonPayloadText (gc : GossipConfig) : HashesField → String
  | .absent => "[]"
  | .text s => if (gc.jsonLoads s).isSome then s else "[]"
  | .list hashes => dumpsTexts hashes

/-- `str(value or "")` of a number. -/
def intText (v : Option ℤ) : String :=
  match v with
  | none => ""
  | some n => if n = 0 then "" else toString n

/-! ## Statuses -/

/-- `TASK_GOSSIP_STATUSES`. -/
def TaskStatus.parse (text : String) : Option TaskStatus :=
  match text with
  | "assigned" => some .assigned
  | "committed" => some .committed
  | "revealed" => some .revealed
  | "accepted" => some .accepted
  | "rejected" => some .rejected
  | "stale" => some .stale
  | "expired" => some .expired
  | _ => none

/-- `_TASK_GOSSIP_STATUS_RANK`. -/
def TaskStatus.rank : TaskStatus → ℕ
  | .assigned => 10
  | .committed => 20
  | .revealed => 30
  | .expired => 40
  | .rejected => 40
  | .stale => 40
  | .accepted => 50

/-! ## The task's row -/

/-- The loop over the immutable columns: the first that differs. -/
def immutableMismatch (row : TaskRow) (task : TaskMessage) : Option String :=
  if row.minerId ≠ task.minerId.getD "" then some "miner_id"
  else if toString row.rangeStart ≠ task.rangeStart.intStrOr row.rangeStart then some "range_start"
  else if toString row.rangeEnd ≠ task.rangeEnd.intStrOr row.rangeEnd then some "range_end"
  else if row.algorithm ≠ task.algorithm.strOr row.algorithm then some "algorithm"
  else none

/-- `_insert_gossip_miner_if_missing`. -/
def insertGossipMinerIfMissing (now : String) (miners : Sql.Table String MinerRow)
    (miner : Option MinerMessage) (minerId : String) : Sql.Table String MinerRow :=
  let payload := miner.getD {}
  miners.insertNew minerId
    { name := textOr payload.name minerId
      publicKey := payload.publicKey
      rewardAddress := payload.rewardAddress
      registeredAt := textOr payload.registeredAt now }

/-- The id of the active parameters, the largest if there are several. -/
def activeParamsId (params : Sql.Table ℤ ProtocolParamsRow) : Option ℤ :=
  ((params.rows.filter fun r => r.2.active).map Prod.fst).max?

/-- `_gossip_task_protocol_params_id`. -/
def gossipTaskProtocolParamsId (params : Sql.Table ℤ ProtocolParamsRow) (task : TaskMessage) :
    Option ℤ :=
  match task.protocolParamsId with
  | some id => if (params.find? id).isSome then some id else activeParamsId params
  | none => activeParamsId params

/-- The row that a message about an unknown task inserts. -/
def newTaskRow (gc : GossipConfig) (now : String) (params : Sql.Table ℤ ProtocolParamsRow)
    (task : TaskMessage) (minerId : String) (status : TaskStatus) : TaskRow where
  minerId := minerId
  rangeStart := intOr task.rangeStart.get 0
  rangeEnd := intOr task.rangeEnd.get 0
  algorithm := textOr task.algorithm.get "bbp_hex_v1"
  status := status
  assignmentSeed := task.assignmentSeed
  assignmentMode := task.assignmentMode
  competitiveRoundHeight := task.competitiveRoundHeight
  competitiveRoundPreviousHash := task.competitiveRoundPreviousHash
  assignmentMs := task.assignmentMs
  computeMs := task.computeMs
  protocolParamsId := gossipTaskProtocolParamsId params task
  createdAt := textOr task.createdAt now
  expiresAt := task.expiresAt
  submittedAt := task.submittedAt
  staleAt := task.staleAt
  staleReason := task.staleReason
  mempoolSnapshotId := task.mempoolSnapshotId
  selectedTxHashes := jsonPayloadText gc task.selectedTxHashes
  txMerkleRoot := textOr task.txMerkleRoot ""
  txCount := intOr task.txCount 0
  txFeeTotalUnits := intOr task.txFeeTotalUnits 0
  selectedTxHashesHash := task.selectedTxHashesHash

/-- A text column differs, and the message has it. -/
def textDiffers (incoming existing : Option String) : Bool :=
  incoming ≠ none && textOr existing "" ≠ textOr incoming ""

/-- A number column differs, and the message has it. -/
def intDiffers (incoming existing : Option ℤ) : Bool :=
  incoming ≠ none && intText existing ≠ intText incoming

/-- `task_changed`. -/
def taskChanged (gc : GossipConfig) (inserted : Bool) (task : TaskMessage) (status : TaskStatus)
    (row : TaskRow) : Bool :=
  inserted || status ≠ row.status ||
    textDiffers task.expiresAt row.expiresAt || textDiffers task.submittedAt row.submittedAt ||
    textDiffers task.staleAt row.staleAt || textDiffers task.staleReason row.staleReason ||
    intDiffers task.computeMs row.computeMs ||
    textDiffers task.mempoolSnapshotId row.mempoolSnapshotId ||
    textDiffers task.txMerkleRoot row.txMerkleRoot || intDiffers task.txCount row.txCount ||
    intDiffers task.txFeeTotalUnits row.txFeeTotalUnits ||
    textDiffers task.selectedTxHashesHash row.selectedTxHashesHash ||
    textOr row.selectedTxHashes "[]" ≠ jsonPayloadText gc task.selectedTxHashes

/-- The `UPDATE tasks` of a message. -/
def TaskRow.merge (gc : GossipConfig) (task : TaskMessage) (status : TaskStatus) (row : TaskRow) :
    TaskRow :=
  { row with
    status
    expiresAt := task.expiresAt
    submittedAt := task.submittedAt
    staleAt := task.staleAt
    staleReason := task.staleReason
    computeMs := task.computeMs.or row.computeMs
    mempoolSnapshotId := task.mempoolSnapshotId.or row.mempoolSnapshotId
    selectedTxHashes := jsonPayloadText gc task.selectedTxHashes
    txMerkleRoot := task.txMerkleRoot.getD row.txMerkleRoot
    txCount := task.txCount.getD row.txCount
    txFeeTotalUnits := task.txFeeTotalUnits.getD row.txFeeTotalUnits
    selectedTxHashesHash := task.selectedTxHashesHash.or row.selectedTxHashesHash }

/-! ## The snapshot -/

/-- `_task_gossip_block_height`. -/
def taskGossipBlockHeight (task : TaskMessage) (snapshot : Option SnapshotMessage) : ℤ :=
  match snapshot.bind SnapshotMessage.blockHeight with
  | some height => height
  | none => task.competitiveRoundHeight.getD 0

/-- The list that the task's `selected_tx_hashes` stand for. -/
def selectedHashes (gc : GossipConfig) : HashesField → List String
  | .absent => []
  | .text s => ((gc.jsonLoads s).bind id).getD []
  | .list hashes => hashes

/-- `_json_payload_text((snapshot or {}).get("tx_hashes") or selected_hashes, [])`. -/
def snapshotHashesText (gc : GossipConfig) (task : TaskMessage)
    (snapshot : Option SnapshotMessage) : String :=
  let selected := dumpsTexts (selectedHashes gc task.selectedTxHashes)
  match (snapshot.map SnapshotMessage.txHashes).getD .absent with
  | .absent => selected
  | .text s => if s = "" then selected else jsonPayloadText gc (.text s)
  | .list hashes => if hashes = [] then selected else dumpsTexts hashes

/-- `_upsert_task_tx_snapshot_from_gossip`. -/
def upsertTaskTxSnapshotFromGossip (gc : GossipConfig) (now : String) (s : TaskTables)
    (task : TaskMessage) (snapshot : Option SnapshotMessage) : Except MiningError TaskTables :=
  let taskId := task.taskId.getD ""
  let snapshotId := textOr (snapshot.bind SnapshotMessage.snapshotId)
    (textOr task.mempoolSnapshotId "")
  if snapshotId = "" then .ok s
  else if (s.snapshots.find? snapshotId).isSome ∨
      s.snapshots.rows.any (fun r => r.2.taskId = taskId) then .ok s
  else if s.tasks.find? taskId = none then .error (.integrity "FOREIGN KEY constraint failed")
  else
    let orTask (x : Option ℤ) (y : Option ℤ) := intOr x (intOr y 0)
    let row : TaskTxSnapshotRow :=
      { taskId
        blockHeight := taskGossipBlockHeight task snapshot
        txHashesJson := snapshotHashesText gc task snapshot
        txMerkleRoot := textOr (snapshot.bind SnapshotMessage.txMerkleRoot)
          (textOr task.txMerkleRoot "")
        txCount := orTask (snapshot.bind SnapshotMessage.txCount) task.txCount
        txFeeTotalUnits :=
          orTask (snapshot.bind SnapshotMessage.txFeeTotalUnits) task.txFeeTotalUnits
        createdAt := textOr (snapshot.bind SnapshotMessage.createdAt) (textOr task.createdAt now) }
    .ok { s with snapshots := s.snapshots.upsert snapshotId row }

/-! ## The commitment -/

/-- `build_commit_signature_payload`; the transaction part is left out for a legacy payload. -/
def commitSignaturePayload (gc : GossipConfig) (task : TaskMessage) (c : CommitmentMessage)
    (legacy : Bool) : Json.Value :=
  .obj ([("algorithm", .str (textOr task.algorithm.get "bbp_hex_v1")),
    ("merkle_root", .str (textOr c.merkleRoot.get "")),
    ("miner_id", .str (task.minerId.getD "")),
    ("range_end", .int (intOr task.rangeEnd.get 0)),
    ("range_start", .int (intOr task.rangeStart.get 0)),
    ("result_hash", .str (textOr c.resultHash.get "")),
    ("signed_at", .str (textOr c.signedAt "")),
    ("task_id", .str (task.taskId.getD ""))] ++
    if legacy then [] else
      [("tx_merkle_root", .str (textOr c.txMerkleRoot "")),
        ("mempool_snapshot_id", .str (textOr c.mempoolSnapshotId "")),
        ("selected_tx_hashes_hash", .str (textOr c.selectedTxHashesHash "")),
        ("tx_count", .int (intOr c.txCount 0)),
        ("tx_fee_total_units", .int (intOr c.txFeeTotalUnits 0)),
        ("chain_id", gc.chainId.toJson),
        ("network_id", .str gc.networkId)])

/-- `_validate_gossip_commitment`. -/
def validateGossipCommitment (gc : GossipConfig) (task : TaskMessage) (miner : MinerRow)
    (c : CommitmentMessage) : Bool :=
  let verifies (legacy : Bool) := gc.verifyPayloadSignature (textOr miner.publicKey "")
    (commitSignaturePayload gc task c legacy) (textOr c.signature "")
  verifies false || (intOr c.txCount 0 = 0 && verifies true)

/-- The loop over the columns of a stored commitment: the first that differs. -/
def commitmentMismatch (row : CommitmentRow) (c : CommitmentMessage) : Option String :=
  if row.minerId ≠ c.minerId.strOr row.minerId then some "miner_id"
  else if row.resultHash ≠ c.resultHash.strOr row.resultHash then some "result_hash"
  else if row.merkleRoot ≠ c.merkleRoot.strOr row.merkleRoot then some "merkle_root"
  else if row.challengeSeed ≠ c.challengeSeed.strOr row.challengeSeed then some "challenge_seed"
  else none

/-- The row of a new commitment. -/
def newCommitmentRow (gc : GossipConfig) (now minerId : String) (c : CommitmentMessage) :
    CommitmentRow where
  minerId := minerId
  resultHash := textOr c.resultHash.get ""
  merkleRoot := textOr c.merkleRoot.get ""
  challengeSeed := textOr c.challengeSeed.get ""
  samples := jsonPayloadText gc c.samples
  txMerkleRoot := textOr c.txMerkleRoot ""
  mempoolSnapshotId := c.mempoolSnapshotId
  selectedTxHashesHash := c.selectedTxHashesHash
  txCount := intOr c.txCount 0
  txFeeTotalUnits := intOr c.txFeeTotalUnits 0
  signature := textOr c.signature ""
  signedAt := textOr c.signedAt ""
  commitMs := c.commitMs
  createdAt := textOr c.createdAt now

/-- The commitment part of `receive_task_gossip`; tells whether a row was inserted. -/
def receiveCommitment (gc : GossipConfig) (now : String) (s : TaskTables) (task : TaskMessage)
    (taskId minerId : String) : Option CommitmentMessage → Except MiningError (TaskTables × Bool)
  | none => .ok (s, false)
  | some c =>
    match s.miners.find? minerId with
    | none => .error (.mining 404 "task gossip miner not found")
    | some miner =>
      match s.commitments.find? taskId with
      | some row =>
        match commitmentMismatch row c with
        | some column => .error (.mining 409 ("task commitment mismatch: " ++ column))
        | none => .ok (s, false)
      | none =>
        if validateGossipCommitment gc task miner c then
          let commitments := s.commitments.upsert taskId (newCommitmentRow gc now minerId c)
          .ok ({ s with commitments }, true)
        else .error (.mining 400 "invalid task commitment signature")

/-! ## Receiving a message -/

/-- What `receive_task_gossip` answers with, and the tables it leaves. -/
structure TaskGossipResult where
  tables : TaskTables
  accepted : Bool
  taskStatus : TaskStatus

/-- The existing row after the check of its immutable columns, or a new one. -/
def ensureTaskRow (gc : GossipConfig) (now : String) (s : TaskTables) (e : TaskEnvelope)
    (taskId minerId : String) (status : TaskStatus) :
    Except MiningError (TaskTables × TaskRow × Bool) :=
  match s.tasks.find? taskId with
  | some row =>
    match immutableMismatch row e.task with
    | some column => .error (.mining 409 ("task gossip mismatch: " ++ column))
    | none => .ok (s, row, false)
  | none =>
    let row := newTaskRow gc now s.protocolParams e.task minerId status
    .ok ({ s with
      miners := insertGossipMinerIfMissing now s.miners e.miner minerId
      tasks := s.tasks.upsert taskId row }, row, true)

/-- The comparison of ranks at the end of `receive_task_gossip`. -/
def mergeTask (gc : GossipConfig) (s : TaskTables) (task : TaskMessage) (taskId : String)
    (status : TaskStatus) (row : TaskRow) (inserted commitmentInserted : Bool) :
    TaskGossipResult :=
  if row.status.rank < status.rank ∨ (status.rank = row.status.rank ∧
      (taskChanged gc inserted task status row || commitmentInserted)) then
    { tables := { s with tasks := s.tasks.modify taskId (TaskRow.merge gc task status) }
      accepted := true
      taskStatus := status }
  else { tables := s, accepted := false, taskStatus := row.status }

/-- `receive_task_gossip`. -/
def receiveTaskGossip (gc : GossipConfig) (now : String) (s : TaskTables) (e : TaskEnvelope) :
    Except MiningError TaskGossipResult :=
  let taskId := clean e.task.taskId
  let minerId := clean e.task.minerId
  let statusText := clean e.task.status
  if taskId = "" ∨ minerId = "" ∨ statusText = "" then
    .error (.mining 422 "task gossip requires task_id, miner_id, and status")
  else match TaskStatus.parse statusText with
    | none => .error (.mining 422 "invalid task gossip status")
    | some status => do
      let (s, row, inserted) ← ensureTaskRow gc now s e taskId minerId status
      let s ← upsertTaskTxSnapshotFromGossip gc now s e.task e.snapshot
      let (s, commitmentInserted) ← receiveCommitment gc now s e.task taskId minerId e.commitment
      return mergeTask gc s e.task taskId status row inserted commitmentInserted

end Picoin
