import Mathlib.Data.List.Sort
import Picoin.Pool.Work

/-!
# The settlement of the pool's tasks

A task of the pool is won when the network has a block for it. The pool learns of it from the reply
to its reveal, from the list of the latest blocks, or from the status of the task.

Each request can fail, before or after it has taken effect. `MainNode` is what the pool's node does:
it takes reveals, adds blocks and closes tasks.

* **`finalizeResult`** is what `finalize_task` writes after its requests;
* **`reconcileWonBlocks`** and **`reconcileMainnetTaskStatuses`** are the two reconcilers;
* **`settleStep`** is a step of the pool or of its node.
-/

namespace Picoin.Pool

open Json

/-- A dictionary of a reply. -/
abbrev Dict : Type := List (String × Value)

/-- What `int` and `str` give for a text and for a value that is no text, the number of blocks that
are looked up, and the number of statuses. -/
structure SettlementConfig where
  settlementBlockLimit : ℕ
  statusLimit : ℕ
  intOfText : String → Option ℤ
  textOf : Value → String

/-! ## Dictionaries -/

/-- `reply.get(key)`. -/
def Dict.get (reply : Dict) (key : String) : Value := (reply.lookup key).getD .null

/-- `reply[key] = value`. -/
def Dict.set (reply : Dict) (key : String) (value : Value) : Dict :=
  Sql.Table.upsertRows key value reply

def isDict : Value → Bool
  | .obj _ => true
  | _ => false

def isText (value : Value) (text : String) : Bool :=
  match value with
  | .str s => s = text
  | _ => false

/-- The truth value. -/
def holds : Value → Bool
  | .null => false
  | .bool b => b
  | .int i => i ≠ 0
  | .float x => x ≠ 0
  | .str s => s ≠ ""
  | .arr items => !items.isEmpty
  | .obj fields => !fields.isEmpty

/-- `str(value or "")`. -/
def textOrEmpty (sc : SettlementConfig) (value : Value) : String :=
  match value with
  | .str s => s
  | v => if holds v then sc.textOf v else ""

/-- `_int_or_none`. -/
def intOrNone (sc : SettlementConfig) : Value → Option ℤ
  | .int i => some i
  | .bool b => some (if b then 1 else 0)
  | .float x => some (x.tdiv (10 ^ 8))
  | .str s => sc.intOfText s
  | _ => none

/-- The task of a block. -/
def blockTaskId (sc : SettlementConfig) (block : Dict) : String :=
  textOrEmpty sc (block.get "task_id")

def blockHeight (sc : SettlementConfig) (block : Dict) : Option ℤ :=
  intOrNone sc (block.get "height")

/-- The hash of a block, under either of its names. -/
def blockHashOf (block : Dict) : Option Value :=
  (block.lookup "block_hash").or (block.lookup "hash")

/-- `_normalize_block_payload`. -/
def normalizeBlockPayload (block : Dict) : Dict :=
  match block.lookup "block_hash", block.lookup "hash" with
  | none, some hash => block.set "block_hash" hash
  | _, _ => block

/-! ## The end of a task -/

/-- How the requests of `finalize_task` end: with the replies to the commit and to the reveal, or
with an error. A commit that is not accepted is an error, and so is a reply that is no
dictionary. -/
inductive FinalizeReply where
  | failed (error : String)
  | answered (challenge reveal : Dict)

/-- The reveal is credited. -/
def revealCredited (reveal : Dict) : Bool :=
  holds (reveal.get "accepted") || isText (reveal.get "status") "validation_pending"

/-- The status that the reply to a reveal leads to. -/
def revealStatus (reveal : Dict) : TaskStatus :=
  let pending := isText (reveal.get "status") "validation_pending"
  let block := isDict (reveal.get "block")
  if pending && !block then .validationPending
  else if holds (reveal.get "accepted") && block then .accepted
  else if pending then .validationPending
  else if revealCredited reveal then .submitted else .rejected

/-- `is_lost_competitive_round_error`. -/
def isLostCompetitiveRoundError (message : String) : Bool :=
  startsWith message "commit rejected: competitive round won by "

/-- What the last transaction of `finalize_task` writes. -/
def finalizeResult : FinalizeReply → FinalizeResult
  | .failed error =>
    { status := if isLostCompetitiveRoundError error then .lost else .error
      rawCommit := none
      rawReveal := none
      error := some error
      credited := false }
  | .answered challenge reveal =>
    { status := revealStatus reveal
      rawCommit := some (.obj challenge)
      rawReveal := some (.obj reveal)
      error := none
      credited := revealCredited reveal }

/-! ## The latest blocks -/

/-- The reveal of a row that `_pending_settlement_tasks` selects. -/
def pendingReveal (row : TaskRow) : Option Dict :=
  match row.rawReveal with
  | some (.obj reveal) =>
    if row.status ∉ [.accepted, .submitted, .validationPending] then none
    -- settled before
    else if isDict (Dict.get reveal "block") then none
    else if !isText (Dict.get reveal "status") "validation_pending" &&
        row.status ∉ [.submitted, .validationPending] then none
    else some reveal
  | _ => none

/-- The height of the round that the task was assigned in. -/
def roundHeight (sc : SettlementConfig) (row : TaskRow) : Option ℤ :=
  match row.rawTask with
  | .obj task => intOrNone sc (Dict.get task "competitive_round_height")
  | _ => none

/-- `blocks_by_task_id.get(task_id)`: a later block takes the place of an earlier one. -/
def blockOfTask (sc : SettlementConfig) (blocks : List Dict) (taskId : String) : Option Dict :=
  (blocks.filter fun block => blockTaskId sc block ≠ "" && blockTaskId sc block = taskId).getLast?

/-- `blocks_by_height.get(height)`. -/
def blockAtHeight (sc : SettlementConfig) (blocks : List Dict) (height : ℤ) : Option Dict :=
  (blocks.filter fun block => blockHeight sc block = some height).getLast?

/-- The reveal of a task with another outcome. -/
def settledReveal (reveal : Dict) (accepted : Bool) (status message : String) (block : Value) :
    Dict :=
  (((reveal.set "accepted" (.bool accepted)).set "status" (.str status)).set "message"
    (.str message)).set "block" block

/-- The row of a task whose block is among the latest. -/
def TaskRow.win (block reveal : Dict) (now : Instant) (row : TaskRow) : TaskRow :=
  { row with
    status := .accepted
    rawReveal := some (.obj (settledReveal reveal true "accepted" "settled from mainnet block"
      (.obj (normalizeBlockPayload block))))
    completedAt := row.completedAt.or (some now) }

/-- The row of a task whose round another task has won. -/
def TaskRow.lose (sc : SettlementConfig) (winner reveal : Dict) (now : Instant) (row : TaskRow) :
    TaskRow :=
  let winningTask := blockTaskId sc winner
  let height := sc.textOf (winner.get "height")
  let error := s!"competitive round won by {winningTask} at block {height}"
  { row with
    status := .lost
    error := some error
    rawReveal := some (.obj (settledReveal reveal false "lost" error .null))
    completedAt := row.completedAt.or (some now) }

/-- One turn of the loop of `reconcile_won_blocks`; it reads and writes the task's own row. -/
def settleRow (sc : SettlementConfig) (blocks : List Dict) (now : Instant) (row : TaskRow) :
    TaskRow :=
  match pendingReveal row with
  | none => row
  | some reveal =>
    match blockOfTask sc blocks row.mainnetTaskId with
    | some block => row.win block reveal now
    | none =>
      -- without a block of its own: who has the height of its round?
      match (roundHeight sc row).bind (blockAtHeight sc blocks) with
      | none => row
      | some winner =>
        if blockTaskId sc winner = "" ∨ blockTaskId sc winner = row.mainnetTaskId then row
        else if row.status ∈ [.submitted, .validationPending] then row.lose sc winner reveal now
        else row

/-- `reconcile_won_blocks`; without a reply nothing changes. `mainnet_task_id` is unique. -/
def reconcileWonBlocks (sc : SettlementConfig) (reply : Option (List Dict)) (now : Instant)
    (s : PoolState) : PoolState :=
  match reply with
  | none => s
  | some blocks => { s with tasks := s.tasks.mapRows fun _ row => settleRow sc blocks now row }

/-! ## The statuses -/

/-- The statuses that `_pending_mainnet_status_tasks` selects. -/
def TaskStatus.asksStatus : TaskStatus → Bool
  | .submitted | .validationPending | .unsettled => true
  | _ => false

/-- The first comes before the second: the one that was completed later, and of two of these the
one that was created later. -/
def statusOrder (a b : String × TaskRow) : Prop :=
  match a.2.completedAt, b.2.completedAt with
  | some a', some b' => b' < a' ∨ (a' = b' ∧ b.2.createdAt ≤ a.2.createdAt)
  | some _, none => True
  | none, some _ => False
  | none, none => b.2.createdAt ≤ a.2.createdAt

instance : DecidableRel statusOrder := fun a b => by
  unfold statusOrder
  split <;> infer_instance

/-- `_pending_mainnet_status_tasks`. -/
def pendingMainnetStatusTasks (sc : SettlementConfig) (s : PoolState) : List String :=
  (((s.tasks.rows.filter fun r => r.2.status.asksStatus && r.2.rawReveal.isSome).insertionSort
    statusOrder).take (max 1 sc.statusLimit)).map Prod.fst

/-- The statuses that end a task without a block. -/
def closingStatus (text : String) : Option TaskStatus :=
  if text = "expired" then some .expired
  else if text = "stale" then some .stale
  else if text = "rejected" then some .rejected
  else none

/-- `reveal["validation"] = validation`, where the status has one. -/
def withValidation (payload reveal : Dict) : Dict :=
  if isDict (payload.get "validation") then reveal.set "validation" (payload.get "validation")
  else reveal

/-- The columns that the status of a task writes. -/
structure StatusUpdate where
  status : TaskStatus
  error : Option String
  reveal : Dict

/-- The decision of `_apply_mainnet_task_status`. -/
def statusUpdate (sc : SettlementConfig) (row : TaskRow) (payload : Dict) : Option StatusUpdate :=
  let status := strip (textOrEmpty sc (payload.get "status"))
  let reveal : Dict := match row.rawReveal with
    | some (.obj reveal) => reveal
    | _ => []
  let message :=
    if holds (payload.get "message") then textOrEmpty sc (payload.get "message")
    else s!"mainnet task status is {status}"
  let update (accepted : Bool) (block : Value) :=
    withValidation payload (settledReveal reveal accepted status message block)
  match payload.get "block" with
  -- an accepted task is written only with its block
  | .obj block =>
    if status = "accepted" then
      some ⟨.accepted, none, update true (.obj (normalizeBlockPayload block))⟩
    else if status = "validation_pending" then some ⟨.validationPending, none, update true .null⟩
    else (closingStatus status).map fun closed => ⟨closed, some message, update false .null⟩
  | _ =>
    if status = "validation_pending" then some ⟨.validationPending, none, update true .null⟩
    else (closingStatus status).map fun closed => ⟨closed, some message, update false .null⟩

/-- `_apply_mainnet_task_status`. -/
def applyMainnetTaskStatus (sc : SettlementConfig) (payload : Dict) (now : Instant)
    (row : TaskRow) : TaskRow :=
  match statusUpdate sc row payload with
  | none => row
  | some update =>
    if row.status.asksStatus then
      { row with
        status := update.status
        error := update.error
        rawReveal := some (.obj update.reveal)
        completedAt := row.completedAt.or (some now) }
    else row

/-- `reconcile_mainnet_task_statuses`; a lookup that fails leaves its task as it is. -/
def reconcileMainnetTaskStatuses (sc : SettlementConfig) (replies : String → Option Dict)
    (now : Instant) (s : PoolState) : PoolState :=
  let asked := pendingMainnetStatusTasks sc s
  { s with
    tasks := s.tasks.mapRows fun poolTaskId row =>
      if poolTaskId ∈ asked ∧ row.mainnetTaskId ≠ "" then
        match replies row.mainnetTaskId with
        | none => row
        | some payload => applyMainnetTaskStatus sc payload now row
      else row }

/-! ## Runs -/

/-- The tasks whose reveal the node has taken, those that it has closed, and its blocks, the oldest
first. -/
structure MainNode where
  revealed : List String
  closed : List String
  blocks : List Dict

/-- The pool and its node. -/
structure Settlement where
  pool : PoolState
  node : MainNode

/-- The blocks that `_fetch_recent_mainnet_blocks` looks up. -/
def MainNode.recent (sc : SettlementConfig) (node : MainNode) : List Dict :=
  node.blocks.reverse.take sc.settlementBlockLimit

/-- The block can be added: its height is new, and its task is open and has no block. -/
def MainNode.admits (sc : SettlementConfig) (node : MainNode) (block : Dict) : Bool :=
  blockTaskId sc block ∉ node.closed &&
    node.blocks.all fun other =>
      blockTaskId sc other ≠ blockTaskId sc block && blockHeight sc other ≠ blockHeight sc block

/-- A task of the pool is being finalized. -/
def finalizingTask (s : PoolState) (taskId : String) : Bool :=
  s.finalizing.any fun poolTaskId =>
    (s.tasks.find? poolTaskId).any fun row => row.mainnetTaskId = taskId

/-- A step of the pool or of its node. `reveal` is the reveal of a task taking effect. -/
inductive SettleEvent where
  | beginFinalize (poolTaskId : String)
  | reveal (taskId : String)
  | endFinalize (poolTaskId : String) (reply : FinalizeReply) (now : Instant)
  | addBlock (block : Dict)
  | closeTask (taskId : String)
  | reconcileWonBlocks (answered : Bool) (now : Instant)
  | reconcileMainnetTaskStatuses (replies : String → Option Dict) (now : Instant)

def settleStep (sc : SettlementConfig) (s : Settlement) : SettleEvent → Settlement
  | .beginFinalize poolTaskId => { s with pool := beginFinalize s.pool poolTaskId }
  | .reveal taskId =>
    if finalizingTask s.pool taskId then
      { s with node := { s.node with revealed := taskId :: s.node.revealed } }
    else s
  | .endFinalize poolTaskId reply now =>
    { s with pool := endFinalize s.pool poolTaskId (finalizeResult reply) now }
  | .addBlock block =>
    if s.node.admits sc block then
      { s with node := { s.node with blocks := s.node.blocks ++ [block] } }
    else s
  | .closeTask taskId =>
    if s.node.blocks.all fun block => blockTaskId sc block ≠ taskId then
      { s with node := { s.node with closed := taskId :: s.node.closed } }
    else s
  | .reconcileWonBlocks answered now =>
    { s with
      pool := reconcileWonBlocks sc (if answered then some (s.node.recent sc) else none) now
        s.pool }
  | .reconcileMainnetTaskStatuses replies now =>
    { s with pool := reconcileMainnetTaskStatuses sc replies now s.pool }

end Picoin.Pool
