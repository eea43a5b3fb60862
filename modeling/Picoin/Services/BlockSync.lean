import Mathlib.Data.List.Infix
import Picoin.Services.BlockReplay

/-!
# Catching up with a peer

A node that is behind asks a peer for the blocks above a height and stores what comes as headers. It
asks again from the highest block that it has seen, until the peer has no more, a target is reached,
or twenty rounds are over. The replay that follows is in `BlockReplay`. A node whose replay has gone
wrong in a way that no other branch repairs asks for nothing.

* **`getBlocksSince`** is the peer's side;
* **`ReplayGate`** is what the node finds before its first request;
* **`syncBlocksUntil`** is the node's side.
-/

namespace Picoin

open Json

variable {σ : Type}

/-! ## The peer -/

/-- `get_blocks_since`; the payload of a row is built from several tables of the peer. -/
def getBlocksSince (payload : ChainBlockRow → Value) (blocks : List ChainBlockRow)
    (fromHeight limit : ℤ) : Except ImportError (List Value) :=
  if fromHeight < 0 then .error (.network 422 "from_height must be >= 0")
  else
    let rows := (blocks.filter fun block => fromHeight < block.height).mergeSort
      fun a b => a.height ≤ b.height
    .ok ((rows.take limit.toNat).map payload)

/-- What a peer answers to a height and a limit; an error of the request ends the call. -/
abbrev PeerAnswer := ℤ → ℤ → Except ImportError (List Value)

/-! ## The start -/

def activeBaseHeight (n : ImportNode σ) : ℤ := n.base.elim 0 SnapshotBase.height

/-- `_local_effective_block_height`. -/
def localEffectiveBlockHeight (n : ImportNode σ) : ℤ :=
  max ((latestBlock n).elim 0 ChainBlockRow.height) (activeBaseHeight n)

/-- `_default_block_sync_start_height`, with the setting `RECONCILE_BLOCK_OVERLAP`. -/
def defaultBlockSyncStartHeight (overlap effectiveHeight baseHeight : ℤ) : ℤ :=
  if effectiveHeight ≤ baseHeight then effectiveHeight
  else max baseHeight (effectiveHeight - max 1 overlap)

/-- A call of `sync_blocks_until`. -/
structure SyncCall where
  targetHeight : Option ℤ
  fromHeight : Option ℤ
  limit : ℤ

/-- The height that a call starts above. -/
def syncStartHeight (overlap : ℤ) (n : ImportNode σ) (call : SyncCall) : ℤ :=
  match call.fromHeight with
  | none => defaultBlockSyncStartHeight overlap (localEffectiveBlockHeight n) (activeBaseHeight n)
  | some height => max height (activeBaseHeight n)

/-! ## The gate -/

/-- What a download reads of `get_replay_status`. -/
structure ReplayStatus where
  divergenceDetected : Bool
  syncStatus : String
  divergenceReason : Option String
  lastError : Option String

/-- The replay has gone wrong. -/
def ReplayStatus.divergent (status : ReplayStatus) : Bool :=
  status.divergenceDetected || status.syncStatus = "divergent"

/-- The reasons that another branch may repair. -/
def recoverableMarkers : List String :=
  ["previous_hash does not match local chain tip", "cannot import block before ancestors",
    "missing ancestor", "pending_missing_ancestors", "conflicting block at height", "competing tip",
    "block_hash does not match canonical payload"]

/-- `_replay_divergence_can_try_peer_reorg`. -/
def replayDivergenceCanTryPeerReorg (status : ReplayStatus) : Bool :=
  let reason := lower (textOr status.divergenceReason (textOr status.lastError ""))
  recoverableMarkers.any fun marker => marker.toList <:+: reason.toList

/-- The status of the replay, or what reading it raises; and the setting `AUTO_RECOVERY_ENABLED`
with what `recover_from_peer_snapshot` leaves and raises. -/
structure ReplayGate (σ : Type) where
  status : Except ImportError ReplayStatus
  autoRecovery : Bool
  recover : ImportNode σ → ImportNode σ × Option ImportError

/-- Only a snapshot repairs the replay. -/
def ReplayGate.restoreRequired (gate : ReplayGate σ) : Bool :=
  match gate.status with
  | .ok status => status.divergent && !replayDivergenceCanTryPeerReorg status
  | .error _ => false

/-- What the gate adds to the errors of a download that goes on. -/
def ReplayGate.notes (gate : ReplayGate σ) : List ImportError :=
  match gate.status with
  | .error error => [error]
  | .ok status =>
    if status.divergent then
      [.other "replay divergent; attempting peer block overlap before restore"]
    else []

/-! ## The rounds -/

/-- The node and the result between two rounds, with the errors of the blocks, those of the gate and
the blocks of the events `block_received` in `network_sync_events`. -/
structure SyncState (σ : Type) where
  node : ImportNode σ
  syncFromHeight : ℤ
  blocksSeen : ℕ := 0
  blocksImported : ℕ := 0
  errors : List (Value × ImportError) := []
  notes : List ImportError := []
  events : List Value := []

/-- One block of an answer; what it raises is noted. -/
def receiveSynced (ic : ImportConfig σ) (clock : ℕ → String) (s : SyncState σ) (block : Value) :
    SyncState σ :=
  let seen := { s with blocksSeen := s.blocksSeen + 1 }
  match receiveBlockHeader ic (clock s.blocksSeen) s.node block with
  | .ok node =>
    { seen with node, blocksImported := s.blocksImported + 1, events := s.events ++ [block] }
  | .error error => { seen with errors := s.errors ++ [(block, error)] }

/-- The limit of a request. -/
def requestLimit (call : SyncCall) (effectiveHeight syncFromHeight : ℤ) : ℤ :=
  let overlapPadding := max 0 (effectiveHeight - syncFromHeight)
  let requested := max 1 (min (call.limit + overlapPadding) 100)
  call.targetHeight.elim requested fun target => max 1 (min requested (target - syncFromHeight))

/-- The blocks of an answer with their heights, in the order of these. -/
def heightOrder (cc : Client.ClientConfig) (blocks : List Value) :
    Except Client.PyError (List (ℤ × Value)) := do
  let keyed ← blocks.mapM fun block => do return (← numberField cc block "height", block)
  return keyed.mergeSort fun a b => a.1 ≤ b.1

/-- Whether another round follows. -/
inductive SyncRound (σ : Type) where
  | stops (s : SyncState σ)
  | continues (s : SyncState σ)

/-- The blocks of an answer are received, and the next round starts above the highest of them. -/
def receiveAnswer (ic : ImportConfig σ) (clock : ℕ → String) (requested : ℤ) (s : SyncState σ)
    (blocks : List (ℤ × Value)) : SyncRound σ :=
  let received := blocks.foldl (fun s item => receiveSynced ic clock s item.2) s
  let maxSeenHeight := blocks.foldl (fun height item => max height item.1) s.syncFromHeight
  if blocks.isEmpty then .stops s
  else if maxSeenHeight ≤ s.syncFromHeight then .stops received
  else if blocks.length < requested then .stops { received with syncFromHeight := maxSeenHeight }
  else .continues { received with syncFromHeight := maxSeenHeight }

/-- One round. What it raises comes before its first block. -/
def syncRound (ic : ImportConfig σ) (clock : ℕ → String) (call : SyncCall) (effectiveHeight : ℤ)
    (answer : PeerAnswer) (s : SyncState σ) : Except ImportError (SyncRound σ) := do
  if call.targetHeight.any fun target => target ≤ s.syncFromHeight then return .stops s
  else
    let requested := requestLimit call effectiveHeight s.syncFromHeight
    let answered ← answer s.syncFromHeight requested
    let blocks ← python (heightOrder ic.toClientConfig answered)
    return receiveAnswer ic clock requested s blocks

/-- The loop, with the answers of the peer round by round. What ends it is returned beside the
state, since it does not undo the headers. -/
def syncRounds (ic : ImportConfig σ) (clock : ℕ → String) (call : SyncCall) (effectiveHeight : ℤ) :
    ℕ → (ℕ → PeerAnswer) → SyncState σ → SyncState σ × Option ImportError
  | 0, _, s => (s, none)
  | rounds + 1, peer, s =>
    match syncRound ic clock call effectiveHeight (peer 0) s with
    | .error error => (s, some error)
    | .ok (.stops s) => (s, none)
    | .ok (.continues s) =>
      syncRounds ic clock call effectiveHeight rounds (fun round => peer (round + 1)) s

def maxSyncRounds : ℕ := 20

/-- The download of `sync_blocks_until`. -/
def syncBlocksUntil (ic : ImportConfig σ) (clock : ℕ → String) (overlap : ℤ) (gate : ReplayGate σ)
    (call : SyncCall) (peer : ℕ → PeerAnswer) (n : ImportNode σ) :
    SyncState σ × Option ImportError :=
  let start : SyncState σ := { node := n, syncFromHeight := syncStartHeight overlap n call }
  let rounds := syncRounds ic clock call (localEffectiveBlockHeight n) maxSyncRounds peer
  if gate.restoreRequired then
    if gate.autoRecovery then
      match gate.recover n with
      | (node, none) => ({ start with node }, none)
      -- what the recovery raises is noted, and the download goes on
      | (node, some error) => rounds { start with node, notes := [error] }
    else (start, none)
  else rounds { start with notes := gate.notes }

end Picoin
