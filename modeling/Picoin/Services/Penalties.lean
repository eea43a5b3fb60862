import Picoin.Services.CommitReveal

/-!
# The penalties of miners

A refused reveal costs the miner that it names penalty points: they lower its trust score, and
enough of them put it into a cooldown. `CommitReveal` says what a reveal does to the tables of
mining; here is what it does to the miner's standing.

What is only recorded about a submission is left out, and so is the forced cooldown, which no
reveal asks for.
-/

namespace Picoin

open Decimal Outcome Run

variable {σ : Type}

def penaltyInvalidResult : ℤ := 1
def penaltyDuplicate : ℤ := 3
def penaltyInvalidSignature : ℤ := 5
def cooldownAfterRejections : ℤ := 3
def cooldownSeconds : ℤ := 5 * 60

/-- A row of `penalties`. -/
structure PenaltyRow where
  minerId : String
  taskId : String
  points : ℤ
  reason : String
deriving DecidableEq

/-- The columns `trust_score` and `cooldown_until` of a row of `miners`. -/
structure MinerStanding where
  trustScore : Dec
  cooldownUntil : Option String
deriving DecidableEq

/-- The tables of mining with the penalties, and the standing of the miners under their ids. -/
structure PenalizingNode (σ : Type) where
  state : MiningState σ
  penalties : List PenaltyRow
  standings : Sql.Table String MinerStanding

/-! ## Penalties -/

/-- `SELECT COALESCE(SUM(points), 0) FROM penalties WHERE miner_id = ?`. -/
def penaltyPoints (penalties : List PenaltyRow) (minerId : String) : ℤ :=
  ((penalties.filter fun row => row.minerId = minerId).map PenaltyRow.points).sum

/-- `_refresh_trust_score`. -/
def refreshTrustScore (n : PenalizingNode σ) (minerId : String) : PenalizingNode σ :=
  let accepted := n.state.blocks.countP fun block => block.minerId = minerId
  let denominator := (accepted : ℤ) + penaltyPoints n.penalties minerId
  let trustScore : Dec :=
    if denominator = 0 then ⟨1, 0⟩
    else ⟨Decimal.roundHalfEven (accepted * 10 ^ 4) denominator.toNat, 4⟩
  { n with standings := n.standings.modify minerId fun row => { row with trustScore } }

/-- The miner has been penalized for the reason on the task. -/
def penalized (penalties : List PenaltyRow) (minerId taskId reason : String) : Bool :=
  penalties.any fun row => row.minerId = minerId && row.taskId = taskId && row.reason = reason

/-- `_apply_penalty`: a miner is penalized once for a reason on a task. -/
def applyPenalty (now : Instant) (n : PenalizingNode σ) (minerId taskId : String) (points : ℤ)
    (reason : String) : PenalizingNode σ :=
  if penalized n.penalties minerId taskId reason then refreshTrustScore n minerId
  else
    let penalties := n.penalties ++ [⟨minerId, taskId, points, reason⟩]
    let cooldownUntil := isoformat (now + seconds cooldownSeconds)
    let standings :=
      if cooldownAfterRejections ≤ penaltyPoints penalties minerId then
        n.standings.modify minerId fun row => { row with cooldownUntil := some cooldownUntil }
      else n.standings
    refreshTrustScore { n with penalties, standings } minerId

/-! ## Refused reveals -/

/-- The points and the reason of a reveal that is refused by its task, its miner and its
commitment. -/
def refusalOf (tc : TaskConfig σ) (s : MiningState σ) (r : RevealRequest) (task : TaskRow)
    (miner : MinerRow) (commitment : CommitmentRow) : Except MiningError (Option (ℤ × String)) := do
  match ← revealDecision tc s r task miner commitment with
  | .answer | .stale _ | .validate _ => return none
  | .reject => return some (penaltyInvalidSignature, "invalid reveal signature")
  | .release =>
    if task.status ≠ .committed then return some (penaltyDuplicate, "task is not committed")
    else
      match snapshotFields tc.toMiningConfig s r.taskId with
      | none => return some (penaltyInvalidResult, "tx_snapshot_mismatch")
      | some snapshot =>
        if r.frozen ≠ expectedFields commitment snapshot then
          return some (penaltyInvalidResult, "invalid_tx_commitment")
        else
          return some (penaltyInvalidResult, "revealed samples do not match requested positions")

/-- The points and the reason of a reveal that is refused. -/
def revealRefusal (tc : TaskConfig σ) (now swept : Instant) (s : MiningState σ)
    (r : RevealRequest) : Except MiningError (Option (ℤ × String)) := do
  let s ← expireAssignedTasks tc now swept s
  match (s.tasks.find? r.taskId).filter fun task => task.minerId = r.minerId,
      s.commitments.find? r.taskId, s.miners.find? r.minerId with
  | some task, some commitment, some miner =>
    let revived ← reviveForReveal tc now s r.taskId task
    let s := revived.getD s
    let task := if revived.isSome then (s.tasks.find? r.taskId).getD task else task
    refusalOf tc s r task miner commitment
  | some _, some _, none => return some (penaltyInvalidSignature, "miner not found")
  | _, _, _ => return some (penaltyInvalidResult, "commitment not found")

/-- `reveal_task`, with the penalty of `_reject_in_connection` for a miner that is registered. -/
def revealTaskOnNode (tc : TaskConfig σ) (now swept : Instant) (n : PenalizingNode σ)
    (r : RevealRequest) : Except MiningError (PenalizingNode σ) := do
  let s ← revealTask tc now swept n.state r
  let refusal ← revealRefusal tc now swept n.state r
  match refusal, s.miners.find? r.minerId with
  | some (points, reason), some _ =>
    return applyPenalty now { n with state := s } r.minerId r.taskId points reason
  | _, _ => return { n with state := s }

/-! ## Requests -/

/-- The requests of miners. Their clean-up reads the time again when it has `swept`, and a commitment
once more. -/
inductive MinerCall where
  | commit (swept later : Instant) (r : CommitRequest)
  | reveal (swept : Instant) (r : RevealRequest)

/-- The signature that a request carries. -/
def MinerCall.signature : MinerCall → String
  | .commit _ _ r => r.signature
  | .reveal _ r => r.signature

/-- One request; a request that raises changes nothing. -/
def MinerCall.step (tc : TaskConfig σ) (n : PenalizingNode σ) (call : Instant × MinerCall) :
    PenalizingNode σ :=
  match call.2 with
  | .commit swept later r =>
    { n with state := attempt (commitTask tc call.1 swept later n.state r) n.state }
  | .reveal swept r => attempt (revealTaskOnNode tc call.1 swept n r) n

end Picoin
