import Picoin.Lib.RankedMerge
import Picoin.Lib.Run
import Picoin.Services.TaskGossip

/-!
# Task gossip and the order of delivery

On the status of a task, an accepted message is a write to a ranked register
(`receiveTaskGossip_status`). Delivered twice, a message changes nothing the second time
(`redelivery_unchanged`), and the rank never decreases. But three statuses have one rank: of two
messages with different ones of them, the last to arrive wins (`gossipConverges_iff`).
-/

namespace Picoin

open Outcome RankedMerge Run

variable {gc : GossipConfig} {now : String} {s : TaskTables} {e : TaskEnvelope}
  {r : TaskGossipResult}

/-! ## What a message does -/

/-- The status of a task, if the node has its row. -/
def TaskTables.status (s : TaskTables) (taskId : String) : Option TaskStatus :=
  (s.tasks.find? taskId).map TaskRow.status

/-- The rank of a status; a task without a row is below all. -/
def statusRank (status : Option TaskStatus) : ℕ := (status.map TaskStatus.rank).getD 0

/-- The task that a message is about. -/
def TaskEnvelope.taskId (e : TaskEnvelope) : String := clean e.task.taskId

/-- The status that a message announces. -/
def TaskEnvelope.status (e : TaskEnvelope) : Option TaskStatus :=
  TaskStatus.parse (clean e.task.status)

/-- What the parts of `receive_task_gossip` before the comparison of ranks leave. -/
theorem ensureTaskRow_eq_ok {s' : TaskTables} {taskId minerId : String} {status : TaskStatus}
    {row : TaskRow} {inserted : Bool}
    (h : ensureTaskRow gc now s e taskId minerId status = .ok (s', row, inserted)) :
    s'.tasks.find? taskId = some row ∧ s'.commitments = s.commitments ∧
      s'.snapshots = s.snapshots ∧
      ((inserted = false ∧ s.tasks.find? taskId = some row ∧ s' = s) ∨
        (inserted = true ∧ s.tasks.find? taskId = none ∧ row.status = status)) := by
  unfold ensureTaskRow at h
  split at h
  · next row' hrow =>
    split at h
    · cases h
    · cases h
      exact ⟨hrow, rfl, rfl, .inl ⟨rfl, hrow, rfl⟩⟩
  · next hnone =>
    cases h
    exact ⟨Sql.Table.find?_upsert_self _ _ _, rfl, rfl, .inr ⟨rfl, hnone, rfl⟩⟩

/-- The snapshot that a message names. -/
def TaskEnvelope.snapshotId (e : TaskEnvelope) : String :=
  textOr (e.snapshot.bind SnapshotMessage.snapshotId) (textOr e.task.mempoolSnapshotId "")

/-- A returning upsert leaves the tasks and commitments; a snapshot that is named is there. -/
theorem upsertSnapshot_eq_ok {s' : TaskTables}
    (h : upsertTaskTxSnapshotFromGossip gc now s e.task e.snapshot = .ok s') :
    s'.tasks = s.tasks ∧ s'.miners = s.miners ∧ s'.commitments = s.commitments ∧
      s'.protocolParams = s.protocolParams ∧
      (e.snapshotId = "" ∨ (s'.snapshots.find? e.snapshotId).isSome ∨
        s'.snapshots.rows.any (fun row => row.2.taskId = e.task.taskId.getD "")) := by
  unfold upsertTaskTxSnapshotFromGossip at h
  dsimp only at h
  split at h
  · next hempty => cases h; exact ⟨rfl, rfl, rfl, rfl, .inl hempty⟩
  split at h
  · next hexists => cases h; exact ⟨rfl, rfl, rfl, rfl, .inr hexists⟩
  split at h
  · cases h
  · cases h
    exact ⟨rfl, rfl, rfl, rfl, .inr (.inl (by
      show ((s.snapshots.upsert e.snapshotId _).find? e.snapshotId).isSome = true
      rw [Sql.Table.find?_upsert_self]
      rfl))⟩

/-- A snapshot that is there is left alone. -/
theorem upsertSnapshot_of_exists (now : String)
    (h : e.snapshotId = "" ∨ (s.snapshots.find? e.snapshotId).isSome ∨
      s.snapshots.rows.any (fun row => row.2.taskId = e.task.taskId.getD "")) :
    upsertTaskTxSnapshotFromGossip gc now s e.task e.snapshot = .ok s := by
  unfold upsertTaskTxSnapshotFromGossip
  dsimp only
  by_cases hempty : e.snapshotId = ""
  · exact if_pos hempty
  · refine (if_neg hempty).trans (if_pos ?_)
    exact h.resolve_left hempty

theorem receiveCommitment_eq_ok {s' : TaskTables} {taskId minerId : String}
    {c : Option CommitmentMessage} {inserted : Bool}
    (h : receiveCommitment gc now s e.task taskId minerId c = .ok (s', inserted)) :
    s'.tasks = s.tasks ∧ s'.snapshots = s.snapshots ∧
      (c = none ∨ (s'.commitments.find? taskId).isSome) := by
  unfold receiveCommitment at h
  split at h
  · cases h; exact ⟨rfl, rfl, .inl rfl⟩
  split at h
  · cases h
  split at h
  · next row hrow =>
    split at h
    · cases h
    · cases h
      exact ⟨rfl, rfl, .inr (by rw [hrow]; rfl)⟩
  · split at h
    · cases h
      exact ⟨rfl, rfl, .inr (by rw [Sql.Table.find?_upsert_self]; rfl)⟩
    · cases h

/-- Where the commitment is there, it is checked and left alone. -/
theorem receiveCommitment_of_exists {taskId minerId : String} {c : Option CommitmentMessage}
    {p : TaskTables × Bool} (h : c = none ∨ (s.commitments.find? taskId).isSome)
    (hreceive : receiveCommitment gc now s e.task taskId minerId c = .ok p) : p = (s, false) := by
  unfold receiveCommitment at hreceive
  split at hreceive
  · exact (Except.ok.inj hreceive).symm
  split at hreceive
  · cases hreceive
  split at hreceive
  · split at hreceive
    · cases hreceive
    · exact (Except.ok.inj hreceive).symm
  · next c' _ _ _ hnone =>
    rw [hnone] at h
    rcases h with h | h <;> exact nomatch h

/-- A returning message has passed its checks; its parts ran one after the other. -/
theorem receiveTaskGossip_eq_ok (h : receiveTaskGossip gc now s e = .ok r) :
    ∃ status, e.status = some status ∧ ∃ s₁ row inserted,
      ensureTaskRow gc now s e e.taskId (clean e.task.minerId) status = .ok (s₁, row, inserted) ∧
      ∃ s₂, upsertTaskTxSnapshotFromGossip gc now s₁ e.task e.snapshot = .ok s₂ ∧
      ∃ s₃ commitmentInserted, receiveCommitment gc now s₂ e.task e.taskId (clean e.task.minerId)
          e.commitment = .ok (s₃, commitmentInserted) ∧
        r = mergeTask gc s₃ e.task e.taskId status row inserted commitmentInserted := by
  unfold receiveTaskGossip at h
  dsimp only at h
  split at h
  · cases h
  split at h
  · cases h
  next status hstatus =>
  obtain ⟨⟨s₁, row, inserted⟩, hensure, h⟩ := bind_eq_ok.mp h
  obtain ⟨s₂, hsnapshot, h⟩ := bind_eq_ok.mp h
  obtain ⟨⟨s₃, commitmentInserted⟩, hcommitment, h⟩ := bind_eq_ok.mp h
  exact ⟨status, hstatus, s₁, row, inserted, hensure, s₂, hsnapshot, s₃, commitmentInserted,
    hcommitment, (Except.ok.inj h).symm⟩

/-! ## The status is a ranked register -/

theorem statusRank_some (status : TaskStatus) : statusRank (some status) = status.rank := rfl

/-- After a message the register holds the announced status, unless the old rank was higher. -/
theorem receiveTaskGossip_status (h : receiveTaskGossip gc now s e = .ok r) :
    r.tables.status e.taskId = write statusRank (s.status e.taskId) e.status := by
  obtain ⟨status, hstatus, s₁, row, inserted, hensure, s₂, hsnapshot, s₃, committed, hcommitment,
    rfl⟩ := receiveTaskGossip_eq_ok h
  obtain ⟨hrow, -, -, hcases⟩ := ensureTaskRow_eq_ok hensure
  have htasks : s₃.tasks = s₁.tasks :=
    (receiveCommitment_eq_ok hcommitment).1.trans (upsertSnapshot_eq_ok hsnapshot).1
  have hafter : (mergeTask gc s₃ e.task e.taskId status row inserted committed).tables.status
      e.taskId = some (if row.status.rank ≤ status.rank then status else row.status) := by
    unfold mergeTask
    split
    · next happlied =>
      have hle : row.status.rank ≤ status.rank := by omega
      dsimp only [TaskTables.status]
      rw [if_pos hle, Sql.Table.find?_modify, if_pos rfl, htasks, hrow]
      rfl
    · next hkept =>
      dsimp only [TaskTables.status]
      rw [htasks, hrow, Option.map_some]
      split
      · next hle =>
        -- the ranks are equal and nothing changed, the status included
        have heq : status.rank = row.status.rank := by omega
        have hunchanged : taskChanged gc inserted e.task status row = false := by
          by_contra hchanged
          exact hkept (.inr ⟨heq, by simp [Bool.eq_true_of_not_eq_false hchanged]⟩)
        have hsame : status = row.status := by
          by_contra hne
          simp [taskChanged, hne] at hunchanged
        rw [hsame]
      · rfl
  rw [hafter, hstatus]
  unfold write TaskTables.status
  rcases hcases with ⟨-, hold, -⟩ | ⟨-, hold, hnew⟩
  · rw [hold, Option.map_some, statusRank_some, statusRank_some]
    split <;> rfl
  · rw [hold, Option.map_none, hnew, if_pos le_rfl,
      if_pos (show statusRank none ≤ _ from Nat.zero_le _)]

/-! ## Delivering a message twice -/

theorem merge_merge (gc : GossipConfig) (task : TaskMessage) (status : TaskStatus) (row : TaskRow) :
    TaskRow.merge gc task status (TaskRow.merge gc task status row) =
      TaskRow.merge gc task status row := by
  unfold TaskRow.merge
  cases task.computeMs <;> cases task.mempoolSnapshotId <;> cases task.txMerkleRoot <;>
    cases task.txCount <;> cases task.txFeeTotalUnits <;> cases task.selectedTxHashesHash <;> rfl

/-- The row that the comparison of ranks leaves under the task's id. -/
theorem mergeTask_row {taskId : String} {task : TaskMessage} {status : TaskStatus} {row : TaskRow}
    {inserted committed : Bool} (hrow : s.tasks.find? taskId = some row) :
    (row.status.rank < status.rank ∨ (status.rank = row.status.rank ∧
        (taskChanged gc inserted task status row || committed))) ∧
        (mergeTask gc s task taskId status row inserted committed).tables.tasks.find? taskId =
          some (TaskRow.merge gc task status row) ∨
      ¬(row.status.rank < status.rank ∨ (status.rank = row.status.rank ∧
        (taskChanged gc inserted task status row || committed))) ∧
        (mergeTask gc s task taskId status row inserted committed).tables = s := by
  unfold mergeTask
  split
  · next happlied =>
    refine .inl ⟨happlied, ?_⟩
    dsimp only
    rw [Sql.Table.find?_modify, if_pos rfl, hrow]
    rfl
  · next hkept => exact .inr ⟨hkept, rfl⟩

theorem mergeTask_other {taskId : String} {task : TaskMessage} {status : TaskStatus}
    {row : TaskRow} {inserted committed : Bool} :
    (mergeTask gc s task taskId status row inserted committed).tables.snapshots = s.snapshots ∧
      (mergeTask gc s task taskId status row inserted committed).tables.commitments =
        s.commitments := by
  unfold mergeTask
  split <;> exact ⟨rfl, rfl⟩

/-- Delivered a second time, a message changes nothing: it raises, or leaves all tables. -/
theorem redelivery_unchanged (h : receiveTaskGossip gc now s e = .ok r) (now' : String)
    {r' : TaskGossipResult} (h' : receiveTaskGossip gc now' r.tables e = .ok r') :
    r'.tables = r.tables := by
  obtain ⟨status, hstatus, s₁, row, inserted, hensure, s₂, hsnapshot, s₃, committed, hcommitment,
    rfl⟩ := receiveTaskGossip_eq_ok h
  obtain ⟨hrow, -, -, -⟩ := ensureTaskRow_eq_ok hensure
  obtain ⟨htasks₂, -, -, -, hsnapshots⟩ := upsertSnapshot_eq_ok hsnapshot
  obtain ⟨htasks₃, hsnapshots₃, hcommitments⟩ := receiveCommitment_eq_ok hcommitment
  have hrow₃ : s₃.tasks.find? e.taskId = some row := by rw [htasks₃, htasks₂, hrow]
  set final := (mergeTask gc s₃ e.task e.taskId status row inserted committed).tables with hfinal
  obtain ⟨status', hstatus', s₁', row', inserted', hensure', s₂', hsnapshot', s₃', committed',
    hcommitment', rfl⟩ := receiveTaskGossip_eq_ok h'
  obtain rfl : status = status' := Option.some.inj (hstatus.symm.trans hstatus')
  obtain ⟨-, -, -, hcases⟩ := ensureTaskRow_eq_ok hensure'
  have hexists : ∃ finalRow, final.tasks.find? e.taskId = some finalRow := by
    rcases @mergeTask_row gc s₃ e.taskId e.task status row inserted committed hrow₃ with
      ⟨-, hmerged⟩ | ⟨-, hkept⟩
    · exact ⟨_, hmerged⟩
    · rw [hfinal, hkept]
      exact ⟨_, hrow₃⟩
  -- the task is known, its snapshot and commitment are there
  rcases hcases with ⟨rfl, hrow', rfl⟩ | ⟨-, hnone, -⟩
  swap
  · obtain ⟨finalRow, hfind⟩ := hexists
    rw [hfind] at hnone
    exact nomatch hnone
  have hother := @mergeTask_other gc s₃ e.taskId e.task status row inserted committed
  have hsame₂ : upsertTaskTxSnapshotFromGossip gc now' final e.task e.snapshot = .ok final := by
    apply upsertSnapshot_of_exists
    rw [hfinal, hother.1, hsnapshots₃]
    exact hsnapshots
  rw [hsame₂] at hsnapshot'
  obtain rfl := Except.ok.inj hsnapshot'
  have hsame₃ := receiveCommitment_of_exists (by
    rw [hfinal, hother.2]
    exact hcommitments) hcommitment'
  rw [Prod.mk.injEq] at hsame₃
  obtain ⟨rfl, rfl⟩ := hsame₃
  rcases @mergeTask_row gc s₃ e.taskId e.task status row inserted committed hrow₃ with
    ⟨-, hmerged⟩ | ⟨hkept, hsame⟩
  · -- the row is what the message makes of it
    obtain rfl : TaskRow.merge gc e.task status row = row' :=
      Option.some.inj (hmerged.symm.trans hrow')
    unfold mergeTask
    split
    · rw [Sql.Table.modify_eq_self]
      intro x hx
      rw [hrow'] at hx
      rw [← Option.some.inj hx]
      exact merge_merge gc e.task status row
    · rfl
  · -- nothing has changed since the first delivery
    obtain rfl : row = row' := by
      rw [hfinal, hsame, hrow₃] at hrow'
      exact Option.some.inj hrow'
    have hidle : ¬(row.status.rank < status.rank ∨ (status.rank = row.status.rank ∧
        (taskChanged gc false e.task status row || false))) := by
      intro happlied
      refine hkept (happlied.imp_right fun h => ⟨h.1, ?_⟩)
      have hchanged := h.2
      rw [Bool.or_false] at hchanged
      have hmono : taskChanged gc inserted e.task status row = true := by
        unfold taskChanged at hchanged ⊢
        cases inserted
        · exact hchanged
        · simp
      rw [hmono]
      rfl
    unfold mergeTask
    rw [if_neg hidle]

/-! ## Two messages about one task -/

/-- Two messages about one task that the node accepts in either order. -/
structure BothOrders (gc : GossipConfig) (s : TaskTables) (e₁ e₂ : TaskEnvelope) where
  now₁ : String
  now₂ : String
  first : TaskGossipResult
  second : TaskGossipResult
  firstSecond : TaskGossipResult
  secondFirst : TaskGossipResult
  sameTask : e₁.taskId = e₂.taskId
  first_eq : receiveTaskGossip gc now₁ s e₁ = .ok first
  second_eq : receiveTaskGossip gc now₂ s e₂ = .ok second
  firstSecond_eq : receiveTaskGossip gc now₂ first.tables e₂ = .ok firstSecond
  secondFirst_eq : receiveTaskGossip gc now₁ second.tables e₁ = .ok secondFirst

/-- Any number of further deliveries of the message leaves the tables. -/
def RedeliveryIdle (gc : GossipConfig) (s : TaskTables) (e : TaskEnvelope) : Prop :=
  ∀ now r, receiveTaskGossip gc now s e = .ok r → r.tables = s

/-- Task gossip converges on the two messages. -/
structure GossipConverges {gc : GossipConfig} {s : TaskTables} {e₁ e₂ : TaskEnvelope}
    (d : BothOrders gc s e₁ e₂) : Prop where
  /-- The order of delivery does not matter for the status. -/
  sameStatus : d.firstSecond.tables.status e₁.taskId = d.secondFirst.tables.status e₁.taskId
  /-- A second delivery changes nothing. -/
  idle : RedeliveryIdle gc d.first.tables e₁ ∧ RedeliveryIdle gc d.second.tables e₂ ∧
    RedeliveryIdle gc d.firstSecond.tables e₂ ∧ RedeliveryIdle gc d.secondFirst.tables e₁
  /-- Nor does it change the status after the other message. -/
  statusIdle :
    (∀ now r, receiveTaskGossip gc now d.firstSecond.tables e₁ = .ok r →
      r.tables.status e₁.taskId = d.firstSecond.tables.status e₁.taskId) ∧
    ∀ now r, receiveTaskGossip gc now d.secondFirst.tables e₂ = .ok r →
      r.tables.status e₁.taskId = d.secondFirst.tables.status e₁.taskId
  /-- The rank never decreases. -/
  monotone : statusRank (s.status e₁.taskId) ≤ statusRank (d.first.tables.status e₁.taskId) ∧
    statusRank (s.status e₁.taskId) ≤ statusRank (d.second.tables.status e₁.taskId) ∧
    statusRank (d.first.tables.status e₁.taskId) ≤
      statusRank (d.firstSecond.tables.status e₁.taskId) ∧
    statusRank (d.second.tables.status e₁.taskId) ≤
      statusRank (d.secondFirst.tables.status e₁.taskId)

/-- The messages announce two different statuses of one rank, and the task is not beyond it. -/
def TerminalConflict (s : TaskTables) (e₁ e₂ : TaskEnvelope) : Prop :=
  statusRank e₁.status = statusRank e₂.status ∧
    statusRank (s.status e₁.taskId) ≤ statusRank e₁.status ∧ e₁.status ≠ e₂.status

/-- **Convergence of task gossip.** It converges unless the messages announce two different ones of
the statuses of one rank to a task that is not beyond that rank. -/
theorem gossipConverges_iff {gc : GossipConfig} {s : TaskTables} {e₁ e₂ : TaskEnvelope}
    (d : BothOrders gc s e₁ e₂) : GossipConverges d ↔ ¬TerminalConflict s e₁ e₂ := by
  have hfirst := receiveTaskGossip_status d.first_eq
  have hsecond := receiveTaskGossip_status d.second_eq
  have hfirstSecond := receiveTaskGossip_status d.firstSecond_eq
  have hsecondFirst := receiveTaskGossip_status d.secondFirst_eq
  rw [← d.sameTask] at hsecond hfirstSecond
  rw [hfirst] at hfirstSecond
  rw [hsecond] at hsecondFirst
  have hsame : d.firstSecond.tables.status e₁.taskId = d.secondFirst.tables.status e₁.taskId ↔
      ¬TerminalConflict s e₁ e₂ := by
    rw [hfirstSecond, hsecondFirst]
    exact write_comm_iff statusRank _ _ _
  refine ⟨fun h => hsame.mp h.sameStatus, fun h => ⟨hsame.mpr h, ?_, ?_, ?_⟩⟩
  · exact ⟨fun now r => redelivery_unchanged d.first_eq now,
      fun now r => redelivery_unchanged d.second_eq now,
      fun now r => redelivery_unchanged d.firstSecond_eq now,
      fun now r => redelivery_unchanged d.secondFirst_eq now⟩
  · have hcommute := hsame.mpr h
    refine ⟨fun now r hr => ?_, fun now r hr => ?_⟩
    · rw [receiveTaskGossip_status hr, hcommute, hsecondFirst, write_write]
    · have hstatus := receiveTaskGossip_status hr
      rw [← d.sameTask] at hstatus
      rw [hstatus, ← hcommute, hfirstSecond, write_write]
  · rw [hfirst, hsecond, hfirstSecond, hsecondFirst]
    exact ⟨le_rank_write statusRank _ _, le_rank_write statusRank _ _,
      le_rank_write statusRank _ _, le_rank_write statusRank _ _⟩

/-! ## A task that one peer calls expired and another rejected -/

/-- The settings of a node that receives no commitments and no texts of hashes. -/
def localGossip : GossipConfig where
  networkId := "local"
  chainId := .text "picoin-local-testnet"
  verifyPayloadSignature _ _ _ := false
  jsonLoads _ := none

/-- A task of ten digits that has been revealed. -/
def revealedTask : TaskRow where
  minerId := "miner_1"
  rangeStart := 1
  rangeEnd := 10
  algorithm := "bbp_hex_v1"
  status := .revealed
  assignmentSeed := none
  assignmentMode := none
  competitiveRoundHeight := none
  competitiveRoundPreviousHash := none
  assignmentMs := none
  computeMs := none
  protocolParamsId := none
  createdAt := "2026-01-01T00:00:00+00:00"
  expiresAt := none
  submittedAt := none
  staleAt := none
  staleReason := none
  mempoolSnapshotId := none
  selectedTxHashes := "[]"
  txMerkleRoot := ""
  txCount := 0
  txFeeTotalUnits := 0
  selectedTxHashesHash := none

def revealedTaskNode : TaskTables where
  tasks := Sql.Table.empty.upsert "task_1" revealedTask
  miners := .empty
  commitments := .empty
  snapshots := .empty
  protocolParams := .empty

/-- A message about the task that announces a status. -/
def announce (status : String) : TaskEnvelope :=
  { task := { taskId := some "task_1", minerId := some "miner_1", status := some status } }

/-- Both orders of two announcements that the node accepts. -/
theorem exists_bothOrders {a b : String}
    (h : returns (receiveTaskGossip localGossip "" revealedTaskNode (announce a)) (fun r =>
        returns (receiveTaskGossip localGossip "" r.tables (announce b)) fun _ => true) = true)
    (h' : returns (receiveTaskGossip localGossip "" revealedTaskNode (announce b)) (fun r =>
        returns (receiveTaskGossip localGossip "" r.tables (announce a)) fun _ => true) = true) :
    Nonempty (BothOrders localGossip revealedTaskNode (announce a) (announce b)) := by
  obtain ⟨first, hfirst, hnext⟩ := exists_of_returns h
  obtain ⟨firstSecond, hfirstSecond, -⟩ := exists_of_returns hnext
  obtain ⟨second, hsecond, hnext'⟩ := exists_of_returns h'
  obtain ⟨secondFirst, hsecondFirst, -⟩ := exists_of_returns hnext'
  exact ⟨⟨"", "", first, second, firstSecond, secondFirst, rfl, hfirst, hsecond, hfirstSecond,
    hsecondFirst⟩⟩

/-- The node accepts `expired` and `rejected` in either order, and the last one stays. -/
theorem expired_rejected_diverge :
    ∃ d : BothOrders localGossip revealedTaskNode (announce "expired") (announce "rejected"),
      d.firstSecond.tables.status "task_1" = some .rejected ∧
        d.secondFirst.tables.status "task_1" = some .expired ∧ ¬GossipConverges d := by
  obtain ⟨d⟩ := exists_bothOrders (a := "expired") (b := "rejected") (by decide +kernel)
    (by decide +kernel)
  have hold : revealedTaskNode.status "task_1" = some .revealed := by decide +kernel
  have hid : ∀ status, (announce status).taskId = "task_1" := by
    intro status
    show clean (some "task_1") = "task_1"
    decide +kernel
  have hexpired : (announce "expired").status = some .expired := by decide +kernel
  have hrejected : (announce "rejected").status = some .rejected := by decide +kernel
  have hfirst := receiveTaskGossip_status d.first_eq
  have hsecond := receiveTaskGossip_status d.second_eq
  have hfirstSecond := receiveTaskGossip_status d.firstSecond_eq
  have hsecondFirst := receiveTaskGossip_status d.secondFirst_eq
  rw [hid, hold, hexpired] at hfirst
  rw [hid, hold, hrejected] at hsecond
  rw [hid, hfirst, hrejected] at hfirstSecond
  rw [hid, hsecond, hexpired] at hsecondFirst
  refine ⟨d, hfirstSecond, hsecondFirst, fun h => ?_⟩
  have hsame := h.sameStatus
  rw [hid, hfirstSecond, hsecondFirst] at hsame
  exact absurd hsame (by decide)

/-- Messages about two steps of a task converge. -/
theorem committed_revealed_converge :
    ∃ d : BothOrders localGossip revealedTaskNode (announce "committed") (announce "accepted"),
      GossipConverges d := by
  obtain ⟨d⟩ := exists_bothOrders (a := "committed") (b := "accepted") (by decide +kernel)
    (by decide +kernel)
  refine ⟨d, (gossipConverges_iff d).mpr fun hconflict => ?_⟩
  have hcommitted : (announce "committed").status = some .committed := by decide +kernel
  have haccepted : (announce "accepted").status = some .accepted := by decide +kernel
  have hrank := hconflict.1
  rw [hcommitted, haccepted] at hrank
  exact absurd hrank (by decide)

end Picoin
