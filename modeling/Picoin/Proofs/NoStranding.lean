import Picoin.Lib.JsonText
import Picoin.Proofs.VotePaths
import Picoin.Services.CommitReveal
import Picoin.Services.LocalMining

/-!
# Selected transactions

A transaction that is selected belongs to a task that is being worked on, so that the end of the
task gives it back, or a block confirms it.

* **`Held`** — the task of a selected transaction, with the transaction in its snapshot;
* **`NoStranding`** — every selected transaction is held, and the tasks of blocks are settled;
* **`selected_held`** — this through every run, unless a rejection is completed for a task with
  selected transactions, or the time of a task runs out while its commitment is checked;
* **`rejection_strands`** — a quorum of rejections leaves a transaction selected.
-/

namespace Picoin

open Outcome Run

variable {σ : Type}

/-! ## The invariant -/

/-- A task that a block, a vote or a signature has ended. -/
def TaskStatus.settled (status : TaskStatus) : Prop := status = .accepted ∨ status = .rejected

/-- The snapshot that was frozen for the task itself. -/
def ownSnapshot (s : MiningState σ) (taskId : String) : Option TaskTxSnapshotRow :=
  (s.snapshots.rows.find? fun r => r.2.taskId = taskId).map Prod.snd

/-- The transaction is selected for an active task, and frozen in the task's own snapshot. -/
structure HeldBy (mc : MiningConfig) (s : MiningState σ) (txHash taskId : String) : Prop where
  active : ∃ task, s.tasks.find? taskId = some task ∧ task.status.active = true
  frozen : ∃ snapshot txHashes, ownSnapshot s taskId = some snapshot ∧
    mc.jsonLoads snapshot.txHashesJson = some txHashes ∧ txHash ∈ txHashes

def Held (mc : MiningConfig) (s : MiningState σ) (txHash : String) (row : SelectableRow) : Prop :=
  ∃ taskId, row.selectedTaskId = some taskId ∧ HeldBy mc s txHash taskId

structure NoStranding (mc : MiningConfig) (s : MiningState σ) : Prop where
  held : ∀ txHash row, s.mempool.find? txHash = some row → row.status = .selected →
    Held mc s txHash row
  built : ∀ b ∈ s.blocks, ∃ task, s.tasks.find? b.taskId = some task ∧ task.status.settled

/-- A transaction is selected for the task. -/
def HasSelected (s : MiningState σ) (taskId : String) : Prop :=
  ∃ txHash row, s.mempool.find? txHash = some row ∧ row.selectedFor taskId = true

/-- A settled task is not active. -/
theorem not_active_of_settled {status : TaskStatus} (h : status.settled) :
    status.active = false := by
  rcases h with h | h <;> rw [h] <;> rfl

/-- A row is selected for the task that it names, while its status says so. -/
theorem selectedFor_iff {row : SelectableRow} {taskId : String} :
    row.selectedFor taskId = true ↔ row.selectedTaskId = some taskId ∧ row.status = .selected := by
  unfold SelectableRow.selectedFor
  rw [Bool.and_eq_true, decide_eq_true_eq, decide_eq_true_eq]

/-- A selected row of a settled task, or of none, does not exist. -/
theorem NoStranding.not_hasSelected {mc : MiningConfig} {s : MiningState σ} (h : NoStranding mc s)
    {taskId : String}
    (htask : ∀ task, s.tasks.find? taskId = some task → task.status.active = false) :
    ¬HasSelected s taskId := by
  rintro ⟨txHash, row, hrow, hselected⟩
  obtain ⟨hfor, hstatus⟩ := selectedFor_iff.mp hselected
  obtain ⟨holder, hholder, hheld⟩ := h.held txHash row hrow hstatus
  obtain ⟨task, hfind, hactive⟩ := hheld.active
  rw [hfor] at hholder
  cases hholder
  rw [htask task hfind] at hactive
  cases hactive

/-! ## Steps that keep it -/

/-- What a step that leaves the selected rows of one task behind, if there are any, does. -/
structure Leaves (s s' : MiningState σ) (taskId : String) : Prop where
  others : ∀ id, id ≠ taskId → s'.tasks.find? id = s.tasks.find? id
  settled : ∀ task, s.tasks.find? taskId = some task → task.status.settled →
    ∃ task', s'.tasks.find? taskId = some task' ∧ task'.status.settled
  selected : ∀ txHash row, s'.mempool.find? txHash = some row → row.status = .selected →
    s.mempool.find? txHash = some row ∧ row.selectedTaskId ≠ some taskId
  snapshots : s'.snapshots = s.snapshots
  blocks : s'.blocks = s.blocks

/-- It survives a step that leaves one task and its transactions. -/
theorem NoStranding.leave {mc : MiningConfig} {s s' : MiningState σ} {taskId : String}
    (h : NoStranding mc s) (hleaves : Leaves s s' taskId) : NoStranding mc s' := by
  constructor
  · intro txHash row hrow hstatus
    obtain ⟨hold, hne⟩ := hleaves.selected txHash row hrow hstatus
    obtain ⟨holder, hholder, hheld⟩ := h.held txHash row hold hstatus
    have hother : holder ≠ taskId := by
      intro heq
      rw [hholder, heq] at hne
      exact hne rfl
    refine ⟨holder, hholder, ?_, ?_⟩
    · rw [hleaves.others holder hother]
      exact hheld.active
    · unfold ownSnapshot
      rw [hleaves.snapshots]
      exact hheld.frozen
  · intro b hb
    rw [hleaves.blocks] at hb
    obtain ⟨task, hfind, hsettled⟩ := h.built b hb
    by_cases heq : b.taskId = taskId
    · rw [heq] at hfind ⊢
      exact hleaves.settled task hfind hsettled
    · rw [hleaves.others b.taskId heq]
      exact ⟨task, hfind, hsettled⟩

/-- What a step that keeps the task of every selected row active does. -/
structure Stays (s s' : MiningState σ) : Prop where
  active : ∀ id task, s.tasks.find? id = some task → task.status.active = true →
    ∃ task', s'.tasks.find? id = some task' ∧ task'.status.active = true
  settled : ∀ id task, s.tasks.find? id = some task → task.status.settled →
    ∃ task', s'.tasks.find? id = some task' ∧ task'.status.settled
  selected : ∀ txHash row, s'.mempool.find? txHash = some row → row.status = .selected →
    s.mempool.find? txHash = some row
  snapshots : s'.snapshots = s.snapshots
  blocks : s'.blocks = s.blocks

/-- It survives a step that touches no task and no selection. -/
theorem NoStranding.stay {mc : MiningConfig} {s s' : MiningState σ} (h : NoStranding mc s)
    (hstays : Stays s s') : NoStranding mc s' := by
  constructor
  · intro txHash row hrow hstatus
    obtain ⟨holder, hholder, hheld⟩ :=
      h.held txHash row (hstays.selected txHash row hrow hstatus) hstatus
    obtain ⟨task, hfind, hactive⟩ := hheld.active
    refine ⟨holder, hholder, hstays.active holder task hfind hactive, ?_⟩
    unfold ownSnapshot
    rw [hstays.snapshots]
    exact hheld.frozen
  · intro b hb
    rw [hstays.blocks] at hb
    obtain ⟨task, hfind, hsettled⟩ := h.built b hb
    exact hstays.settled b.taskId task hfind hsettled

/-- The tasks, the transactions, the snapshots and the blocks are all that matters. -/
theorem NoStranding.congr {mc : MiningConfig} {s s' : MiningState σ} (h : NoStranding mc s)
    (htasks : s'.tasks = s.tasks) (hmempool : s'.mempool = s.mempool)
    (hsnapshots : s'.snapshots = s.snapshots) (hblocks : s'.blocks = s.blocks) :
    NoStranding mc s' := by
  refine h.stay ⟨fun id task hfind hactive => ?_, fun id task hfind hsettled => ?_,
    fun txHash row hrow _ => ?_, hsnapshots, hblocks⟩
  · rw [htasks]
    exact ⟨task, hfind, hactive⟩
  · rw [htasks]
    exact ⟨task, hfind, hsettled⟩
  · rw [← hmempool]
    exact hrow

/-! ## Giving transactions back -/

/-- A row that is still selected after a release is another task's. -/
theorem selected_of_release {mempool : Sql.Table String SelectableRow} {taskId timestamp : String}
    {txHash : String} {row : SelectableRow}
    (h : (releaseSelectedTransactions mempool taskId timestamp).find? txHash = some row)
    (hstatus : row.status = .selected) :
    mempool.find? txHash = some row ∧ row.selectedTaskId ≠ some taskId := by
  unfold releaseSelectedTransactions at h
  rw [Sql.Table.find?_mapRows] at h
  obtain ⟨old, hold, hrow⟩ := Option.map_eq_some_iff.mp h
  split at hrow
  · rw [← hrow] at hstatus
    unfold SelectableRow.release at hstatus
    dsimp only at hstatus
    split at hstatus <;> cases hstatus
  · next hnot =>
    rw [← hrow] at hstatus ⊢
    exact ⟨hold, fun hfor => hnot (selectedFor_iff.mpr ⟨hfor, hstatus⟩)⟩

/-- A row of a task is rewritten, and its transactions are given back. -/
theorem leaves_of_release {s s' : MiningState σ} {taskId timestamp : String}
    {f : TaskRow → TaskRow} (hf : ∀ task, task.status.settled → (f task).status.settled)
    (htasks : s'.tasks = s.tasks.modify taskId f)
    (hmempool : s'.mempool = releaseSelectedTransactions s.mempool taskId timestamp)
    (hsnapshots : s'.snapshots = s.snapshots) (hblocks : s'.blocks = s.blocks) :
    Leaves s s' taskId := by
  refine ⟨fun id hne => ?_, fun task hfind hsettled => ?_, fun txHash row hrow hstatus => ?_,
    hsnapshots, hblocks⟩
  · rw [htasks, Sql.Table.find?_modify_ne _ _ hne]
  · rw [htasks, Sql.Table.find?_modify, if_pos rfl, hfind]
    exact ⟨f task, rfl, hf task hsettled⟩
  · rw [hmempool] at hrow
    exact selected_of_release hrow hstatus

/-- A row of a task without selected transactions is rewritten. -/
theorem leaves_of_modify {s s' : MiningState σ} {taskId : String} {f : TaskRow → TaskRow}
    (hf : ∀ task, task.status.settled → (f task).status.settled)
    (hnone : ¬HasSelected s taskId) (htasks : s'.tasks = s.tasks.modify taskId f)
    (hmempool : s'.mempool = s.mempool) (hsnapshots : s'.snapshots = s.snapshots)
    (hblocks : s'.blocks = s.blocks) : Leaves s s' taskId := by
  refine ⟨fun id hne => ?_, fun task hfind hsettled => ?_, fun txHash row hrow hstatus => ?_,
    hsnapshots, hblocks⟩
  · rw [htasks, Sql.Table.find?_modify_ne _ _ hne]
  · rw [htasks, Sql.Table.find?_modify, if_pos rfl, hfind]
    exact ⟨f task, rfl, hf task hsettled⟩
  · rw [hmempool] at hrow
    exact ⟨hrow, fun hfor => hnone ⟨txHash, row, hrow, selectedFor_iff.mpr ⟨hfor, hstatus⟩⟩⟩

/-- A row of a task is rewritten so that an active task stays active. -/
theorem stays_of_modify {s s' : MiningState σ} {taskId : String} {f : TaskRow → TaskRow}
    (hf : ∀ task, s.tasks.find? taskId = some task →
      (task.status.active = true → (f task).status.active = true) ∧
        (task.status.settled → (f task).status.settled))
    (htasks : s'.tasks = s.tasks.modify taskId f) (hmempool : s'.mempool = s.mempool)
    (hsnapshots : s'.snapshots = s.snapshots) (hblocks : s'.blocks = s.blocks) : Stays s s' := by
  have hrows : ∀ id task, s.tasks.find? id = some task → ∃ task', s'.tasks.find? id = some task' ∧
      (task.status.active = true → task'.status.active = true) ∧
        (task.status.settled → task'.status.settled) := by
    intro id task hfind
    rw [htasks, Sql.Table.find?_modify]
    split
    · next heq =>
      rw [heq] at hfind
      rw [hfind]
      exact ⟨f task, rfl, hf task hfind⟩
    · exact ⟨task, hfind, fun hactive => hactive, fun hsettled => hsettled⟩
  refine ⟨fun id task hfind hactive => ?_, fun id task hfind hsettled => ?_,
    fun txHash row hrow _ => ?_, hsnapshots, hblocks⟩
  · obtain ⟨task', hfind', hkeeps⟩ := hrows id task hfind
    exact ⟨task', hfind', hkeeps.1 hactive⟩
  · obtain ⟨task', hfind', hkeeps⟩ := hrows id task hfind
    exact ⟨task', hfind', hkeeps.2 hsettled⟩
  · rw [← hmempool]
    exact hrow

/-- Giving back the transactions of a task that stays as it is. -/
theorem NoStranding.release {mc : MiningConfig} {s : MiningState σ} (h : NoStranding mc s)
    (taskId timestamp : String) :
    NoStranding mc
      { s with mempool := releaseSelectedTransactions s.mempool taskId timestamp } := by
  refine h.stay ⟨fun _ task hfind hactive => ⟨task, hfind, hactive⟩,
    fun _ task hfind hsettled => ⟨task, hfind, hsettled⟩, fun txHash row hrow hstatus => ?_, rfl, rfl⟩
  exact (selected_of_release hrow hstatus).1

/-! ## Freezing -/

/-- The rows of one key, after all rows of another are taken out. -/
theorem find?_filter_key {α β : Type} [DecidableEq β] (key : α → β) (a b : β) (l : List α) :
    ((l.filter fun x => decide (key x ≠ a)).find? fun x => decide (key x = b)) =
      if b = a then none else l.find? fun x => decide (key x = b) := by
  induction l with
  | nil => split <;> rfl
  | cons x rest ih =>
    by_cases hx : key x = a
    · rw [List.filter_cons_of_neg (by simpa using hx), ih]
      split
      · rfl
      · next hne =>
        have hskip : ¬key x = b := fun hb => hne (hb.symm.trans hx)
        rw [List.find?_cons_of_neg (by simpa using hskip)]
    · rw [List.filter_cons_of_pos (by simpa using hx)]
      by_cases hb : key x = b
      · have hne : b ≠ a := fun heq => hx (hb.trans heq)
        rw [List.find?_cons_of_pos (by simpa using hb), if_neg hne,
          List.find?_cons_of_pos (by simpa using hb)]
      · rw [List.find?_cons_of_neg (by simpa using hb), ih]
        split
        · rfl
        · rw [List.find?_cons_of_neg (by simpa using hb)]

/-- What storing a snapshot leaves. -/
theorem storeTaskTxSnapshot_eq_ok {mc : MiningConfig} {s s' : MiningState σ} {taskId : String}
    {blockHeight : ℤ} {commitment : TxCommitment} {timestamp : String}
    (h : storeTaskTxSnapshot mc s taskId blockHeight commitment timestamp = .ok s') :
    (∃ snapshotId, s'.tasks = s.tasks.modify taskId (TaskRow.withSnapshot snapshotId commitment)) ∧
      s'.mempool = s.mempool ∧ s'.blocks = s.blocks ∧
      (∃ snapshot, ownSnapshot s' taskId = some snapshot ∧
        snapshot.txHashesJson = txHashesJson commitment.txHashes) ∧
      ∀ id, id ≠ taskId → ownSnapshot s' id = ownSnapshot s id := by
  unfold storeTaskTxSnapshot at h
  dsimp only at h
  split at h
  · cases h
  next hfresh =>
  cases h
  rw [Option.not_isSome_iff_eq_none] at hfresh
  -- the id of the snapshot is new, so its row comes last
  have hlast := fun row => Sql.Table.upsertRows_of_none (x := row) hfresh
  refine ⟨⟨_, rfl⟩, rfl, rfl, ⟨?row, ?_, ?_⟩, fun id hne => ?_⟩
  case row =>
    exact
      { taskId
        blockHeight
        txHashesJson := txHashesJson commitment.txHashes
        txMerkleRoot := commitment.txMerkleRoot
        txCount := commitment.txHashes.length
        txFeeTotalUnits := commitment.txFeeTotalUnits
        createdAt := timestamp }
  · unfold ownSnapshot applyTaskTxSnapshot Sql.Table.upsert
    dsimp only
    rw [hlast]
    unfold Sql.Table.filterRows
    have hnone := find?_filter_key (fun r => r.2.taskId) taskId taskId s.snapshots.rows
    rw [if_pos rfl] at hnone
    rw [List.find?_append, hnone, List.find?_singleton, if_pos (decide_eq_true rfl)]
    rfl
  · rfl
  · unfold ownSnapshot applyTaskTxSnapshot Sql.Table.upsert
    dsimp only
    rw [hlast]
    unfold Sql.Table.filterRows
    -- the snapshots of other tasks are not deleted
    have hother := find?_filter_key (fun r => r.2.taskId) taskId id s.snapshots.rows
    rw [if_neg hne] at hother
    rw [List.find?_append, hother, List.find?_singleton, if_neg (by simpa using Ne.symm hne),
      Option.or_none]

/-- `json.loads` reads back what `json.dumps` has written. -/
def ReadsBack (mc : MiningConfig) : Prop :=
  ∀ txHashes, mc.jsonLoads (txHashesJson txHashes) = some txHashes

/-- Transactions that are frozen for an active task are not stranded. -/
theorem NoStranding.freeze {tc : TaskConfig σ} (hreads : ReadsBack tc.toMiningConfig)
    {s s' : MiningState σ} (h : NoStranding tc.toMiningConfig s) {taskId : String} {task : TaskRow}
    (htask : s.tasks.find? taskId = some task) (hactive : task.status.active = true)
    (hnone : ¬HasSelected s taskId) {blockHeight : ℤ} {timestamp : String}
    (hfreeze : freezeTransactionsForTask tc s taskId blockHeight timestamp = .ok s') :
    NoStranding tc.toMiningConfig s' := by
  obtain ⟨s₁, hstore, hfreeze⟩ := bind_eq_ok.mp hfreeze
  cases hfreeze
  obtain ⟨⟨snapshotId, htasks⟩, hmempool, hblocks, ⟨snapshot, hown, hjson⟩, hothers⟩ :=
    storeTaskTxSnapshot_eq_ok hstore
  have hrows : ∀ id row, s.tasks.find? id = some row → ∃ row', s₁.tasks.find? id = some row' ∧
      row'.status = row.status := by
    intro id row hfind
    rw [htasks, Sql.Table.find?_modify]
    split
    · next heq =>
      rw [heq] at hfind
      rw [hfind]
      exact ⟨_, rfl, rfl⟩
    · exact ⟨row, hfind, rfl⟩
  constructor
  · intro txHash row hrow hstatus
    dsimp only at hrow
    unfold markSelected at hrow
    rw [Sql.Table.find?_mapRows, hmempool] at hrow
    obtain ⟨old, hold, hmark⟩ := Option.map_eq_some_iff.mp hrow
    split at hmark
    · next hselected =>
      rw [← hmark]
      refine ⟨taskId, rfl, ?_, snapshot, _, hown, ?_, hselected.1⟩
      · obtain ⟨row', hfind', hstatus'⟩ := hrows taskId task htask
        exact ⟨row', hfind', by rw [hstatus', hactive]⟩
      · rw [hjson]
        exact hreads _
    · rw [← hmark] at hstatus ⊢
      -- the row was selected before, for another task
      unfold failTransactions at hold
      rw [Sql.Table.find?_mapRows] at hold
      obtain ⟨first, hfirst, hfail⟩ := Option.map_eq_some_iff.mp hold
      split at hfail
      · rw [← hfail] at hstatus
        cases hstatus
      · rw [hfail] at hfirst
        obtain ⟨holder, hholder, hheld⟩ := h.held txHash old hfirst hstatus
        have hother : holder ≠ taskId := by
          intro heq
          rw [heq] at hholder
          exact hnone ⟨txHash, old, hfirst, selectedFor_iff.mpr ⟨hholder, hstatus⟩⟩
        refine ⟨holder, hholder, ?_, ?_⟩
        · obtain ⟨row₀, hfind₀, hactive₀⟩ := hheld.active
          obtain ⟨row', hfind', hstatus'⟩ := hrows holder row₀ hfind₀
          exact ⟨row', hfind', by rw [hstatus', hactive₀]⟩
        · have hsame : ownSnapshot s₁ holder = ownSnapshot s holder := hothers holder hother
          obtain ⟨snapshot₀, txHashes, hown₀, hfrozen⟩ := hheld.frozen
          exact ⟨snapshot₀, txHashes, hsame.trans hown₀, hfrozen⟩
  · intro b hb
    dsimp only at hb
    rw [hblocks] at hb
    obtain ⟨row, hfind, hsettled⟩ := h.built b hb
    obtain ⟨row', hfind', hstatus'⟩ := hrows b.taskId row hfind
    refine ⟨row', hfind', ?_⟩
    rw [hstatus']
    exact hsettled

/-- So it is with those of a round. -/
theorem NoStranding.freezeRound {tc : TaskConfig σ} (hreads : ReadsBack tc.toMiningConfig)
    {s s' : MiningState σ} (h : NoStranding tc.toMiningConfig s) {taskId : String} {task : TaskRow}
    (htask : s.tasks.find? taskId = some task) (hactive : task.status.active = true)
    (hnone : ¬HasSelected s taskId) {blockHeight : ℤ} {seed : Option String} {timestamp : String}
    (hfreeze : freezeTransactionsForCompetitiveRoundTask tc s taskId blockHeight seed timestamp =
      .ok s') : NoStranding tc.toMiningConfig s' := by
  unfold freezeTransactionsForCompetitiveRoundTask at hfreeze
  dsimp only at hfreeze
  split at hfreeze
  · cases hfreeze
    refine h.stay (stays_of_modify ?_ rfl rfl rfl rfl)
    exact fun _ _ => ⟨fun ha => ha, fun hs => hs⟩
  · exact h.freeze hreads htask hactive hnone hfreeze

/-! ## Assigning -/

/-- No row is selected for a task after its release. -/
theorem not_hasSelected_release (s : MiningState σ) (taskId timestamp : String) :
    ¬HasSelected { s with mempool := releaseSelectedTransactions s.mempool taskId timestamp }
      taskId := by
  rintro ⟨txHash, row, hrow, hselected⟩
  obtain ⟨hfor, hstatus⟩ := selectedFor_iff.mp hselected
  exact (selected_of_release hrow hstatus).2 hfor

/-- A task that is revived has its transactions again, or has none. -/
theorem NoStranding.reactivate {tc : TaskConfig σ} (hreads : ReadsBack tc.toMiningConfig)
    {now : Instant} {s : MiningState σ} (h : NoStranding tc.toMiningConfig s) {taskId : String}
    {task : TaskRow} (htask : s.tasks.find? taskId = some task) {assignment : Option Assignment}
    {params : ℤ × ProtocolParamsRow} {revived : Option (MiningState σ)}
    (hrevive : reactivateExpiredCompetitiveTask tc now s taskId task assignment params =
      .ok revived) : ∀ s', revived = some s' → NoStranding tc.toMiningConfig s' := by
  intro s' hs'
  unfold reactivateExpiredCompetitiveTask at hrevive
  split at hrevive
  · cases hrevive
    cases hs'
  next hcan =>
  have hexpired : task.status = .expired := by
    rw [Bool.not_eq_true, Bool.not_eq_false'] at hcan
    unfold canReactivate at hcan
    simp only [Bool.and_eq_true, decide_eq_true_eq] at hcan
    exact hcan.1.1.1.1
  -- an expired task is neither active nor settled, so that its row may change as it likes
  have hstay : ∀ status now' expiresAt, NoStranding tc.toMiningConfig
      { s with tasks := s.tasks.modify taskId (TaskRow.reactivate status now' expiresAt) } := by
    intro status now' expiresAt
    refine h.stay (stays_of_modify ?_ rfl rfl rfl rfl)
    intro old hold
    rw [htask] at hold
    cases hold
    unfold TaskStatus.settled
    rw [hexpired]
    constructor
    · intro hsettled
      cases hsettled
    · rintro (haccepted | hrejected)
      · cases haccepted
      · cases hrejected
  dsimp only at hrevive
  split at hrevive
  · cases hrevive
    cases hs'
    exact hstay _ _ _
  · obtain ⟨s₁, hfreeze, hrevive⟩ := bind_eq_ok.mp hrevive
    cases hrevive
    cases hs'
    have hfind : (s.tasks.modify taskId (TaskRow.reactivate .assigned (isoformat now)
        (tc.taskExpiry now params.2 task.rangeEnd))).find? taskId =
          some (TaskRow.reactivate .assigned (isoformat now)
            (tc.taskExpiry now params.2 task.rangeEnd) task) := by
      rw [Sql.Table.find?_modify, if_pos rfl, htask]
      rfl
    have hactive : (TaskRow.reactivate .assigned (isoformat now)
        (tc.taskExpiry now params.2 task.rangeEnd) task).status.active = true := by
      unfold TaskRow.reactivate
      rw [if_pos hexpired]
      rfl
    exact ((hstay _ _ _).release taskId _).freezeRound hreads hfind hactive
      (not_hasSelected_release _ _ _) hfreeze

/-- A new task is active, with the transactions that are selected for it. -/
theorem NoStranding.insertTask {tc : TaskConfig σ} (hreads : ReadsBack tc.toMiningConfig)
    {now : Instant} {s s' : MiningState σ} (h : NoStranding tc.toMiningConfig s)
    {minerId taskId : String} (hfresh : s.tasks.find? taskId = none)
    {params : ℤ × ProtocolParamsRow} {assignment : Assignment}
    (hinsert : insertTask tc now s minerId taskId params assignment = .ok s') :
    NoStranding tc.toMiningConfig s' := by
  have hnone : ¬HasSelected s taskId := by
    apply h.not_hasSelected
    intro task hfind
    rw [hfresh] at hfind
    cases hfind
  have hstay : ∀ task : TaskRow, NoStranding tc.toMiningConfig
      { s with tasks := s.tasks.upsert taskId task } := by
    intro task
    have hold : ∀ id row, s.tasks.find? id = some row →
        (s.tasks.upsert taskId task).find? id = some row := by
      intro id row hfind
      rw [Sql.Table.find?_upsert_ne _ _ (fun heq => by rw [heq, hfresh] at hfind; cases hfind)]
      exact hfind
    exact h.stay ⟨fun id row hfind hactive => ⟨row, hold id row hfind, hactive⟩,
      fun id row hfind hsettled => ⟨row, hold id row hfind, hsettled⟩, fun _ _ hrow _ => hrow, rfl, rfl⟩
  unfold Picoin.insertTask at hinsert
  generalize (if tc.competitiveMode then competitiveRoundAssignmentMode
    else params.2.rangeAssignmentMode) = mode at hinsert
  dsimp only at hinsert
  have hassigned : ∀ expiresAt,
      (assignedTaskRow (isoformat now) expiresAt minerId mode params assignment).status.active =
        true := fun _ => rfl
  split at hinsert
  · exact (hstay _).freezeRound hreads (Sql.Table.find?_upsert_self _ _ _) (hassigned _) hnone
      hinsert
  · exact (hstay _).freeze hreads (Sql.Table.find?_upsert_self _ _ _) (hassigned _) hnone hinsert

/-- So is a task that is assigned. -/
theorem NoStranding.assignTask {tc : TaskConfig σ} (hreads : ReadsBack tc.toMiningConfig)
    {now : Instant} {s s' : MiningState σ} (h : NoStranding tc.toMiningConfig s)
    {minerId taskId : String} {params : ℤ × ProtocolParamsRow} {assignment : Assignment}
    (hassign : assignTask tc now s minerId taskId params assignment = .ok s') :
    NoStranding tc.toMiningConfig s' := by
  unfold Picoin.assignTask at hassign
  split at hassign
  · next hfresh => exact h.insertTask hreads hfresh hassign
  · next task htask =>
    obtain ⟨revived, hrevive, hassign⟩ := bind_eq_ok.mp hassign
    cases hassign
    cases revived with
    | none => exact h
    | some s₁ => exact h.reactivate hreads htask hrevive s₁ rfl

/-- The choice of the next task keeps it. -/
theorem NoStranding.assignNextTask {tc : TaskConfig σ} (hreads : ReadsBack tc.toMiningConfig)
    {now : Instant} {s s' : MiningState σ} (h : NoStranding tc.toMiningConfig s)
    {r : NextTaskRequest} {params : ℤ × ProtocolParamsRow}
    (hassign : assignNextTask tc now s r params = .ok s') : NoStranding tc.toMiningConfig s' := by
  unfold Picoin.assignNextTask at hassign
  split at hassign
  · obtain ⟨assignment, -, hassign⟩ := bind_eq_ok.mp hassign
    split at hassign
    · cases hassign
    dsimp only at hassign
    split at hassign
    · exact h.assignTask hreads hassign
    · next task htask =>
      obtain ⟨revived, hrevive, hassign⟩ := bind_eq_ok.mp hassign
      cases revived with
      | some revivedState =>
        cases hassign
        exact h.reactivate hreads htask hrevive _ rfl
      | none =>
        dsimp only at hassign
        split at hassign
        · cases hassign
          exact h
        · exact h.assignTask hreads hassign
  · obtain ⟨assignment, -, hassign⟩ := bind_eq_ok.mp hassign
    exact h.assignTask hreads hassign

/-! ## Closing -/

/-- A stale task gives up its transactions. -/
theorem NoStranding.markStale {mc : MiningConfig} {s : MiningState σ} (h : NoStranding mc s)
    (taskId reason timestamp : String) :
    NoStranding mc (markCompetitiveTaskStale s taskId reason timestamp) := by
  have hleaves : Leaves s (markCompetitiveTaskStale s taskId reason timestamp) taskId := by
    unfold markCompetitiveTaskStale
    apply leaves_of_release
    case htasks => dsimp only
    case hmempool => rfl
    case hsnapshots => rfl
    case hblocks => rfl
    intro task hsettled
    rw [if_neg (by rw [not_active_of_settled hsettled]; exact Bool.false_ne_true)]
    exact hsettled
  exact h.leave hleaves

/-- The check for staleness keeps it. -/
theorem NoStranding.expireStale {tc : TaskConfig σ} {now : String} {s s' : MiningState σ}
    (h : NoStranding tc.toMiningConfig s) {taskId : String} {task : TaskRow}
    {params : ℤ × ProtocolParamsRow} {stale : Bool}
    (hexpire : expireStaleCompetitiveTask tc now s taskId task params = .ok (s', stale)) :
    NoStranding tc.toMiningConfig s' := by
  obtain ⟨current, -, hexpire⟩ := bind_eq_ok.mp hexpire
  split at hexpire
  · cases hexpire
    exact h
  · cases hexpire
    exact h.markStale _ _ _

/-- A task that expires with its transactions given back. The clean-up and the assignment expire
active tasks only. -/
theorem NoStranding.expire {mc : MiningConfig} {s s' : MiningState σ} (h : NoStranding mc s)
    {taskId timestamp : String} (f : TaskRow → TaskRow)
    (hstatus : ∀ task, s.tasks.find? taskId = some task → ¬task.status.settled)
    (htasks : s'.tasks = s.tasks.modify taskId f)
    (hmempool : s'.mempool = releaseSelectedTransactions s.mempool taskId timestamp)
    (hsnapshots : s'.snapshots = s.snapshots) (hblocks : s'.blocks = s.blocks) :
    NoStranding mc s' := by
  have hleaves : Leaves s s' taskId := by
    refine ⟨fun id hne => ?_, fun task hfind hsettled => ?_, fun txHash row hrow hselected => ?_,
      hsnapshots, hblocks⟩
    · rw [htasks, Sql.Table.find?_modify_ne _ _ hne]
    · exact absurd hsettled (hstatus task hfind)
    · rw [hmempool] at hrow
      exact selected_of_release hrow hselected
  exact h.leave hleaves

/-- An active task is not settled. -/
theorem not_settled_of_active {status : TaskStatus} (h : status.active = true) :
    ¬status.settled := by
  intro hsettled
  rw [not_active_of_settled hsettled] at h
  cases h

/-- The miner's oldest active task is one of the rows. -/
theorem activeTask_eq_some {s : MiningState σ} {minerId taskId : String} {task : TaskRow}
    (h : activeTask s minerId = some (taskId, task)) :
    s.tasks.find? taskId = some task ∧ task.status.active = true := by
  have hmem := List.mem_of_head? h
  rw [List.mem_mergeSort, List.mem_filter, Bool.and_eq_true] at hmem
  exact ⟨Sql.Table.find?_eq_some_iff.mpr hmem.1, hmem.2.2⟩

/-- The look-up of the active task keeps it. -/
theorem NoStranding.useActiveTask {tc : TaskConfig σ} {now : Instant} {s s' : MiningState σ}
    (h : NoStranding tc.toMiningConfig s) {minerId : String} {params : ℤ × ProtocolParamsRow}
    {active : Option String} (huse : useActiveTask tc now s minerId params = .ok (s', active)) :
    NoStranding tc.toMiningConfig s' := by
  unfold Picoin.useActiveTask at huse
  split at huse
  · cases huse
    exact h
  next taskId task hactive =>
  obtain ⟨hfind, hstatus⟩ := activeTask_eq_some hactive
  split at huse
  · cases huse
    refine h.expire (fun task => { task with status := .expired }) ?_ rfl rfl rfl rfl
    intro row hrow
    rw [hfind] at hrow
    cases hrow
    exact not_settled_of_active hstatus
  · obtain ⟨⟨s₁, stale⟩, hstale, huse⟩ := bind_eq_ok.mp huse
    have h₁ : NoStranding tc.toMiningConfig s₁ := by
      split at hstale
      · exact h.expireStale hstale
      · cases hstale
        exact h
    dsimp only at huse
    split at huse
    · cases huse
      exact h₁
    · split at huse
      · cases huse
      · cases huse
        exact h₁

/-! ## The block of a task -/

/-- The hashes of a task with a snapshot of its own. -/
theorem taskTxHashes_of_own {mc : MiningConfig} {s : MiningState σ} {taskId : String}
    {snapshot : TaskTxSnapshotRow} {txHashes : List String}
    (hown : ownSnapshot s taskId = some snapshot)
    (hloads : mc.jsonLoads snapshot.txHashesJson = some txHashes) :
    taskTxHashes mc s taskId = txHashes := by
  unfold ownSnapshot at hown
  unfold taskTxHashes
  dsimp only
  rw [hown, Option.some_or]
  dsimp only
  rw [hloads]
  rfl

/-- The losers of a round give up their transactions. -/
theorem NoStranding.closeRound {mc : MiningConfig} {s : MiningState σ} (h : NoStranding mc s)
    (taskId : String) (task : TaskRow) (height : ℤ) (timestamp : String) :
    NoStranding mc (closeCompetitiveRoundAfterBlock s taskId task height timestamp) := by
  unfold closeCompetitiveRoundAfterBlock
  generalize openCompetitors s taskId task = others
  induction others generalizing s with
  | nil => exact h
  | cons other rest ih => exact ih (h.markStale other _ timestamp)

/-- A block of the task in a marked chain is a block of the task. -/
theorem mem_insertBlock {services : BlockServices σ} {s : MiningState σ} {block b : MinedBlockRow}
    {settlement : Settlement σ} (hb : b ∈ (insertBlock services s block settlement).blocks) :
    ∃ b₀ ∈ s.blocks ++ [block], b.taskId = b₀.taskId := by
  unfold insertBlock at hb
  dsimp only at hb
  cases hfraud : settlement.fraud with
  | none =>
    rw [hfraud] at hb
    exact ⟨b, hb, rfl⟩
  | some mark =>
    rw [hfraud] at hb
    obtain ⟨b₀, hb₀, hmarked⟩ := List.mem_map.mp hb
    refine ⟨b₀, hb₀, ?_⟩
    rw [← hmarked]
    split <;> rfl

/-- A block confirms what is selected for its task. -/
theorem NoStranding.insertBlock {mc : MiningConfig} {services : BlockServices σ} {s : MiningState σ}
    (h : NoStranding mc s) {block : MinedBlockRow} {task : TaskRow}
    (htask : s.tasks.find? block.taskId = some task)
    (hfrozen : block.txHashes = taskTxHashes mc s block.taskId) (settlement : Settlement σ) :
    NoStranding mc (Picoin.insertBlock services s block settlement) := by
  have hothers : ∀ id, id ≠ block.taskId →
      (Picoin.insertBlock services s block settlement).tasks.find? id = s.tasks.find? id :=
    fun id hne => Sql.Table.find?_modify_ne _ _ hne
  constructor
  · -- a row that stays selected is not of the block, so another task holds it
    intro txHash row hrow hstatus
    unfold Picoin.insertBlock at hrow
    dsimp only at hrow
    rw [Sql.Table.find?_mapRows] at hrow
    obtain ⟨old, hold, hconfirm⟩ := Option.map_eq_some_iff.mp hrow
    split at hconfirm
    · rw [← hconfirm] at hstatus
      cases hstatus
    next hnot =>
    rw [← hconfirm] at hstatus ⊢
    obtain ⟨holder, hholder, hheld⟩ := h.held txHash old hold hstatus
    have hother : holder ≠ block.taskId := by
      intro heq
      obtain ⟨snapshot, txHashes, hown, hloads, hmem⟩ := hheld.frozen
      rw [heq] at hown
      rw [hfrozen, taskTxHashes_of_own hown hloads] at hnot
      exact hnot hmem
    refine ⟨holder, hholder, ?_, hheld.frozen⟩
    rw [hothers holder hother]
    exact hheld.active
  · intro b hb
    obtain ⟨b₀, hb₀, hid⟩ := mem_insertBlock hb
    rw [hid]
    by_cases heq : b₀.taskId = block.taskId
    · refine ⟨{ task with status := .accepted, submittedAt := some block.timestamp }, ?_, .inl rfl⟩
      rw [heq]
      unfold Picoin.insertBlock
      dsimp only
      rw [Sql.Table.find?_modify, if_pos rfl, htask]
      rfl
    · have hmem : b₀ ∈ s.blocks := by
        rcases List.mem_append.mp hb₀ with hmem | hnew
        · exact hmem
        · exact absurd (congrArg (fun b : MinedBlockRow => b.taskId) (List.mem_singleton.mp hnew)) heq
      rw [hothers b₀.taskId heq]
      exact h.built b₀ hmem

/-- The transactions of an accepted block are confirmed with their task. -/
theorem NoStranding.acceptBlock {mc : MiningConfig} {services : BlockServices σ}
    {s s' : MiningState σ} (h : NoStranding mc s) {now : String} {claim : BlockClaim}
    {task : TaskRow} (htask : s.tasks.find? claim.taskId = some task)
    {params : ℤ × ProtocolParamsRow} {validationMs : Option ℤ} {block : MinedBlockRow}
    (haccept : acceptBlock mc services now s claim params validationMs = .ok (block, s')) :
    NoStranding mc s' := by
  rcases acceptBlock_eq_ok haccept with ⟨-, hs⟩ | ⟨transactions, settlement, hload, -, -, hblock, -,
    hs⟩
  · rw [hs]
    exact h
  · have hid : block.taskId = claim.taskId := by
      rw [hblock]
      rfl
    have hfrozen : block.txHashes = taskTxHashes mc s block.taskId := by
      rw [hid, ← loadSnapshotTransactions_eq_ok hload, hblock]
      rfl
    rw [← hid] at htask
    rw [hs]
    exact (h.insertBlock htask hfrozen settlement).closeRound _ _ _ _

/-! ## Votes -/

/-- A job holds no transactions. -/
theorem NoStranding.closeJob {mc : MiningConfig} {s : MiningState σ} (h : NoStranding mc s)
    (jobId : String) (verdict : JobVerdict) : NoStranding mc (closeJob s jobId verdict) :=
  h.congr rfl rfl rfl rfl

/-- A rejected task gives up its transactions. -/
theorem NoStranding.rejectAndRelease {mc : MiningConfig} {s : MiningState σ} (h : NoStranding mc s)
    (taskId timestamp : String) : NoStranding mc (rejectAndRelease s taskId timestamp) := by
  have hleaves : Leaves s (Picoin.rejectAndRelease s taskId timestamp) taskId := by
    unfold Picoin.rejectAndRelease rejectTask
    apply leaves_of_release
    case htasks => dsimp only
    case hmempool => rfl
    case hsnapshots => rfl
    case hblocks => rfl
    exact fun task _ => .inr rfl
  exact h.leave hleaves

/-- A task that has no transactions can be rejected without a release. -/
theorem NoStranding.rejectTask {mc : MiningConfig} {s : MiningState σ} (h : NoStranding mc s)
    {taskId : String} (hnone : ¬HasSelected s taskId) (timestamp : String) :
    NoStranding mc (rejectTask s taskId timestamp) := by
  have hleaves : Leaves s (Picoin.rejectTask s taskId timestamp) taskId := by
    unfold Picoin.rejectTask
    apply leaves_of_modify
    case htasks => dsimp only
    case hmempool => rfl
    case hsnapshots => rfl
    case hblocks => rfl
    case hnone => exact hnone
    exact fun task _ => .inr rfl
  exact h.leave hleaves

/-- It can be accepted, too. -/
theorem NoStranding.acceptTask {mc : MiningConfig} {s : MiningState σ} (h : NoStranding mc s)
    {taskId : String} (hnone : ¬HasSelected s taskId) (timestamp : String) :
    NoStranding mc (acceptTask s taskId timestamp) := by
  have hleaves : Leaves s (Picoin.acceptTask s taskId timestamp) taskId := by
    unfold Picoin.acceptTask
    apply leaves_of_modify
    case htasks => dsimp only
    case hmempool => rfl
    case hsnapshots => rfl
    case hblocks => rfl
    case hnone => exact hnone
    exact fun task _ => .inl rfl
  exact h.leave hleaves

/-- A quorum of approvals keeps it. -/
theorem NoStranding.acceptByQuorum {mc : MiningConfig} {services : BlockServices σ}
    {s s' : MiningState σ} (h : NoStranding mc s) {c : FinalizationCall} (hc : CallOf s c)
    {keepStale : Bool} {response : VoteResponse}
    (haccept : acceptByQuorum mc services keepStale s c = .ok (s', response)) :
    NoStranding mc s' := by
  unfold Picoin.acceptByQuorum at haccept
  split at haccept
  · cases haccept
    exact h
  · next raw _ =>
    cases haccept
    refine NoStranding.closeJob ?_ _ _
    split
    · exact h.markStale _ _ _
    · split
      · exact h
      · exact h.rejectAndRelease _ _
  · cases haccept
  · next block s₁ hblock =>
    cases haccept
    obtain ⟨ms, -, hblock⟩ := bind_eq_ok.mp hblock
    exact (h.acceptBlock hc.task hblock).closeJob _ _

/-- A job for a block that is there keeps it. -/
theorem NoStranding.rejectDuplicate {mc : MiningConfig} {s : MiningState σ} (h : NoStranding mc s)
    (c : FinalizationCall) (block : MinedBlockRow) : NoStranding mc (rejectDuplicate s c block).1 :=
  (h.rejectAndRelease c.job.taskId c.now).closeJob _ _

/-- A submitted vote keeps it, where a rejection meets a task without transactions. -/
theorem NoStranding.finalizeSubmitted {mc : MiningConfig} {services : BlockServices σ}
    {s s' : MiningState σ} (h : NoStranding mc s) {c : FinalizationCall} (hc : CallOf s c)
    {counts : ℤ × ℤ} {required : ℤ}
    (hreject : c.vote.approved = false → required ≤ counts.2 → ¬HasSelected s c.job.taskId)
    {response : VoteResponse}
    (hfinalize : finalizeSubmitted mc services s c counts required = .ok (s', response)) :
    NoStranding mc s' := by
  unfold Picoin.finalizeSubmitted at hfinalize
  split at hfinalize
  · split at hfinalize
    · next block _ =>
      have hkept := h.rejectDuplicate c block
      cases hfinalize
      exact hkept
    · exact h.acceptByQuorum hc hfinalize
  · split at hfinalize
    · next hrejects =>
      cases hfinalize
      have hnone := hreject (Bool.not_eq_true _ ▸ hrejects.1) hrejects.2
      exact (h.rejectTask hnone c.now).closeJob _ _
    · cases hfinalize
      exact h

/-- So does a vote that came by gossip. -/
theorem NoStranding.finalizeFromGossip {mc : MiningConfig} {services : BlockServices σ}
    {s s' : MiningState σ} (h : NoStranding mc s) {c : FinalizationCall} (hc : CallOf s c)
    {counts : ℤ × ℤ} {required : ℤ}
    (hreject : c.vote.approved = false → required ≤ counts.2 → ¬HasSelected s c.job.taskId)
    {response : Option VoteResponse}
    (hfinalize : finalizeFromGossip mc services s c counts required = .ok (s', response)) :
    NoStranding mc s' := by
  unfold Picoin.finalizeFromGossip at hfinalize
  split at hfinalize
  · split at hfinalize
    · next block hdup =>
      split at hfinalize
      · next hsame =>
        cases hfinalize
        -- the task of a block is settled, so that nothing is selected for it
        obtain ⟨b, hb, hid⟩ := hasBlock_of_duplicateBlock hdup hsame.1
        obtain ⟨task, hfind, hsettled⟩ := h.built b hb
        rw [hid] at hfind
        have hnone : ¬HasSelected s c.job.taskId := by
          apply h.not_hasSelected
          intro task' hfind'
          rw [hfind] at hfind'
          cases hfind'
          exact not_active_of_settled hsettled
        exact (h.acceptTask hnone c.now).closeJob _ _
      · have hkept := h.rejectDuplicate c block
        cases hfinalize
        exact hkept
    · obtain ⟨⟨s₁, response₁⟩, haccept, hfinalize⟩ := bind_eq_ok.mp hfinalize
      cases hfinalize
      exact h.acceptByQuorum hc haccept
  · split at hfinalize
    · next hrejects =>
      cases hfinalize
      have hnone := hreject (Bool.not_eq_true _ ▸ hrejects.1) hrejects.2
      exact (h.rejectTask hnone c.now).closeJob _ _
    · cases hfinalize
      exact h

/-- Votes that were there before the job keep it. -/
theorem NoStranding.finalizeFromExistingVotes {mc : MiningConfig} {services : BlockServices σ}
    {s s' : MiningState σ} (h : NoStranding mc s) {now jobId : String} {job : ValidationJobRow}
    (hjob : s.jobs.find? jobId = some job) {required : ℤ} {response : Option VoteResponse}
    (hfinalize : finalizeFromExistingVotes mc services now s jobId job required =
      .ok (s', response)) : NoStranding mc s' := by
  unfold Picoin.finalizeFromExistingVotes at hfinalize
  dsimp only at hfinalize
  split at hfinalize
  · cases hfinalize
    exact h
  split at hfinalize
  · cases hfinalize
  next task htask =>
  split at hfinalize
  · cases hfinalize
    exact h
  obtain ⟨params, -, hfinalize⟩ := bind_eq_ok.mp hfinalize
  -- recorded approvals do not reject
  refine h.finalizeFromGossip ⟨hjob, htask⟩ ?_ hfinalize
  intro hfalse
  cases hfalse

/-- A rejection of a pending job that is counted, and completes the quorum. -/
structure CompletesRejection (mc : MiningConfig) (s : MiningState σ) (vote : SignedVote)
    (job : ValidationJobRow) (task : TaskRow) : Prop where
  pending : job.status = .pending
  new : hasVoted s.votes vote.jobId vote.validatorId = false
  rejects : vote.approved = false
  signed : ∃ validator, s.validators.find? vote.validatorId = some validator ∧
    vote.verifies mc.toConfig validator.publicKey = true
  completes : ∃ params, protocolParamsForTask s.protocolParams task = .ok params ∧
    effectiveRequiredApprovals mc params.2 ≤ (validationVoteCounts s.votes vote.jobId).2 + 1

/-- The request completes a quorum of rejections for the task. -/
def RejectsTask (mc : MiningConfig) (now : Instant) (s : MiningState σ) (taskId : String) :
    VoteCall → Prop
  | .submit _ r => ∃ job task validator, checkSubmission mc now s r = .ok (job, task, validator) ∧
    CompletesRejection mc s (r.signedVote job.taskId) job task ∧ job.taskId = taskId
  | .gossip m => ∃ job task, s.jobs.find? m.signedVote.jobId = some job ∧
    s.tasks.find? m.signedVote.taskId = some task ∧
      CompletesRejection mc s m.signedVote job task ∧ job.taskId = m.signedVote.taskId ∧
        job.taskId = taskId

/-- A recorded rejection counts. -/
theorem counts_recordVote (s : MiningState σ) (now : Instant) {vote : SignedVote}
    (hrejects : vote.approved = false) (validationMs : ℤ) (receivedAt : String) :
    (validationVoteCounts (recordVote s now vote validationMs receivedAt).votes vote.jobId).2 =
      (validationVoteCounts s.votes vote.jobId).2 + 1 := by
  unfold validationVoteCounts recordVote
  dsimp only
  rw [List.countP_append, List.countP_singleton, if_pos (by simp [hrejects])]
  push_cast
  rfl

/-- A call of `submit_validation_result` keeps it. -/
theorem NoStranding.submit {mc : MiningConfig} {services : BlockServices σ} {now : Instant}
    {validationMs : ℤ} {s : MiningState σ} (h : NoStranding mc s) {r : SubmitRequest}
    (hreject : ∀ taskId, RejectsTask mc now s taskId (.submit validationMs r) →
      ¬HasSelected s taskId) :
    NoStranding mc (submitValidationResult mc services now validationMs s r).1 := by
  unfold submitValidationResult
  dsimp only
  split
  · exact h
  next job task validator hcheck =>
  obtain ⟨hjob, htask, hvalidator, -⟩ := checkSubmission_eq_ok hcheck
  split
  · cases protocolParamsForTask s.protocolParams task <;> exact h
  next hpending =>
  rw [not_not] at hpending
  split
  · -- a vote that is recorded already
    cases hexisting : existingVoteResponse mc services (isoformat now) s r.jobId job task with
    | error e => exact h
    | ok result =>
      obtain ⟨s', response⟩ := result
      obtain ⟨params, -, hexisting⟩ := bind_eq_ok.mp hexisting
      obtain ⟨⟨s₁, finalization⟩, hfinalize, hexisting⟩ := bind_eq_ok.mp hexisting
      have hstate : s' = s₁ := by
        dsimp only at hexisting
        split at hexisting
        · cases hexisting
          rfl
        · split at hexisting <;> cases hexisting <;> rfl
      rw [hstate]
      exact h.finalizeFromExistingVotes hjob hfinalize
  next hnew =>
  split
  · -- a new vote is recorded first, and only then counted
    next hverifies =>
    cases hcount : countSubmittedVote mc services now validationMs s r job task with
    | error e => exact h
    | ok result =>
      obtain ⟨s', response⟩ := result
      obtain ⟨params, hparams, hcount⟩ := bind_eq_ok.mp hcount
      have hrecorded : NoStranding mc
          (recordVote s now (r.signedVote job.taskId) validationMs (isoformat now)) :=
        h.congr rfl rfl rfl rfl
      refine hrecorded.finalizeSubmitted ?_ ?_ hcount
      · exact ⟨hjob, htask⟩
      intro hrejects hquorum
      refine hreject job.taskId ⟨job, task, validator, hcheck, ⟨hpending, ?_, hrejects,
        ⟨validator, hvalidator, hverifies⟩, params, hparams, ?_⟩, rfl⟩
      · rw [← Bool.not_eq_true]
        exact hnew
      · rw [← counts_recordVote s now hrejects validationMs (isoformat now)]
        exact hquorum
  · exact h.congr rfl rfl rfl rfl

/-- A vote message keeps it. -/
theorem NoStranding.gossip {mc : MiningConfig} {services : BlockServices σ} {now : Instant}
    {s s' : MiningState σ} (h : NoStranding mc s) {m : VoteMessage}
    (hreject : ∀ taskId, RejectsTask mc now s taskId (.gossip m) → ¬HasSelected s taskId)
    (hreceive : receiveValidationVoteGossip mc services now s m = .ok s') : NoStranding mc s' := by
  unfold receiveValidationVoteGossip at hreceive
  dsimp only at hreceive
  split at hreceive
  · cases hreceive
  split at hreceive
  · cases hreceive
  next job hjob =>
  split at hreceive
  · cases hreceive
  next htaskId =>
  rw [not_not] at htaskId
  split at hreceive
  · cases hreceive
  next validator hvalidator =>
  -- a vote that was counted before only tries the finalization again
  split at hreceive
  · obtain ⟨params, -, hreceive⟩ := bind_eq_ok.mp hreceive
    obtain ⟨⟨s₁, response⟩, hfinalize, hreceive⟩ := bind_eq_ok.mp hreceive
    cases hreceive
    exact h.finalizeFromExistingVotes hjob hfinalize
  next hnew =>
  split at hreceive
  · next hverifies =>
    unfold countGossipedVote at hreceive
    dsimp only at hreceive
    split at hreceive
    · cases hreceive
    next task htask =>
    obtain ⟨params, hparams, hreceive⟩ := bind_eq_ok.mp hreceive
    have hrecorded : NoStranding mc (recordVote s now m.signedVote (intOr m.validationMs 0)
        (textOr m.createdAt (isoformat now))) := h.congr rfl rfl rfl rfl
    split at hreceive
    · next hpending =>
      obtain ⟨⟨s₁, response⟩, hfinalize, hreceive⟩ := bind_eq_ok.mp hreceive
      cases hreceive
      have hown : s.tasks.find? job.taskId = some task := by
        rw [htaskId]
        exact htask
      refine hrecorded.finalizeFromGossip ?_ ?_ hfinalize
      · exact ⟨hjob, hown⟩
      intro hrejects hquorum
      refine hreject job.taskId ⟨job, task, hjob, htask, ⟨hpending, ?_, hrejects,
        ⟨validator, hvalidator, hverifies⟩, params, hparams, ?_⟩, htaskId, rfl⟩
      · rw [← Bool.not_eq_true]
        exact hnew
      · rw [← counts_recordVote s now hrejects (intOr m.validationMs 0)
          (textOr m.createdAt (isoformat now))]
        exact hquorum
    · cases hreceive
      exact hrecorded
  · cases hreceive

/-! ## The clean-up -/

/-- A task that is closed stays settled. -/
theorem settled_closeRevealed {task : TaskRow} (h : task.status.settled) (status : TaskStatus)
    (timestamp : String) (reason : Option String) :
    (TaskRow.closeRevealed status timestamp reason task).status.settled := by
  unfold TaskRow.closeRevealed
  split
  · next hrevealed =>
    rw [hrevealed] at h
    rcases h with h | h <;> cases h
  · exact h

/-- The task of a terminal job is settled without a selection. -/
theorem NoStranding.closeTerminalTask {mc : MiningConfig} {s : MiningState σ} (h : NoStranding mc s)
    (now : String) (job : ValidationJobRow) :
    NoStranding mc (closeTerminalValidationTask now s job) := by
  have hrelease : ∀ status timestamp reason, NoStranding mc
      { s with
        tasks := s.tasks.modify job.taskId (TaskRow.closeRevealed status timestamp reason)
        mempool := releaseSelectedTransactions s.mempool job.taskId timestamp } := by
    intro status timestamp reason
    have hleaves : Leaves s
        { s with
          tasks := s.tasks.modify job.taskId (TaskRow.closeRevealed status timestamp reason)
          mempool := releaseSelectedTransactions s.mempool job.taskId timestamp } job.taskId :=
      leaves_of_release
        (fun task hsettled => settled_closeRevealed hsettled status timestamp reason) rfl rfl rfl rfl
    exact h.leave hleaves
  unfold closeTerminalValidationTask
  dsimp only
  split
  · exact h
  · split
    · next hblock =>
      -- the task of a block is settled, so that nothing is selected for it
      obtain ⟨b, hb, hid⟩ := List.any_eq_true.mp hblock
      obtain ⟨task, hfind, hsettled⟩ := h.built b hb
      rw [of_decide_eq_true hid] at hfind
      have hnone : ¬HasSelected s job.taskId := by
        apply h.not_hasSelected
        intro task' hfind'
        rw [hfind] at hfind'
        cases hfind'
        exact not_active_of_settled hsettled
      have hleaves : Leaves s
          { s with
            tasks := s.tasks.modify job.taskId
              (TaskRow.closeRevealed .accepted (textOr job.completedAt now) none) } job.taskId :=
        leaves_of_modify (fun task hsettled => settled_closeRevealed hsettled .accepted
          (textOr job.completedAt now) none) hnone rfl rfl rfl rfl
      exact h.leave hleaves
    · exact hrelease _ _ _
  · exact hrelease _ _ _
  · exact hrelease _ _ _

/-- So are those of all terminal jobs. -/
theorem NoStranding.closeTerminalTasks {mc : MiningConfig} {s : MiningState σ} (h : NoStranding mc s)
    (now : String) : NoStranding mc (closeTerminalValidationTasks now s) := by
  unfold closeTerminalValidationTasks
  generalize s.jobs.rows.filter _ = finished
  induction finished generalizing s with
  | nil => exact h
  | cons r rest ih => exact ih (h.closeTerminalTask now r.2)

/-- Obsolete jobs are closed with their tasks, which give up their transactions. -/
theorem NoStranding.closeObsoleteJobs {tc : TaskConfig σ} {now : String} {s s' : MiningState σ}
    (h : NoStranding tc.toMiningConfig s)
    (hclose : closeObsoleteCompetitiveValidationJobs tc now s = .ok s') :
    NoStranding tc.toMiningConfig s' := by
  unfold closeObsoleteCompetitiveValidationJobs at hclose
  refine foldlM_invariant (NoStranding tc.toMiningConfig) _ ?_ s s' h hclose
  intro r _ s₁ s₂ h₁ hjob
  obtain ⟨reason, -, hjob⟩ := bind_eq_ok.mp hjob
  split at hjob
  · cases hjob
    exact h₁.markStale _ _ _
  · cases hjob
    exact h₁

/-- What expires in the clean-up was being worked on. -/
theorem active_of_mem_expiringTasks {tc : TaskConfig σ} {now : String} {s : MiningState σ} :
    ∀ {rows : List (String × TaskRow)} {expiring : List String},
      expiringTasks tc now s rows = .ok expiring →
        ∀ taskId ∈ expiring, ∃ task, (taskId, task) ∈ rows ∧ task.status.active = true := by
  intro rows
  induction rows with
  | nil =>
    intro expiring h taskId hmem
    cases h
    cases hmem
  | cons r rest ih =>
    intro expiring h taskId hmem
    obtain ⟨expires, hexpires, h⟩ := bind_eq_ok.mp h
    obtain ⟨others, hothers, h⟩ := bind_eq_ok.mp h
    cases h
    have hrest : taskId ∈ others →
        ∃ task, (taskId, task) ∈ r :: rest ∧ task.status.active = true := by
      intro hmem
      obtain ⟨task, hrow, hactive⟩ := ih hothers taskId hmem
      exact ⟨task, List.mem_cons_of_mem _ hrow, hactive⟩
    cases expires with
    | false => exact hrest hmem
    | true =>
      rcases List.mem_cons.mp hmem with heq | hmem
      · rw [heq]
        refine ⟨r.2, List.mem_cons_self, ?_⟩
        unfold expiresNow at hexpires
        split at hexpires
        · cases hexpires
        · cases hstatus : r.2.status <;> rw [hstatus] at hexpires <;>
            first | rfl | cases hexpires
      · exact hrest hmem

/-- Tasks that expire give up their transactions. -/
theorem NoStranding.expireTasks {mc : MiningConfig} {now : String} :
    ∀ (expiring : List String) {s : MiningState σ}, NoStranding mc s →
      (∀ taskId ∈ expiring, ∀ task, s.tasks.find? taskId = some task → ¬task.status.settled) →
        NoStranding mc (expiring.foldl (expireTask now) s)
  | [], _, h, _ => h
  | taskId :: rest, s, h, hopen => by
    have h₁ : NoStranding mc (expireTask now s taskId) :=
      h.expire (fun task =>
        if task.status = .revealed then { task with status := .expired } else task)
        (hopen taskId List.mem_cons_self) rfl rfl rfl rfl
    refine NoStranding.expireTasks rest h₁ ?_
    intro other hmem task hfind
    unfold expireTask at hfind
    dsimp only at hfind
    rw [Sql.Table.find?_modify] at hfind
    split at hfind
    · next heq =>
      obtain ⟨old, hold, hexpired⟩ := Option.map_eq_some_iff.mp hfind
      rw [← hexpired]
      split
      · rintro (hsettled | hsettled) <;> cases hsettled
      · exact hopen taskId List.mem_cons_self old hold
    · exact hopen other (List.mem_cons_of_mem _ hmem) task hfind

/-- The first look of the clean-up at the clock: what it lists gives its transactions back. -/
theorem NoStranding.expireListed {tc : TaskConfig σ} {now : Instant} {s s' : MiningState σ}
    (h : NoStranding tc.toMiningConfig s) (hlisted : expireListedTasks tc now s = .ok s') :
    NoStranding tc.toMiningConfig s' := by
  obtain ⟨s₁, hobsolete, hlisted⟩ := bind_eq_ok.mp hlisted
  obtain ⟨expiring, hexpiring, hlisted⟩ := bind_eq_ok.mp hlisted
  cases hlisted
  have hreleased : NoStranding tc.toMiningConfig
      (releaseTimedOutValidationAssignments tc now s) := h.congr rfl rfl rfl rfl
  have h₁ := (hreleased.closeTerminalTasks (isoformat now)).closeObsoleteJobs hobsolete
  refine NoStranding.expireTasks expiring h₁ fun taskId hmem task hfind => ?_
  obtain ⟨row, hrow, hactive⟩ := active_of_mem_expiringTasks hexpiring taskId hmem
  rw [Sql.Table.find?_eq_some_iff.mpr hrow] at hfind
  cases hfind
  exact not_settled_of_active hactive

/-- No task with selected transactions runs out of time between the two looks of a clean-up at the
clock. -/
def InTime (tc : TaskConfig σ) (now swept : Instant) (s : MiningState σ) : Prop :=
  ∀ s₁, expireListedTasks tc now s = .ok s₁ → ∀ taskId task,
    s₁.tasks.find? taskId = some task → task.runsOut swept = true → ¬HasSelected s₁ taskId

/-- A settled task does not run out. -/
theorem not_runsOut_of_settled {task : TaskRow} (h : task.status.settled) (swept : Instant) :
    task.runsOut swept = false := by
  unfold TaskRow.runsOut
  rcases h with h | h <;> rw [h] <;> rfl

/-- The second look expires tasks without transactions only. -/
theorem NoStranding.expireRunOut {mc : MiningConfig} {swept : Instant} {s : MiningState σ}
    (h : NoStranding mc s) (hnone : ∀ taskId task, s.tasks.find? taskId = some task →
      task.runsOut swept = true → ¬HasSelected s taskId) :
    NoStranding mc (expireRunOutTasks swept s) := by
  have hkept : ∀ taskId task, s.tasks.find? taskId = some task → task.runsOut swept = false →
      (expireRunOutTasks swept s).tasks.find? taskId = some task := by
    intro taskId task hfind hstays
    unfold expireRunOutTasks
    rw [Sql.Table.find?_mapRows, hfind, Option.map_some, if_neg (Bool.eq_false_iff.mp hstays)]
  constructor
  · intro txHash row hrow hstatus
    obtain ⟨holder, hholder, ⟨task, hfind, hactive⟩, hfrozen⟩ := h.held txHash row hrow hstatus
    have hstays : task.runsOut swept = false := by
      refine Bool.eq_false_iff.mpr fun hruns => hnone holder task hfind hruns ?_
      exact ⟨txHash, row, hrow, selectedFor_iff.mpr ⟨hholder, hstatus⟩⟩
    exact ⟨holder, hholder, ⟨task, hkept holder task hfind hstays, hactive⟩, hfrozen⟩
  · intro b hb
    obtain ⟨task, hfind, hsettled⟩ := h.built b hb
    exact ⟨task, hkept _ task hfind (not_runsOut_of_settled hsettled swept), hsettled⟩

/-- The clean-up keeps it where no task runs out between its two readings of the clock. -/
theorem NoStranding.cleanUp {tc : TaskConfig σ} {now swept : Instant} {s s' : MiningState σ}
    (h : NoStranding tc.toMiningConfig s) (hintime : InTime tc now swept s)
    (hclean : expireAssignedTasks tc now swept s = .ok s') :
    NoStranding tc.toMiningConfig s' := by
  obtain ⟨s₁, hlisted, hclean⟩ := bind_eq_ok.mp hclean
  cases hclean
  exact (h.expireListed hlisted).expireRunOut (hintime s₁ hlisted)

/-! ## The requests of miners -/

/-- The first task that can be resumed keeps it. -/
theorem NoStranding.resume {tc : TaskConfig σ} (hreads : ReadsBack tc.toMiningConfig)
    {now : Instant} {s : MiningState σ} (h : NoStranding tc.toMiningConfig s)
    {params : ℤ × ProtocolParamsRow} :
    ∀ {rows : List (String × TaskRow)}, (∀ r ∈ rows, s.tasks.find? r.1 = some r.2) →
      ∀ {s' : MiningState σ}, resumeFirst tc now s params rows = .ok (some s') →
        NoStranding tc.toMiningConfig s'
  | [], _, s', hresume => by cases hresume
  | (taskId, task) :: rest, hrows, s', hresume => by
    unfold resumeFirst at hresume
    obtain ⟨revived, hrevive, hresume⟩ := bind_eq_ok.mp hresume
    have htask : s.tasks.find? taskId = some task := hrows (taskId, task) List.mem_cons_self
    cases revived with
    | some s₁ =>
      cases hresume
      exact h.reactivate hreads htask hrevive _ rfl
    | none => exact h.resume hreads (fun r hr => hrows r (List.mem_cons_of_mem _ hr)) hresume

/-- The tasks that can be resumed are rows of the table. -/
theorem find?_of_mem_resumableTasks {s : MiningState σ} {minerId : String} {r : String × TaskRow}
    (hr : r ∈ resumableTasks s minerId) : s.tasks.find? r.1 = some r.2 := by
  have hmem := List.mem_of_mem_take hr
  rw [List.mem_mergeSort, List.mem_filter] at hmem
  exact Sql.Table.find?_eq_some_iff.mpr hmem.1

/-- A call of `create_next_task` keeps it. -/
theorem NoStranding.nextTask {tc : TaskConfig σ} (hreads : ReadsBack tc.toMiningConfig)
    {now swept : Instant} {s s' : MiningState σ} (h : NoStranding tc.toMiningConfig s)
    {r : NextTaskRequest} (hintime : r.cleanUp = true → InTime tc now swept s)
    (hnext : createNextTask tc now swept s r = .ok s') :
    NoStranding tc.toMiningConfig s' := by
  obtain ⟨s₁, hclean, hnext⟩ := bind_eq_ok.mp hnext
  have h₁ : NoStranding tc.toMiningConfig s₁ := by
    split at hclean
    · next hcleans => exact h.cleanUp (hintime hcleans) hclean
    · cases hclean
      exact h
  obtain ⟨_, -, hnext⟩ := bind_eq_ok.mp hnext
  obtain ⟨params, -, hnext⟩ := bind_eq_ok.mp hnext
  obtain ⟨resumed, hresumed, hnext⟩ := bind_eq_ok.mp hnext
  cases resumed with
  | some revived =>
    cases hnext
    split at hresumed
    · exact h₁.resume hreads (fun r hr => find?_of_mem_resumableTasks hr) hresumed
    · cases hresumed
  | none =>
    obtain ⟨⟨s₂, active⟩, huse, hnext⟩ := bind_eq_ok.mp hnext
    have h₂ := h₁.useActiveTask huse
    dsimp only at hnext
    split at hnext
    · cases hnext
      exact h₂
    · split at hnext
      · cases hnext
      · exact h₂.assignNextTask hreads hnext

/-- What a commitment is decided on: the invariant still holds, and the task is the stored one. -/
theorem NoStranding.prepareCommit {tc : TaskConfig σ} (hreads : ReadsBack tc.toMiningConfig)
    {now swept : Instant} {s s' : MiningState σ} (h : NoStranding tc.toMiningConfig s)
    {r : CommitRequest} {found : Option (TaskRow × MinerRow)} (hintime : InTime tc now swept s)
    (hprepare : prepareCommit tc now swept s r = .ok (s', found)) :
    NoStranding tc.toMiningConfig s' ∧
      ∀ task miner, found = some (task, miner) → s'.tasks.find? r.taskId = some task := by
  obtain ⟨s₁, hclean, hprepare⟩ := bind_eq_ok.mp hprepare
  have h₁ := h.cleanUp hintime hclean
  split at hprepare
  · next task miner htask _ =>
    have hfind := (Option.filter_eq_some_iff.mp htask).1
    split at hprepare
    · obtain ⟨params, -, hprepare⟩ := bind_eq_ok.mp hprepare
      obtain ⟨revived, hrevive, hprepare⟩ := bind_eq_ok.mp hprepare
      cases revived with
      | some s₂ =>
        cases hprepare
        refine ⟨h₁.reactivate hreads hfind hrevive _ rfl, fun task' miner' hfound => ?_⟩
        obtain ⟨row, hrow, hpair⟩ := Option.map_eq_some_iff.mp hfound
        cases hpair
        exact hrow
      | none =>
        cases hprepare
        refine ⟨h₁, fun task' miner' hfound => ?_⟩
        cases hfound
        exact hfind
    · cases hprepare
      refine ⟨h₁, fun task' miner' hfound => ?_⟩
      cases hfound
      exact hfind
  · cases hprepare
    refine ⟨h₁, fun task' miner' hfound => ?_⟩
    cases hfound

/-- Only the result of an assigned task is committed, or finds the time of the task run out. -/
theorem assigned_of_commitDecision {tc : TaskConfig σ} {later : Instant} {s : MiningState σ}
    {r : CommitRequest} {task : TaskRow} {miner : MinerRow} {decision : CommitDecision}
    (h : commitDecision tc later s r task miner = .ok decision)
    (hdecision : decision = .expired ∨ ∃ frozen, decision = .commit frozen) :
    task.status = .assigned := by
  unfold commitDecision at h
  cases hstatus : task.status with
  | assigned => rfl
  | committed =>
    rw [hstatus] at h
    cases h
    unfold commitAgain at hdecision
    split at hdecision
    · rcases hdecision with hdecision | ⟨_, hdecision⟩ <;> cases hdecision
    split at hdecision
    · rcases hdecision with hdecision | ⟨_, hdecision⟩ <;> cases hdecision
    split at hdecision
    · rcases hdecision with hdecision | ⟨_, hdecision⟩ <;> cases hdecision
    split at hdecision <;> rcases hdecision with hdecision | ⟨_, hdecision⟩ <;> cases hdecision
  | stale | revealed | accepted | rejected | expired =>
    rw [hstatus] at h
    cases h
    rcases hdecision with hdecision | ⟨_, hdecision⟩ <;> cases hdecision

/-- A commitment keeps the transactions of its task. -/
theorem NoStranding.storeCommitment {tc : TaskConfig σ} {now : String} {s s' : MiningState σ}
    (h : NoStranding tc.toMiningConfig s) {r : CommitRequest} {task : TaskRow}
    (htask : s.tasks.find? r.taskId = some task) (hassigned : task.status = .assigned)
    {frozen : FrozenFields} (hstore : storeCommitment tc now s r task frozen = .ok s') :
    NoStranding tc.toMiningConfig s' := by
  obtain ⟨params, -, hstore⟩ := bind_eq_ok.mp hstore
  split at hstore
  · cases hstore
  cases hstore
  apply h.stay
  apply stays_of_modify
  case htasks => dsimp only
  case hmempool => rfl
  case hsnapshots => rfl
  case hblocks => rfl
  intro row hrow
  rw [htask] at hrow
  cases hrow
  refine ⟨fun _ => rfl, fun hsettled => ?_⟩
  exact absurd hsettled (not_settled_of_active (by rw [hassigned]; rfl))

/-- A call of `commit_task` keeps it. -/
theorem NoStranding.commit {tc : TaskConfig σ} (hreads : ReadsBack tc.toMiningConfig)
    {now swept later : Instant} {s s' : MiningState σ} (h : NoStranding tc.toMiningConfig s)
    {r : CommitRequest} (hswept : InTime tc now swept s)
    (hintime : ∀ s₁ task miner,
      Picoin.prepareCommit tc now swept s r = .ok (s₁, some (task, miner)) →
        commitDecision tc later s₁ r task miner = .ok .expired → ¬HasSelected s₁ r.taskId)
    (hcommit : commitTask tc now swept later s r = .ok s') :
    NoStranding tc.toMiningConfig s' := by
  obtain ⟨⟨s₁, found⟩, hprepare, hcommit⟩ := bind_eq_ok.mp hcommit
  obtain ⟨h₁, hfound⟩ := h.prepareCommit hreads hswept hprepare
  cases found with
  | none =>
    cases hcommit
    exact h₁
  | some pair =>
    obtain ⟨task, miner⟩ := pair
    have htask := hfound task miner rfl
    obtain ⟨decision, hdecision, hcommit⟩ := bind_eq_ok.mp hcommit
    cases decision with
    | rejected message =>
      cases hcommit
      exact h₁
    | known =>
      cases hcommit
      exact h₁
    | stale reason =>
      cases hcommit
      exact h₁
    | roundClosed =>
      cases hcommit
      exact h₁.markStale _ _ _
    -- no transactions are released here: the run says that there are none
    | expired =>
      cases hcommit
      have hassigned := assigned_of_commitDecision hdecision (.inl rfl)
      have hnone := hintime s₁ task miner hprepare hdecision
      have hleaves : Leaves s₁
          { s₁ with
            tasks := s₁.tasks.modify r.taskId fun task => { task with status := .expired } }
          r.taskId := by
        refine ⟨fun id hne => Sql.Table.find?_modify_ne _ _ hne, fun row hrow hsettled => ?_,
          fun txHash row hrow hstatus => ⟨hrow, fun hfor => ?_⟩, rfl, rfl⟩
        · rw [htask] at hrow
          cases hrow
          exact absurd hsettled (not_settled_of_active (by rw [hassigned]; rfl))
        · exact hnone ⟨txHash, row, hrow, selectedFor_iff.mpr ⟨hfor, hstatus⟩⟩
      exact h₁.leave hleaves
    | commit frozen =>
      have hassigned := assigned_of_commitDecision hdecision (.inr ⟨frozen, rfl⟩)
      exact h₁.storeCommitment htask hassigned hcommit

/-- Only the result of a committed task is validated. -/
theorem committed_of_revealDecision {tc : TaskConfig σ} {s : MiningState σ} {r : RevealRequest}
    {task : TaskRow} {miner : MinerRow} {commitment : CommitmentRow} {frozen : FrozenFields}
    (h : revealDecision tc s r task miner commitment = .ok (.validate frozen)) :
    task.status = .committed := by
  unfold revealDecision at h
  dsimp only at h
  cases hstatus : task.status with
  | committed => rfl
  | stale | expired | assigned =>
    rw [hstatus] at h
    cases h
  | revealed | accepted | rejected =>
    rw [hstatus] at h
    have hanswer := Except.ok.inj h
    split at hanswer <;> cases hanswer

/-- The start of a validation keeps the transactions of its task. -/
theorem NoStranding.startValidation {tc : TaskConfig σ} {now : Instant} {s s' : MiningState σ}
    (h : NoStranding tc.toMiningConfig s) {r : RevealRequest} {task : TaskRow}
    (htask : ∀ row, s.tasks.find? r.taskId = some row → row = task)
    (hcommitted : task.status = .committed) {commitment : CommitmentRow} {frozen : FrozenFields}
    (hstart : startValidation tc now s r task commitment frozen = .ok s') :
    NoStranding tc.toMiningConfig s' := by
  unfold Picoin.startValidation at hstart
  split at hstart
  · cases hstart
    exact h
  split at hstart
  · cases hstart
  obtain ⟨params, -, hstart⟩ := bind_eq_ok.mp hstart
  dsimp only at hstart
  split at hstart
  · cases hstart
  cases hstart
  apply h.stay
  apply stays_of_modify
  case htasks => dsimp only
  case hmempool => rfl
  case hsnapshots => rfl
  case hblocks => rfl
  intro row hrow
  rw [htask row hrow]
  refine ⟨fun _ => rfl, fun hsettled => ?_⟩
  exact absurd hsettled (not_settled_of_active (by rw [hcommitted]; rfl))

/-- A call of `reveal_task` keeps it. -/
theorem NoStranding.reveal {tc : TaskConfig σ} (hreads : ReadsBack tc.toMiningConfig)
    {now swept : Instant} {s s' : MiningState σ} (h : NoStranding tc.toMiningConfig s)
    {r : RevealRequest} (hintime : InTime tc now swept s)
    (hreveal : revealTask tc now swept s r = .ok s') : NoStranding tc.toMiningConfig s' := by
  obtain ⟨s₁, hclean, hreveal⟩ := bind_eq_ok.mp hreveal
  have h₁ := h.cleanUp hintime hclean
  split at hreveal
  · next task commitment miner htask _ _ =>
    have hfind := (Option.filter_eq_some_iff.mp htask).1
    obtain ⟨revived, hrevive, hreveal⟩ := bind_eq_ok.mp hreveal
    -- a stale task that is revived has its transactions selected again
    have h₂ : NoStranding tc.toMiningConfig (revived.getD s₁) := by
      cases revived with
      | none => exact h₁
      | some s₂ =>
        unfold reviveForReveal at hrevive
        split at hrevive
        · obtain ⟨params, -, hrevive⟩ := bind_eq_ok.mp hrevive
          exact h₁.reactivate hreads hfind hrevive s₂ rfl
        · cases hrevive
    dsimp only at hreveal
    obtain ⟨decision, hdecision, hreveal⟩ := bind_eq_ok.mp hreveal
    -- the decision closes the task and releases, or starts a validation
    cases decision with
    | answer =>
      cases hreveal
      exact h₂
    | release =>
      cases hreveal
      exact h₂.release _ _
    | reject =>
      cases hreveal
      exact h₂.rejectAndRelease _ _
    | stale reason =>
      cases hreveal
      exact h₂.markStale _ _ _
    | validate frozen =>
      refine h₂.startValidation ?_ (committed_of_revealDecision hdecision) hreveal
      intro row hrow
      cases revived with
      | none =>
        rw [Option.getD_none, hfind] at hrow
        cases hrow
        rfl
      | some s₂ =>
        rw [Option.getD_some] at hrow ⊢
        rw [Option.isSome_some, if_pos rfl, hrow, Option.getD_some]
  · cases hreveal
    exact h₁.release _ _

/-! ## Every run -/

/-- The requests that work on tasks. A clean-up reads the time again when it has `swept`, and a
commitment once more. -/
inductive TaskCall where
  | next (swept : Instant) (r : NextTaskRequest)
  | commit (swept later : Instant) (r : CommitRequest)
  | reveal (swept : Instant) (r : RevealRequest)
  | vote (call : VoteCall)
  | expire (swept : Instant)

/-- One request; a request that raises changes nothing. -/
def TaskCall.step (tc : TaskConfig σ) (services : BlockServices σ) (s : MiningState σ)
    (call : Instant × TaskCall) : MiningState σ :=
  match call.2 with
  | .next swept r => attempt (createNextTask tc call.1 swept s r) s
  | .commit swept later r => attempt (commitTask tc call.1 swept later s r) s
  | .reveal swept r => attempt (revealTask tc call.1 swept s r) s
  | .vote request => VoteCall.step tc.toMiningConfig services s (call.1, request)
  | .expire swept => attempt (expireAssignedTasks tc call.1 swept s) s

/-- The request completes no rejection for a task with selected transactions, and finds no such
task run out of time between two looks at the clock. -/
def Unstranding (tc : TaskConfig σ) (s : MiningState σ) (call : Instant × TaskCall) : Prop :=
  match call.2 with
  | .vote request => ∀ taskId, RejectsTask tc.toMiningConfig call.1 s taskId request →
    ¬HasSelected s taskId
  | .commit swept later r => InTime tc call.1 swept s ∧ ∀ s₁ task miner,
    prepareCommit tc call.1 swept s r = .ok (s₁, some (task, miner)) →
      commitDecision tc later s₁ r task miner = .ok .expired → ¬HasSelected s₁ r.taskId
  | .next swept r => r.cleanUp = true → InTime tc call.1 swept s
  | .reveal swept _ | .expire swept => InTime tc call.1 swept s

/-- Every call keeps it, where its clean-up is in time and it rejects no task with transactions. -/
theorem NoStranding.step {tc : TaskConfig σ} (hreads : ReadsBack tc.toMiningConfig)
    (services : BlockServices σ) (s : MiningState σ) (call : Instant × TaskCall)
    (h : NoStranding tc.toMiningConfig s) (hcall : Unstranding tc s call) :
    NoStranding tc.toMiningConfig (TaskCall.step tc services s call) := by
  obtain ⟨now, call⟩ := call
  cases call with
  | next swept r => exact attempt_of h fun _ hnext => h.nextTask hreads hcall hnext
  | commit swept later r =>
    exact attempt_of h fun _ hcommit => h.commit hreads hcall.1 hcall.2 hcommit
  | reveal swept r => exact attempt_of h fun _ hreveal => h.reveal hreads hcall hreveal
  | expire swept => exact attempt_of h fun _ hclean => h.cleanUp hcall hclean
  | vote request =>
    cases request with
    | submit validationMs r => exact h.submit hcall
    | gossip m => exact attempt_of h fun _ hreceive => h.gossip hcall hreceive

/-- Through every run of such requests, a selected transaction has a task that is worked on. -/
theorem selected_held (tc : TaskConfig σ) (hreads : ReadsBack tc.toMiningConfig)
    (services : BlockServices σ) (s : MiningState σ) (hs : NoStranding tc.toMiningConfig s)
    (calls : List (Instant × TaskCall))
    (h : EachStep (TaskCall.step tc services) (Unstranding tc) s calls) :
    ∀ s' ∈ states (TaskCall.step tc services) s calls, ∀ txHash row,
      s'.mempool.find? txHash = some row → row.status = .selected →
        ∃ taskId task, row.selectedTaskId = some taskId ∧
          s'.tasks.find? taskId = some task ∧ task.status.active = true := by
  intro s' hs' txHash row hrow hstatus
  have hinvariant : NoStranding tc.toMiningConfig s' :=
    invariant_of_eachStep (fun s₁ call h₁ hcall => h₁.step hreads services s₁ call hcall) calls s hs
      h s' hs'
  obtain ⟨taskId, hholder, hheld⟩ := hinvariant.held txHash row hrow hstatus
  obtain ⟨task, hfind, hactive⟩ := hheld.active
  exact ⟨taskId, task, hholder, hfind, hactive⟩

/-! ## A rejected task -/

open Classical in
/-- `json.loads` of the text of a list, by the list that it is the text of. -/
noncomputable def loadTxHashes (text : String) : Option (List String) :=
  if h : ∃ txHashes, txHashesJson txHashes = text then some h.choose else none

/-- The hashes that are written can be read. -/
theorem loadTxHashes_txHashesJson (txHashes : List String) :
    loadTxHashes (txHashesJson txHashes) = some txHashes := by
  have hsome : ∃ other, txHashesJson other = txHashesJson txHashes := ⟨txHashes, rfl⟩
  unfold loadTxHashes
  rw [dif_pos hsome]
  exact congrArg some (Json.canonicalJson_strings_inj hsome.choose_spec)

/-- Tasks on the local network: nothing is selected any more, and no range is free. -/
noncomputable def localTasks : TaskConfig Unit :=
  { localMining with
    jsonLoads := loadTxHashes
    competitiveMode := true
    maxTransactionsPerBlock := 100
    selectTransactionsForTask := fun _ _ _ => ⟨[], []⟩
    competitiveRoundAssignment := fun _ _ =>
      .error (.mining 409 "no assignable competitive range available in active window")
    assignPseudoRandomRange := fun _ _ _ _ =>
      .error (.mining 409 "no assignable competitive range available in active window")
    taskExpiry := fun _ _ _ => "2026-05-10T00:10:00+00:00"
    resolveMaxPosition := fun params => params.maxPiPosition
    eligibleValidators := fun _ => ["validator-1", "validator-2"]
    assignmentTimedOut := fun _ _ => false
    checkMiner := fun _ _ _ => .ok ()
    challengeSamples := fun _ _ _ _ => "[]"
    samplePositions := fun _ => [] }

/-- A transaction that is selected for the local task. -/
def localSelected : SelectableRow where
  feeUnits := 1000
  status := .selected
  selectedTaskId := some "task-1"
  expiresAt := none

/-- The local task has a transaction in its snapshot, and its validation is going on. -/
def localHolding : MiningState Unit :=
  { localVoting with
    mempool := .upsert .empty "tx-1" localSelected
    snapshots := .upsert .empty "snapshot-1"
      { taskId := "task-1"
        blockHeight := 1
        txHashesJson := txHashesJson ["tx-1"]
        txMerkleRoot := txMerkleRoot localConfig ["tx-1"]
        txCount := 1
        txFeeTotalUnits := 1000
        createdAt := "2026-05-10T00:00:00+00:00" } }

/-- It holds of a task that has transactions selected. -/
theorem noStranding_localHolding : NoStranding localTasks.toMiningConfig localHolding := by
  refine ⟨fun txHash row hrow _ => ?_, fun b hb => absurd hb List.not_mem_nil⟩
  have hmempool : localHolding.mempool = Sql.Table.empty.upsert "tx-1" localSelected := rfl
  rw [hmempool, Sql.Table.find?_upsert] at hrow
  split at hrow
  · next hid =>
    have hselected : localSelected = row := Option.some.inj hrow
    rw [← hselected, hid]
    exact ⟨"task-1", rfl, ⟨localTask, rfl, rfl⟩, _, ["tx-1"], rfl, loadTxHashes_txHashesJson _,
      List.mem_singleton_self _⟩
  · cases hrow

/-- Another task, without transactions, whose time is up at ten past. -/
def idleTask : TaskRow :=
  { localTask with
    status := .assigned
    expiresAt := some "2026-05-10T00:10:00+00:00"
    mempoolSnapshotId := none }

/-- The local task, and the other one. -/
def localSweeping : MiningState Unit :=
  { localHolding with tasks := localHolding.tasks.upsert "task-2" idleTask }

/-- It holds of the two local tasks. -/
theorem noStranding_localSweeping :
    NoStranding localTasks.toMiningConfig localSweeping := by
  refine noStranding_localHolding.stay ⟨fun id task hfind hactive => ?_,
    fun id task hfind hsettled => ?_, fun _ _ hrow _ => hrow, rfl, rfl⟩
  all_goals
    have hid : id = "task-1" := by
      change (Sql.Table.empty.upsert "task-1" localTask).find? id = some task at hfind
      rw [Sql.Table.find?_upsert] at hfind
      split at hfind
      · assumption
      · cases hfind
    refine ⟨task, ?_, by assumption⟩
    change (localHolding.tasks.upsert "task-2" idleTask).find? id = some task
    rw [Sql.Table.find?_upsert_ne _ _ (by rw [hid]; decide)]
    exact hfind

/-- A clean-up is in time if the tasks that run out have no selected rows. -/
theorem inTime_of_returns {tc : TaskConfig σ} {now swept : Instant} {s : MiningState σ}
    (h : returns (expireListedTasks tc now s) (fun s₁ => s₁.tasks.rows.all fun r =>
      !r.2.runsOut swept || s₁.mempool.rows.all fun m => !m.2.selectedFor r.1) = true) :
    InTime tc now swept s := by
  intro s₁ hlisted taskId task hfind hruns
  rintro ⟨txHash, row, hrow, hselected⟩
  rw [hlisted] at h
  change (s₁.tasks.rows.all _) = true at h
  have htask := List.all_eq_true.mp h _ (Sql.Table.find?_eq_some_iff.mp hfind)
  rw [hruns, Bool.not_true, Bool.false_or] at htask
  have hnot := List.all_eq_true.mp htask _ (Sql.Table.find?_eq_some_iff.mp hrow)
  rw [hselected] at hnot
  cases hnot

/-- A clean-up that finds the time of the other task run out at its second look only, the approval
of a validator that nobody knows, and a request of the miner for its task. -/
def sweepingCalls : List (Instant × TaskCall) :=
  [(1778371799000000, .expire 1778371801000000),
    (1778371802000000, .vote (.submit 20 (localApproval "validator-9" "signed"))),
    (1778371803000000, .next 1778371803000000
      { minerId := "miner-1", cleanUp := true, taskId := fun _ => "task-3"
        retryTaskId := fun _ => "task-4" })]

/-- The other task is expired, and the transaction still has its own. -/
theorem selected_held_sweeping :
    ((sweepingCalls.foldl (TaskCall.step localTasks localServices) localSweeping).tasks.find?
      "task-2").map TaskRow.status = some .expired ∧
    ∃ taskId task, localSelected.selectedTaskId = some taskId ∧
      (sweepingCalls.foldl (TaskCall.step localTasks localServices) localSweeping).tasks.find?
        taskId = some task ∧ task.status.active = true := by
  refine ⟨by decide +kernel, ?_⟩
  have hfind : (sweepingCalls.foldl (TaskCall.step localTasks localServices)
      localSweeping).mempool.find? "tx-1" = some localSelected := by
    decide +kernel
  refine selected_held localTasks loadTxHashes_txHashesJson localServices localSweeping
    noStranding_localSweeping sweepingCalls ⟨?_, fun taskId hrejects => ?_, fun _ => ?_, trivial⟩ _
    (foldl_mem_states _ _ _) "tx-1" localSelected hfind rfl
  · exact inTime_of_returns (by decide +kernel)
  -- an approval completes no rejection
  · obtain ⟨job, task, validator, -, hcompletes, -⟩ := hrejects
    exact absurd hcompletes.rejects Bool.true_eq_false.mp
  · exact inTime_of_returns (by decide +kernel)

/-- A rejection of the job by the second validator. -/
def localRejection : SubmitRequest :=
  { localApproval "validator-2" "signed" with approved := false, reason := "invalid" }

/-- The rejection completes the quorum, and the transaction stays selected for a rejected task. -/
theorem rejection_strands :
    NoStranding localTasks.toMiningConfig localHolding ∧
    ∃ s' ∈ states (TaskCall.step localTasks localServices) localHolding
        [(1778371200000000, .vote (.submit 20 localRejection))],
      ∃ row, s'.mempool.find? "tx-1" = some row ∧ row.status = .selected ∧
        ¬∃ taskId task, row.selectedTaskId = some taskId ∧
          s'.tasks.find? taskId = some task ∧ task.status.active = true := by
  refine ⟨noStranding_localHolding, _, foldl_mem_states _ _ _, localSelected, rfl, rfl, ?_⟩
  rintro ⟨taskId, task, htaskId, htask, hactive⟩
  have hstatus : ((TaskCall.step localTasks localServices localHolding (1778371200000000,
      .vote (.submit 20 localRejection))).tasks.find? "task-1").map TaskRow.status =
        some .rejected := by
    decide +kernel
  have hown : "task-1" = taskId := Option.some.inj htaskId
  rw [← hown] at htask
  have hrejected := (congrArg (Option.map TaskRow.status) htask).symm.trans hstatus
  rw [Option.map_some, Option.some.injEq] at hrejected
  rw [hrejected] at hactive
  cases hactive

end Picoin
