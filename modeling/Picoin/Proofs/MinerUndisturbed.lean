import Picoin.Proofs.CertifiedResult
import Picoin.Proofs.NoStranding
import Picoin.Services.Penalties

/-!
# Requests in a miner's name

Anybody can send a commitment or a reveal that names a miner. `commit_task` takes up an expired
task before it looks at the signature, and most exits of `reveal_task` refuse the reveal, release
the transactions of its task and penalize the miner without having looked at it.

* **`Undisturbed`** — what a miner has left: its tasks, the transactions selected for them, its
  penalties and its standing;
* **`Quiet`** — no task of the miner passes its expiry time or has its round closed;
* **`Spares`** — the exits of a request that leave the miner alone;
* **`miner_undisturbed_of_run`** — a run of requests that the miner has not signed and that take
  these exits leaves the miner what it had;
* **`miner_spoiled`** — one reveal without a valid signature, and the miner's task is rejected.
-/

namespace Picoin

open Outcome Run

variable {σ : Type}

/-! ## What a miner has -/

/-- The task of the miner under the id. -/
def ownTask (s : MiningState σ) (minerId taskId : String) : Option TaskRow :=
  (s.tasks.find? taskId).filter fun task => task.minerId = minerId

/-- The transaction is selected for the task. -/
def isSelectedFor (s : MiningState σ) (taskId txHash : String) : Bool :=
  (s.mempool.find? txHash).any fun row => row.selectedFor taskId

/-- The tasks of the miner, with the transactions that are selected for them, are left alone. -/
structure KeepsTasks (minerId : String) (s s' : MiningState σ) : Prop where
  task : ∀ taskId, ownTask s' minerId taskId = ownTask s minerId taskId
  selected : ∀ taskId, (ownTask s minerId taskId).isSome = true → ∀ txHash,
    isSelectedFor s' taskId txHash = isSelectedFor s taskId txHash

/-- The miner keeps its tasks, their transactions, its penalties, its trust score and its
cooldown. -/
structure Undisturbed (minerId : String) (n n' : PenalizingNode σ) : Prop where
  tasks : KeepsTasks minerId n.state n'.state
  penalties : (n'.penalties.filter fun row => row.minerId = minerId) =
    n.penalties.filter fun row => row.minerId = minerId
  standing : n'.standings.find? minerId = n.standings.find? minerId

/-- Tasks that stay are kept. -/
theorem KeepsTasks.refl (minerId : String) (s : MiningState σ) : KeepsTasks minerId s s :=
  ⟨fun _ => rfl, fun _ _ _ => rfl⟩

/-- Tasks that are kept twice are kept. -/
theorem KeepsTasks.trans {minerId : String} {s s' s'' : MiningState σ}
    (h : KeepsTasks minerId s s') (h' : KeepsTasks minerId s' s'') : KeepsTasks minerId s s'' := by
  refine ⟨fun taskId => (h'.task taskId).trans (h.task taskId), fun taskId hown txHash => ?_⟩
  have hown' : (ownTask s' minerId taskId).isSome = true := by
    rw [h.task]
    exact hown
  exact (h'.selected taskId hown' txHash).trans (h.selected taskId hown txHash)

/-- The tasks and the transactions are all that matters. -/
theorem KeepsTasks.of_eq {minerId : String} {s s' : MiningState σ} (htasks : s'.tasks = s.tasks)
    (hmempool : s'.mempool = s.mempool) : KeepsTasks minerId s s' := by
  constructor
  · intro taskId
    unfold ownTask
    rw [htasks]
  · intro taskId _ txHash
    unfold isSelectedFor
    rw [hmempool]

/-- A node that stays leaves the miner undisturbed. -/
theorem Undisturbed.refl (minerId : String) (n : PenalizingNode σ) : Undisturbed minerId n n :=
  ⟨.refl minerId n.state, rfl, rfl⟩

/-- Calls that follow each other do. -/
theorem Undisturbed.trans {minerId : String} {n n' n'' : PenalizingNode σ}
    (h : Undisturbed minerId n n') (h' : Undisturbed minerId n' n'') : Undisturbed minerId n n'' :=
  ⟨h.tasks.trans h'.tasks, h'.penalties.trans h.penalties, h'.standing.trans h.standing⟩

/-! ## Steps on one task -/

/-- Only the task is written, which keeps its miner, and only its transactions are selected or
given back. -/
structure OnlyTask (taskId : String) (s s' : MiningState σ) : Prop where
  others : ∀ id, id ≠ taskId → s'.tasks.find? id = s.tasks.find? id
  miner : (s'.tasks.find? taskId).map TaskRow.minerId = (s.tasks.find? taskId).map TaskRow.minerId
  selected : ∀ id, id ≠ taskId → ∀ txHash, isSelectedFor s' id txHash = isSelectedFor s id txHash

/-- A state that stays touches no task. -/
theorem OnlyTask.refl (taskId : String) (s : MiningState σ) : OnlyTask taskId s s :=
  ⟨fun _ _ => rfl, rfl, fun _ _ _ => rfl⟩

/-- Two steps that touch one task touch only it. -/
theorem OnlyTask.trans {taskId : String} {s s' s'' : MiningState σ} (h : OnlyTask taskId s s')
    (h' : OnlyTask taskId s' s'') : OnlyTask taskId s s'' :=
  ⟨fun id hne => (h'.others id hne).trans (h.others id hne), h'.miner.trans h.miner,
    fun id hne txHash => (h'.selected id hne txHash).trans (h.selected id hne txHash)⟩

/-- A task is not the miner's if its row has another miner. -/
theorem ownTask_eq_none {s s' : MiningState σ} {minerId taskId : String}
    (hminer : (s'.tasks.find? taskId).map TaskRow.minerId =
      (s.tasks.find? taskId).map TaskRow.minerId) (h : ownTask s minerId taskId = none) :
    ownTask s' minerId taskId = none := by
  refine Option.filter_eq_none_iff.mpr fun task htask => ?_
  rw [htask, Option.map_some] at hminer
  obtain ⟨old, hold, hid⟩ := Option.map_eq_some_iff.mp hminer.symm
  have hother := Option.filter_eq_none_iff.mp h old hold
  rwa [hid] at hother

/-- A task has one miner. -/
theorem ownTask_eq_none_of_ne {s : MiningState σ} {minerId other taskId : String} {task : TaskRow}
    (hown : ownTask s minerId taskId = some task) (hne : other ≠ minerId) :
    ownTask s other taskId = none := by
  have hfilter := Option.filter_eq_some_iff.mp hown
  refine Option.filter_eq_none_iff.mpr fun row hrow hother => hne ?_
  rw [hfilter.1] at hrow
  cases hrow
  exact (of_decide_eq_true hother).symm.trans (of_decide_eq_true hfilter.2)

/-- A step on a task of somebody else leaves the miner's tasks alone. -/
theorem OnlyTask.keepsTasks {taskId minerId : String} {s s' : MiningState σ}
    (h : OnlyTask taskId s s') (hother : ownTask s minerId taskId = none) :
    KeepsTasks minerId s s' := by
  constructor
  · intro id
    by_cases heq : id = taskId
    · rw [heq, hother, ownTask_eq_none h.miner hother]
    · unfold ownTask
      rw [h.others id heq]
  · intro id hown txHash
    refine h.selected id (fun heq => ?_) txHash
    rw [heq, hother] at hown
    cases hown

/-- Giving the transactions of one task back leaves the selections of the others. -/
theorem any_selectedFor_release {mempool : Sql.Table String SelectableRow}
    {taskId timestamp : String} {id : String} (hne : id ≠ taskId) (txHash : String) :
    ((releaseSelectedTransactions mempool taskId timestamp).find? txHash).any
        (fun row => row.selectedFor id) =
      (mempool.find? txHash).any fun row => row.selectedFor id := by
  unfold releaseSelectedTransactions
  rw [Sql.Table.find?_mapRows, Option.any_map]
  refine congrArg (fun p => (mempool.find? txHash).any p) (funext fun row => ?_)
  show (if row.selectedFor taskId then row.release timestamp else row).selectedFor id = _
  split
  · next hfor =>
    have hold : row.selectedFor id = false := by
      refine Bool.eq_false_iff.mpr fun hid => hne ?_
      have hsame := (selectedFor_iff.mp hid).1.symm.trans (selectedFor_iff.mp hfor).1
      exact Option.some.inj hsame
    rw [hold]
    exact Bool.eq_false_iff.mpr fun hid => nomatch (selectedFor_iff.mp hid).1
  · rfl

/-- The task is rewritten, and its transactions are given back. -/
theorem onlyTask_of_release {s s' : MiningState σ} {taskId timestamp : String}
    {f : TaskRow → TaskRow} (hf : ∀ task, (f task).minerId = task.minerId)
    (htasks : s'.tasks = s.tasks.modify taskId f)
    (hmempool : s'.mempool = releaseSelectedTransactions s.mempool taskId timestamp) :
    OnlyTask taskId s s' := by
  refine ⟨fun id hne => ?_, ?_, fun id hne txHash => ?_⟩
  · rw [htasks, Sql.Table.find?_modify_ne _ _ hne]
  · rw [htasks]
    exact Sql.Table.map_find?_modify s.tasks taskId hf taskId
  · unfold isSelectedFor
    rw [hmempool]
    exact any_selectedFor_release hne txHash

/-- The task is rewritten. -/
theorem onlyTask_of_modify {s s' : MiningState σ} {taskId : String} {f : TaskRow → TaskRow}
    (hf : ∀ task, (f task).minerId = task.minerId) (htasks : s'.tasks = s.tasks.modify taskId f)
    (hmempool : s'.mempool = s.mempool) : OnlyTask taskId s s' := by
  refine ⟨fun id hne => ?_, ?_, fun id _ txHash => ?_⟩
  · rw [htasks, Sql.Table.find?_modify_ne _ _ hne]
  · rw [htasks]
    exact Sql.Table.map_find?_modify s.tasks taskId hf taskId
  · unfold isSelectedFor
    rw [hmempool]

/-- A refused reveal touches its task only. -/
theorem onlyTask_refuseReveal (now : String) (s : MiningState σ) (taskId : String) :
    OnlyTask taskId s (refuseReveal now s taskId) :=
  ⟨fun _ _ => rfl, rfl, fun _ hne txHash => any_selectedFor_release hne txHash⟩

/-- Nothing is given back for a task without selected transactions. -/
theorem keepsTasks_refuseReveal {now : String} {s : MiningState σ} {taskId : String}
    (hnone : ∀ txHash, isSelectedFor s taskId txHash = false) (minerId : String) :
    KeepsTasks minerId s (refuseReveal now s taskId) := by
  refine ⟨fun _ => rfl, fun id _ txHash => ?_⟩
  by_cases heq : id = taskId
  · rw [heq, hnone txHash]
    have hrow : ((releaseSelectedTransactions s.mempool taskId now).find? txHash) =
        s.mempool.find? txHash := by
      unfold releaseSelectedTransactions
      rw [Sql.Table.find?_mapRows]
      cases hfind : s.mempool.find? txHash with
      | none => rfl
      | some row =>
        have hfor := hnone txHash
        unfold isSelectedFor at hfor
        rw [hfind, Option.any_some] at hfor
        rw [Option.map_some, hfor]
        rfl
    unfold refuseReveal isSelectedFor
    dsimp only
    rw [hrow]
    exact hnone txHash
  · exact any_selectedFor_release heq txHash

/-- So does a rejection that releases transactions. -/
theorem onlyTask_rejectAndRelease (s : MiningState σ) (taskId timestamp : String) :
    OnlyTask taskId s (rejectAndRelease s taskId timestamp) := by
  unfold rejectAndRelease rejectTask
  apply onlyTask_of_release
  case htasks => dsimp only
  case hmempool => rfl
  exact fun task => rfl

/-- So does the mark of a stale task. -/
theorem onlyTask_markStale (s : MiningState σ) (taskId reason timestamp : String) :
    OnlyTask taskId s (markCompetitiveTaskStale s taskId reason timestamp) := by
  unfold markCompetitiveTaskStale
  apply onlyTask_of_release
  case htasks => dsimp only
  case hmempool => rfl
  intro task
  split <;> rfl

/-- Pending transactions that fail were selected for nothing. -/
theorem any_selectedFor_fail (mempool : Sql.Table String SelectableRow) (failed : List String)
    (id txHash : String) :
    ((failTransactions mempool failed).find? txHash).any (fun row => row.selectedFor id) =
      (mempool.find? txHash).any fun row => row.selectedFor id := by
  unfold failTransactions
  rw [Sql.Table.find?_mapRows, Option.any_map]
  refine congrArg (fun p => (mempool.find? txHash).any p) (funext fun row => ?_)
  show (if txHash ∈ failed ∧ row.status = .pending then { row with status := .failed } else row
    ).selectedFor id = _
  split
  · next hpending =>
    unfold SelectableRow.selectedFor
    rw [hpending.2]
    rfl
  · rfl

/-- Selecting pending transactions for one task leaves the selections of the others. -/
theorem any_selectedFor_mark {mempool : Sql.Table String SelectableRow} {taskId id : String}
    (hne : id ≠ taskId) (txHashes : List String) (txHash : String) :
    ((markSelected mempool taskId txHashes).find? txHash).any (fun row => row.selectedFor id) =
      (mempool.find? txHash).any fun row => row.selectedFor id := by
  unfold markSelected
  rw [Sql.Table.find?_mapRows, Option.any_map]
  refine congrArg (fun p => (mempool.find? txHash).any p) (funext fun row => ?_)
  show (if txHash ∈ txHashes ∧ row.status = .pending then
    { row with status := .selected, selectedTaskId := some taskId } else row).selectedFor id = _
  split
  · next hpending =>
    have hold : row.selectedFor id = false := by
      unfold SelectableRow.selectedFor
      rw [hpending.2, Bool.and_eq_false_iff]
      exact .inr rfl
    rw [hold]
    refine Bool.eq_false_iff.mpr fun hfor => hne ?_
    exact (Option.some.inj (selectedFor_iff.mp hfor).1).symm
  · rfl

/-- The freeze of transactions touches its task only. -/
theorem onlyTask_freeze {tc : TaskConfig σ} {s s' : MiningState σ} {taskId : String}
    {blockHeight : ℤ} {timestamp : String}
    (h : freezeTransactionsForTask tc s taskId blockHeight timestamp = .ok s') :
    OnlyTask taskId s s' := by
  obtain ⟨s₁, hstore, h⟩ := bind_eq_ok.mp h
  cases h
  obtain ⟨⟨snapshotId, htasks⟩, hmempool, -⟩ := storeTaskTxSnapshot_eq_ok hstore
  have hminer : ∀ commitment task,
      (TaskRow.withSnapshot snapshotId commitment task).minerId = task.minerId := fun _ _ => rfl
  refine ⟨fun id hne => ?_, ?_, fun id hne txHash => ?_⟩
  · show s₁.tasks.find? id = s.tasks.find? id
    rw [htasks, Sql.Table.find?_modify_ne _ _ hne]
  · show (s₁.tasks.find? taskId).map TaskRow.minerId = _
    rw [htasks]
    exact Sql.Table.map_find?_modify s.tasks taskId (hminer _) taskId
  · show ((markSelected s₁.mempool taskId _).find? txHash).any _ = _
    rw [any_selectedFor_mark hne, hmempool]
    exact any_selectedFor_fail _ _ _ _

/-- So does that of a round. -/
theorem onlyTask_freezeRound {tc : TaskConfig σ} {s s' : MiningState σ} {taskId : String}
    {blockHeight : ℤ} {seed : Option String} {timestamp : String}
    (h : freezeTransactionsForCompetitiveRoundTask tc s taskId blockHeight seed timestamp =
      .ok s') : OnlyTask taskId s s' := by
  unfold freezeTransactionsForCompetitiveRoundTask at h
  dsimp only at h
  split at h
  · cases h
    exact onlyTask_of_modify (f := TaskRow.withSnapshot _ _) (fun _ => rfl) rfl rfl
  · exact onlyTask_freeze h

/-- Only an expired task that can be taken up again is. -/
theorem reactivate_eq_ok {tc : TaskConfig σ} {now : Instant} {s s' : MiningState σ}
    {taskId : String} {task : TaskRow} {assignment : Option Assignment}
    {params : ℤ × ProtocolParamsRow}
    (h : reactivateExpiredCompetitiveTask tc now s taskId task assignment params =
      .ok (some s')) : canReactivate s taskId task assignment = true ∧ OnlyTask taskId s s' := by
  unfold reactivateExpiredCompetitiveTask at h
  split at h
  · cases h
  next hcan =>
  have hcan' : canReactivate s taskId task assignment = true := by
    cases hc : canReactivate s taskId task assignment with
    | true => rfl
    | false =>
      rw [hc] at hcan
      exact absurd rfl hcan
  refine ⟨hcan', ?_⟩
  have hminer : ∀ status now expiresAt task,
      (TaskRow.reactivate status now expiresAt task).minerId = task.minerId := by
    intro status now expiresAt task
    unfold TaskRow.reactivate
    split <;> rfl
  dsimp only at h
  split at h
  · cases h
    exact onlyTask_of_modify (hminer _ _ _) rfl rfl
  · obtain ⟨s₂, hfreeze, h⟩ := bind_eq_ok.mp h
    cases h
    refine OnlyTask.trans ?_ (onlyTask_freezeRound hfreeze)
    exact onlyTask_of_release (hminer _ _ _) rfl rfl

/-! ## The clean-up -/

/-- The tasks whose pending jobs the clean-up looks at, in its order. -/
def competingTasks (s : MiningState σ) : List (String × TaskRow) :=
  let competing := s.tasks.rows.filter fun r => r.2.status.active && r.2.competitive &&
    s.jobs.rows.any fun job => job.2.taskId = r.1 && job.2.status = .pending
  competing.mergeSort fun a b => a.2.createdAt < b.2.createdAt ||
    (a.2.createdAt = b.2.createdAt && a.1 ≤ b.1)

/-- The tables when the clean-up begins to look at the rounds. -/
def beforeRounds (tc : TaskConfig σ) (now : Instant) (s : MiningState σ) : MiningState σ :=
  closeTerminalValidationTasks (isoformat now) (releaseTimedOutValidationAssignments tc now s)

/-- The tables at which a request looks at a round: in the middle of its clean-up, and after it. -/
inductive SeesRounds (tc : TaskConfig σ) (now swept : Instant) (s : MiningState σ) :
    MiningState σ → Prop
  | closing {earlier rest : List (String × TaskRow)} {s' : MiningState σ}
    (hrows : competingTasks (beforeRounds tc now s) = earlier ++ rest)
    (h : earlier.foldlM (closeObsoleteJob tc (isoformat now)) (beforeRounds tc now s) = .ok s') :
    SeesRounds tc now swept s s'
  | cleaned {s' : MiningState σ} (h : expireAssignedTasks tc now swept s = .ok s') :
    SeesRounds tc now swept s s'

/-- No task of the miner passes its expiry time or has its round closed while the request is
answered, and no validation of one has ended without its task. -/
structure Quiet (tc : TaskConfig σ) (minerId : String) (now swept later : Instant)
    (s : MiningState σ) : Prop where
  expiry : ∀ taskId task, ownTask s minerId taskId = some task → task.status.active = true →
    task.pastExpiry (isoformat now) = false ∧
      ((task.expiresAt.bind tc.parseIso).any fun expiresAt => expiresAt ≤ later) = false
  sweep : ∀ taskId task, ownTask s minerId taskId = some task → task.status.active = true →
    task.pastExpiry (isoformat swept) = false
  round : ∀ taskId task, ownTask s minerId taskId = some task → task.status.active = true →
    ∀ s', SeesRounds tc now swept s s' → ∀ reason, obsoleteReason tc s' taskId task ≠ .ok (some reason)
  finished : ∀ jobId job, s.jobs.find? jobId = some job → job.status ≠ .pending →
    ∀ task, ownTask s minerId job.taskId = some task → task.status ≠ .revealed

/-- The blocks and the miners are left alone. -/
structure KeepsChain (s s' : MiningState σ) : Prop where
  blocks : s'.blocks = s.blocks
  miners : s'.miners = s.miners

/-- A chain that is kept twice is kept. -/
theorem KeepsChain.trans {s s' s'' : MiningState σ} (h : KeepsChain s s')
    (h' : KeepsChain s' s'') : KeepsChain s s'' :=
  ⟨h'.blocks.trans h.blocks, h'.miners.trans h.miners⟩

/-- What a part of the clean-up does: it leaves the miner's tasks, the blocks and the miners
alone. -/
structure Tidies (minerId : String) (s s' : MiningState σ) : Prop extends
    KeepsTasks minerId s s', KeepsChain s s'

/-- A state that stays is tidy. -/
theorem Tidies.refl (minerId : String) (s : MiningState σ) : Tidies minerId s s :=
  ⟨.refl minerId s, rfl, rfl⟩

/-- Two clean-ups are one. -/
theorem Tidies.trans {minerId : String} {s s' s'' : MiningState σ} (h : Tidies minerId s s')
    (h' : Tidies minerId s' s'') : Tidies minerId s s'' :=
  ⟨h.toKeepsTasks.trans h'.toKeepsTasks, h.toKeepsChain.trans h'.toKeepsChain⟩

/-- A terminal job closes its own task. -/
theorem onlyTask_closeTerminal (now : String) (s : MiningState σ) (job : ValidationJobRow) :
    OnlyTask job.taskId s (closeTerminalValidationTask now s job) := by
  have hminer : ∀ status timestamp reason task,
      (TaskRow.closeRevealed status timestamp reason task).minerId = task.minerId := by
    intro status timestamp reason task
    unfold TaskRow.closeRevealed
    split <;> rfl
  unfold closeTerminalValidationTask
  dsimp only
  split
  · exact .refl _ _
  · split
    · exact onlyTask_of_modify (hminer _ _ _) rfl rfl
    · exact onlyTask_of_release (hminer _ _ _) rfl rfl
  · exact onlyTask_of_release (hminer _ _ _) rfl rfl
  · exact onlyTask_of_release (hminer _ _ _) rfl rfl

/-- It keeps the chain. -/
theorem keepsChain_closeTerminal (now : String) (s : MiningState σ) (job : ValidationJobRow) :
    KeepsChain s (closeTerminalValidationTask now s job) := by
  unfold closeTerminalValidationTask
  dsimp only
  split
  · exact ⟨rfl, rfl⟩
  · split <;> exact ⟨rfl, rfl⟩
  · exact ⟨rfl, rfl⟩
  · exact ⟨rfl, rfl⟩

/-- Steps on tasks of others tidy. -/
theorem tidies_foldl {ι : Type} {minerId : String} {step : MiningState σ → ι → MiningState σ}
    {taskOf : ι → String} (honly : ∀ s x, OnlyTask (taskOf x) s (step s x))
    (hchain : ∀ s x, KeepsChain s (step s x)) :
    ∀ (xs : List ι) (s : MiningState σ), (∀ x ∈ xs, ownTask s minerId (taskOf x) = none) →
      Tidies minerId s (xs.foldl step s)
  | [], s, _ => .refl minerId s
  | x :: xs, s, hothers => by
    have hfirst := (honly s x).keepsTasks (hothers x List.mem_cons_self)
    have hrest := tidies_foldl honly hchain xs (step s x) fun y hy => by
      rw [hfirst.task]
      exact hothers y (List.mem_cons_of_mem _ hy)
    exact (Tidies.mk hfirst (hchain s x)).trans hrest

/-- The finished validations are those of others. -/
theorem tidies_closeTerminal {minerId : String} {s : MiningState σ}
    (hfinished : ∀ jobId job, s.jobs.find? jobId = some job → job.status ≠ .pending →
      ∀ task, ownTask s minerId job.taskId = some task → task.status ≠ .revealed) (now : String) :
    Tidies minerId s (closeTerminalValidationTasks now s) := by
  unfold closeTerminalValidationTasks
  refine tidies_foldl (fun s (r : String × ValidationJobRow) => onlyTask_closeTerminal _ s r.2)
    (fun s r => keepsChain_closeTerminal _ s r.2) _ s fun r hr => ?_
  obtain ⟨hmem, hkept⟩ := List.mem_filter.mp hr
  rw [Bool.and_eq_true, decide_eq_true_eq] at hkept
  refine Option.filter_eq_none_iff.mpr fun task htask hown => ?_
  have hrow : s.jobs.find? r.1 = some r.2 := Sql.Table.find?_eq_some_iff.mpr hmem
  rw [htask, Option.any_some, decide_eq_true_eq] at hkept
  exact hfinished r.1 r.2 hrow hkept.1 task
    (Option.filter_eq_some_iff.mpr ⟨htask, hown⟩) hkept.2

/-- The obsolete jobs are those of others. -/
theorem tidies_closeObsolete {tc : TaskConfig σ} {minerId now : String} {s₀ : MiningState σ}
    (tasks : List (String × TaskRow))
    (hopen : ∀ earlier rest s, tasks = earlier ++ rest →
      earlier.foldlM (closeObsoleteJob tc now) s₀ = .ok s → ∀ r ∈ rest,
        ownTask s₀ minerId r.1 = none ∨ ∀ reason, obsoleteReason tc s r.1 r.2 ≠ .ok (some reason)) :
    ∀ (rest earlier : List (String × TaskRow)) (s s' : MiningState σ), tasks = earlier ++ rest →
      earlier.foldlM (closeObsoleteJob tc now) s₀ = .ok s → Tidies minerId s₀ s →
      rest.foldlM (closeObsoleteJob tc now) s = .ok s' → Tidies minerId s₀ s'
  | [], earlier, s, s', _, _, htidy, h => by
    rw [List.foldlM_nil] at h
    cases h
    exact htidy
  | r :: rest, earlier, s, s', htasks, hearlier, htidy, h => by
    have hround := hopen earlier (r :: rest) s htasks hearlier r List.mem_cons_self
    rw [List.foldlM_cons] at h
    obtain ⟨s₁, hclose, h⟩ := bind_eq_ok.mp h
    have hahead : (earlier ++ [r]).foldlM (closeObsoleteJob tc now) s₀ = .ok s₁ := by
      rw [List.foldlM_append, hearlier]
      show [r].foldlM (closeObsoleteJob tc now) s = _
      rw [List.foldlM_cons, hclose]
      rfl
    -- a task of the miner is in an open round, so what is closed is another's
    obtain ⟨reason, hreason, hclose⟩ := bind_eq_ok.mp hclose
    have hstep : Tidies minerId s s₁ := by
      cases reason with
      | none =>
        cases hclose
        exact .refl minerId s
      | some text =>
        cases hclose
        refine ⟨(onlyTask_markStale s r.1 text _).keepsTasks ?_, rfl, rfl⟩
        rw [htidy.task]
        exact hround.resolve_right fun hnot => hnot text hreason
    have htasks' : tasks = (earlier ++ [r]) ++ rest := by
      rw [htasks, List.append_assoc]
      rfl
    exact tidies_closeObsolete tasks hopen rest (earlier ++ [r]) s₁ s' htasks' hahead
      (htidy.trans hstep) h

/-- A task that expires touches no other. -/
theorem onlyTask_expire (now : String) (s : MiningState σ) (taskId : String) :
    OnlyTask taskId s (expireTask now s taskId) := by
  unfold expireTask
  apply onlyTask_of_release
  case htasks => dsimp only
  case hmempool => rfl
  intro task
  split <;> rfl

/-- The rows that expire are past their time and active. -/
theorem pastExpiry_of_mem_expiringTasks {tc : TaskConfig σ} {now : String} {s : MiningState σ} :
    ∀ {rows : List (String × TaskRow)} {expiring : List String},
      expiringTasks tc now s rows = .ok expiring → ∀ taskId ∈ expiring, ∃ task,
        (taskId, task) ∈ rows ∧ task.pastExpiry now = true ∧ task.status.active = true
  | [], expiring, h, taskId, hmem => by
    cases h
    cases hmem
  | r :: rows, expiring, h, taskId, hmem => by
    obtain ⟨expires, hexpires, h⟩ := bind_eq_ok.mp h
    obtain ⟨others, hothers, h⟩ := bind_eq_ok.mp h
    have hrest : taskId ∈ others → ∃ task, (taskId, task) ∈ r :: rows ∧
        task.pastExpiry now = true ∧ task.status.active = true := by
      intro hin
      obtain ⟨task, htask, hpast⟩ := pastExpiry_of_mem_expiringTasks hothers taskId hin
      exact ⟨task, List.mem_cons_of_mem _ htask, hpast⟩
    cases h
    cases expires with
    | false => exact hrest hmem
    | true =>
      rcases List.mem_cons.mp hmem with heq | hin
      · rw [heq]
        refine ⟨r.2, List.mem_cons_self, ?_⟩
        unfold expiresNow at hexpires
        split at hexpires
        · cases hexpires
        next hpast =>
        rw [Bool.not_eq_true, Bool.not_eq_false'] at hpast
        refine ⟨hpast, ?_⟩
        cases hstatus : r.2.status <;> rw [hstatus] at hexpires <;> first | rfl | cases hexpires
      · exact hrest hin

/-- What the clean-up lists is no task of a miner whose tasks are quiet. -/
theorem tidies_expireListed {tc : TaskConfig σ} {minerId : String} {now swept later : Instant}
    {s s' : MiningState σ} (hquiet : Quiet tc minerId now swept later s)
    (h : expireListedTasks tc now s = .ok s') : Tidies minerId s s' := by
  unfold expireListedTasks at h
  dsimp only at h
  obtain ⟨s₂, hobsolete, h⟩ := bind_eq_ok.mp h
  obtain ⟨expiring, hexpiring, h⟩ := bind_eq_ok.mp h
  cases h
  let s₀ := releaseTimedOutValidationAssignments tc now s
  -- assignments of validators are no task's business
  have hfirst : Tidies minerId s s₀ := ⟨.of_eq rfl rfl, rfl, rfl⟩
  have hfinished : ∀ jobId job, s₀.jobs.find? jobId = some job → job.status ≠ .pending →
      ∀ task, ownTask s₀ minerId job.taskId = some task → task.status ≠ .revealed := by
    intro jobId job hjob hstatus task hown
    let columns := fun job : ValidationJobRow => (job.taskId, job.status)
    have hkept : (s₀.jobs.find? jobId).map columns = (s.jobs.find? jobId).map columns := by
      refine Sql.Table.map_find?_mapRows s.jobs (fun k row => ?_) jobId
      split <;> rfl
    rw [hjob, Option.map_some] at hkept
    obtain ⟨old, hold, hpair⟩ := Option.map_eq_some_iff.mp hkept.symm
    obtain ⟨htaskId, hsame⟩ := Prod.mk.inj hpair
    rw [← htaskId] at hown
    exact hquiet.finished jobId old hold (hsame ▸ hstatus) task hown
  have htwo : Tidies minerId s (beforeRounds tc now s) :=
    hfirst.trans (tidies_closeTerminal hfinished (isoformat now))
  have hobsolete' : Tidies minerId (beforeRounds tc now s) s₂ := by
    refine tidies_closeObsolete (competingTasks (beforeRounds tc now s)) ?_ _ [] _ s₂
      (List.nil_append _).symm rfl (.refl minerId _) hobsolete
    intro earlier rest s' hrows hearlier r hr
    have hmem : r ∈ competingTasks (beforeRounds tc now s) := by
      rw [hrows]
      exact List.mem_append_right _ hr
    obtain ⟨hrow, hkept⟩ := List.mem_filter.mp (List.mem_mergeSort.mp hmem)
    simp only [Bool.and_eq_true] at hkept
    have hfind := Sql.Table.find?_eq_some_iff.mpr hrow
    by_cases hmine : r.2.minerId = minerId
    · have hown : ownTask (beforeRounds tc now s) minerId r.1 = some r.2 :=
        Option.filter_eq_some_iff.mpr ⟨hfind, decide_eq_true hmine⟩
      rw [htwo.task] at hown
      exact .inr (hquiet.round r.1 r.2 hown hkept.1.1 s' (.closing hrows hearlier))
    · refine .inl (Option.filter_eq_none_iff.mpr fun task htask => ?_)
      rw [hfind] at htask
      cases htask
      exact Bool.not_eq_true _ ▸ decide_eq_false hmine
  have hthree := htwo.trans hobsolete'
  refine hthree.trans (tidies_foldl (fun s taskId => onlyTask_expire _ s taskId)
    (fun _ _ => ⟨rfl, rfl⟩) expiring s₂ fun taskId hmem => ?_)
  obtain ⟨task, htask, hpast, hactive⟩ := pastExpiry_of_mem_expiringTasks hexpiring taskId hmem
  refine Option.filter_eq_none_iff.mpr fun row hrow hmine => ?_
  have hown : ownTask s₂ minerId taskId = some row := Option.filter_eq_some_iff.mpr ⟨hrow, hmine⟩
  have hsame : row = task :=
    Option.some.inj (hrow.symm.trans (Sql.Table.find?_eq_some_iff.mpr htask))
  rw [hthree.task] at hown
  rw [hsame] at hown
  rw [(hquiet.expiry taskId task hown hactive).1] at hpast
  cases hpast

/-- The second look at the clock leaves a miner alone whose tasks have time left. -/
theorem keepsTasks_expireRunOut {minerId : String} {swept : Instant} {s : MiningState σ}
    (hleft : ∀ taskId task, ownTask s minerId taskId = some task → task.status.active = true →
      task.pastExpiry (isoformat swept) = false) :
    KeepsTasks minerId s (expireRunOutTasks swept s) := by
  refine ⟨fun taskId => ?_, fun _ _ _ => rfl⟩
  unfold ownTask expireRunOutTasks
  rw [Sql.Table.find?_mapRows]
  cases hfind : s.tasks.find? taskId with
  | none => rfl
  | some task =>
    rw [Option.map_some]
    by_cases hruns : task.runsOut swept = true
    · rw [if_pos hruns]
      by_cases hmine : task.minerId = minerId
      · obtain ⟨hstatus, hpast⟩ := Bool.and_eq_true_iff.mp hruns
        have hactive : task.status.active = true := by
          rcases Bool.or_eq_true_iff.mp hstatus with h | h <;> rw [of_decide_eq_true h] <;> rfl
        rw [hleft taskId task (Option.filter_eq_some_iff.mpr ⟨hfind, decide_eq_true hmine⟩)
          hactive] at hpast
        cases hpast
      · rw [Option.filter_some_neg (by simpa using hmine), Option.filter_some_neg (by simpa using hmine)]
    · rw [if_neg hruns]

/-- The clean-up leaves the tasks of a miner alone while they are quiet. -/
theorem tidies_cleanUp {tc : TaskConfig σ} {minerId : String} {now swept later : Instant}
    {s s' : MiningState σ} (hquiet : Quiet tc minerId now swept later s)
    (h : expireAssignedTasks tc now swept s = .ok s') : Tidies minerId s s' := by
  obtain ⟨s₁, hlist, hsweep⟩ := bind_eq_ok.mp h
  cases hsweep
  have hlisted := tidies_expireListed hquiet hlist
  refine hlisted.trans ⟨keepsTasks_expireRunOut fun taskId task hown hactive => ?_, rfl, rfl⟩
  rw [hlisted.task] at hown
  exact hquiet.sweep taskId task hown hactive

/-! ## The condition -/

/-- A reveal of the miner's task that is answered, before its signature is looked at, without a
change: the task has expired for good, its reveal is processed already, another task of the round
is being validated, or it is stale and has no transactions. -/
def Answered (tc : TaskConfig σ) (s : MiningState σ) (taskId : String) (task : TaskRow) : Prop :=
  match task.status with
  | .expired => ¬(tc.competitiveMode = true ∧ canReactivate s taskId task none = true)
  | .revealed | .accepted | .rejected =>
    (s.jobs.rows.any fun job => job.2.taskId = taskId) = true
  | .committed => tc.competitiveMode = true ∧ hasPendingCandidate s taskId task = true
  | .stale => ∀ txHash, isSelectedFor s taskId txHash = false
  | .assigned => False

/-- The request leaves the miner alone. A commitment does not take up an expired task of the miner.
A reveal names neither the miner, or nobody knows the miner, nor a task of the miner that has
selected transactions; or it is answered. -/
def Spares (tc : TaskConfig σ) (minerId : String) (s : MiningState σ) : MinerCall → Prop
  | .commit _ _ r => r.minerId = minerId → ∀ task, ownTask s minerId r.taskId = some task →
    task.status = .expired → tc.competitiveMode = true → canReactivate s r.taskId task none = false
  | .reveal _ r =>
    ((r.minerId ≠ minerId ∨ s.miners.find? minerId = none) ∧
      (ownTask s minerId r.taskId = none ∨
        ∀ txHash, isSelectedFor s r.taskId txHash = false)) ∨
    (r.minerId = minerId ∧ (s.miners.find? minerId).isSome = true ∧
      (s.commitments.find? r.taskId).isSome = true ∧
      ∃ task, ownTask s minerId r.taskId = some task ∧ Answered tc s r.taskId task)

/-- The last time that a request reads the clock at `now`. -/
def MinerCall.later (now : Instant) : MinerCall → Instant
  | .commit _ later _ => later
  | .reveal _ _ => now

/-- The time at which the clean-up of a request reads the clock again. -/
def MinerCall.swept : MinerCall → Instant
  | .commit swept _ _ => swept
  | .reveal swept _ => swept

/-- The request is not signed by the miner, no task of the miner passes its expiry time or has its
round closed, and the request, after its clean-up, leaves the miner alone. -/
structure Sparing (tc : TaskConfig σ) (minerId : String) (n : PenalizingNode σ)
    (call : Instant × MinerCall) : Prop where
  unsigned : ∀ miner, n.state.miners.find? minerId = some miner → ∀ payload,
    tc.verifyPayloadSignature (textOr miner.publicKey "") payload call.2.signature = false
  quiet : Quiet tc minerId call.1 call.2.swept (call.2.later call.1) n.state
  spares : ∀ s, expireAssignedTasks tc call.1 call.2.swept n.state = .ok s → Spares tc minerId s call.2

/-! ## Commitments -/

/-- The round of a quiet task is the current one. -/
theorem Quiet.current {tc : TaskConfig σ} {minerId : String} {now swept later : Instant}
    {s : MiningState σ} (h : Quiet tc minerId now swept later s) {taskId : String} {task : TaskRow}
    (hown : ownTask s minerId taskId = some task) (hactive : task.status.active = true)
    {s' : MiningState σ} (hclean : expireAssignedTasks tc now swept s = .ok s')
    {params : ℤ × ProtocolParamsRow}
    (hparams : protocolParamsForTask s'.protocolParams task = .ok params) :
    competitiveTaskMatchesCurrentRound tc s' task params ≠ .ok false := by
  intro hclosed
  have hround := h.round taskId task hown hactive s' (.cleaned hclean)
  unfold obsoleteReason at hround
  dsimp only at hround
  split at hround
  · exact hround _ rfl
  · refine hround "competitive round closed" ?_
    rw [hparams]
    show (competitiveTaskMatchesCurrentRound tc s' task params >>= _) = _
    rw [hclosed]
    rfl

/-- What `commit_task` takes up again is the task that it names. -/
theorem onlyTask_prepareCommit {tc : TaskConfig σ} {now swept : Instant} {s s₁ s₂ : MiningState σ}
    {r : CommitRequest} {found : Option (TaskRow × MinerRow)}
    (hclean : expireAssignedTasks tc now swept s = .ok s₁)
    (h : prepareCommit tc now swept s r = .ok (s₂, found)) : OnlyTask r.taskId s₁ s₂ := by
  obtain ⟨s₃, hclean', h⟩ := bind_eq_ok.mp h
  rw [hclean] at hclean'
  cases hclean'
  split at h
  · split at h
    · obtain ⟨params, -, h⟩ := bind_eq_ok.mp h
      obtain ⟨revived, hrevived, h⟩ := bind_eq_ok.mp h
      cases revived with
      | none =>
        cases h
        exact .refl _ _
      | some s₄ =>
        cases h
        exact (reactivate_eq_ok hrevived).2
    · cases h
      exact .refl _ _
  · cases h
    exact .refl _ _

/-- A request of `commit_task` writes only the task that it names. -/
theorem commit_onlyTask {tc : TaskConfig σ} {now swept later : Instant} {s s₁ s' : MiningState σ}
    {r : CommitRequest} (hclean : expireAssignedTasks tc now swept s = .ok s₁)
    (h : commitTask tc now swept later s r = .ok s') : OnlyTask r.taskId s₁ s' := by
  obtain ⟨⟨s₂, found⟩, hprepare, h⟩ := bind_eq_ok.mp h
  -- first what the clean-up has left is taken up again, then what has been decided is written
  refine (onlyTask_prepareCommit hclean hprepare).trans ?_
  dsimp only at h
  split at h
  · cases h
    exact .refl _ _
  next task miner =>
  obtain ⟨decision, -, h⟩ := bind_eq_ok.mp h
  cases decision with
  | rejected message =>
    cases h
    exact .refl _ _
  | known =>
    cases h
    exact .refl _ _
  | stale reason =>
    cases h
    exact .refl _ _
  | roundClosed =>
    cases h
    exact onlyTask_markStale s₂ r.taskId _ _
  | expired =>
    cases h
    exact onlyTask_of_modify (f := fun task => { task with status := .expired }) (fun _ => rfl)
      rfl rfl
  | commit frozen =>
    obtain ⟨params, -, h⟩ := bind_eq_ok.mp h
    split at h
    · cases h
    · cases h
      exact onlyTask_of_modify (f := fun task =>
        { task with status := .committed, computeMs := r.computeMs.or task.computeMs })
        (fun _ => rfl) rfl rfl

/-- What `commit_task` finds of a task that is not taken up again. -/
theorem prepareCommit_of_own {tc : TaskConfig σ} {now swept : Instant} {s s₁ : MiningState σ}
    {r : CommitRequest} {result : MiningState σ × Option (TaskRow × MinerRow)}
    (hclean : expireAssignedTasks tc now swept s = .ok s₁) {task : TaskRow}
    (hown : ownTask s₁ r.minerId r.taskId = some task)
    (hspared : task.status = .expired → tc.competitiveMode = true →
      canReactivate s₁ r.taskId task none = false)
    (h : prepareCommit tc now swept s r = .ok result) :
    result.1 = s₁ ∧ ∀ found, result.2 = some found →
      found.1 = task ∧ s₁.miners.find? r.minerId = some found.2 := by
  obtain ⟨s₃, hclean', h⟩ := bind_eq_ok.mp h
  rw [hclean] at hclean'
  cases hclean'
  have hfilter : (s₁.tasks.find? r.taskId).filter (fun task => task.minerId = r.minerId) =
      some task := hown
  rw [hfilter] at h
  split at h
  · next task' miner htask hminer =>
    cases htask
    split at h
    · next hexpired =>
      obtain ⟨params, -, h⟩ := bind_eq_ok.mp h
      obtain ⟨revived, hrevived, h⟩ := bind_eq_ok.mp h
      cases revived with
      | none =>
        cases h
        refine ⟨rfl, fun found hfound => ?_⟩
        cases hfound
        exact ⟨rfl, hminer⟩
      | some s₄ =>
        -- a revival would contradict the condition
        have hcan := (reactivate_eq_ok hrevived).1
        rw [hspared hexpired.1 hexpired.2] at hcan
        cases hcan
    · cases h
      refine ⟨rfl, fun found hfound => ?_⟩
      cases hfound
      exact ⟨rfl, hminer⟩
  · cases h
    exact ⟨rfl, fun _ hfound => by cases hfound⟩

/-- What `commit_task` finds of a task of another miner. -/
theorem prepareCommit_of_other {tc : TaskConfig σ} {now swept : Instant} {s s₁ : MiningState σ}
    {r : CommitRequest} {result : MiningState σ × Option (TaskRow × MinerRow)}
    (hclean : expireAssignedTasks tc now swept s = .ok s₁)
    (hother : ownTask s₁ r.minerId r.taskId = none) (h : prepareCommit tc now swept s r = .ok result) :
    result = (s₁, none) := by
  obtain ⟨s₂, hclean', h⟩ := bind_eq_ok.mp h
  rw [hclean] at hclean'
  cases hclean'
  have hnone : (s₁.tasks.find? r.taskId).filter (fun task => task.minerId = r.minerId) = none :=
    hother
  rw [hnone] at h
  cases h
  rfl

/-- The decision writes nothing. -/
def CommitDecision.harmless : CommitDecision → Bool
  | .rejected _ | .known | .stale _ => true
  | .roundClosed | .expired | .commit _ => false

/-- What a decision that writes has seen. -/
theorem commitDecision_cases {tc : TaskConfig σ} {later : Instant} {s : MiningState σ}
    {r : CommitRequest} {task : TaskRow} {miner : MinerRow} {decision : CommitDecision}
    (h : commitDecision tc later s r task miner = .ok decision) :
    decision.harmless = true ∨
    (decision = .roundClosed ∧ task.status.active = true ∧ ∃ params,
      protocolParamsForTask s.protocolParams task = .ok params ∧
        competitiveTaskMatchesCurrentRound tc s task params = .ok false) ∨
    (decision = .expired ∧ task.status.active = true ∧
      ((task.expiresAt.bind tc.parseIso).any fun expiresAt => expiresAt ≤ later) = true) ∨
    ∃ frozen, decision = .commit frozen ∧ r.verifies tc.toMiningConfig task miner frozen = true := by
  unfold commitDecision at h
  split at h
  · -- a committed task is known or refused
    cases h
    refine .inl ?_
    unfold commitAgain
    split
    · rfl
    · split
      · rfl
      · split
        · rfl
        · split <;> rfl
  · cases h
    exact .inl rfl
  · next hstatus =>
    have hactive : task.status.active = true := by
      rw [hstatus]
      rfl
    obtain ⟨params, hparams, h⟩ := bind_eq_ok.mp h
    obtain ⟨current, hcurrent, h⟩ := bind_eq_ok.mp h
    cases h
    cases current with
    -- an assigned task of a round that is over
    | false =>
      split at hcurrent
      · exact .inr (.inl ⟨rfl, hactive, params, hparams, hcurrent⟩)
      · cases hcurrent
    -- an assigned task of the current round: expired, refused or committed
    | true =>
      rw [if_pos rfl]
      unfold commitAssigned
      split
      · exact .inl rfl
      · split
        · exact .inl rfl
        · split
          · next hexpired => exact .inr (.inr (.inl ⟨rfl, hactive, hexpired⟩))
          · split
            · exact .inl rfl
            · split
              · next hverifies => exact .inr (.inr (.inr ⟨_, rfl, hverifies⟩))
              · exact .inl rfl
  -- no other status is left to commit
  all_goals
    cases h
    exact .inl rfl

/-- A commitment that the miner has not signed leaves its tasks alone. -/
theorem commit_keepsTasks {tc : TaskConfig σ} {minerId : String} {n : PenalizingNode σ}
    {now swept later : Instant} {r : CommitRequest}
    (h : Sparing tc minerId n (now, .commit swept later r)) {s' : MiningState σ}
    (hcommit : commitTask tc now swept later n.state r = .ok s') : KeepsTasks minerId n.state s' := by
  have hclean : ∃ s₁, expireAssignedTasks tc now swept n.state = .ok s₁ := by
    obtain ⟨_, hprepare, -⟩ := bind_eq_ok.mp hcommit
    obtain ⟨s₁, hclean, -⟩ := bind_eq_ok.mp hprepare
    exact ⟨s₁, hclean⟩
  obtain ⟨s₁, hclean⟩ := hclean
  have hquiet : Quiet tc minerId now swept later n.state := h.quiet
  have htidy := tidies_cleanUp hquiet hclean
  refine htidy.toKeepsTasks.trans ?_
  cases hown : ownTask s₁ minerId r.taskId with
  | none => exact (commit_onlyTask hclean hcommit).keepsTasks hown
  | some task =>
    -- the named task is the miner's
    have hquietTask : ownTask n.state minerId r.taskId = some task := by
      rw [← htidy.task]
      exact hown
    obtain ⟨⟨s₂, found⟩, hprepare, hcommit⟩ := bind_eq_ok.mp hcommit
    by_cases hminer : r.minerId = minerId
    · have hspared := h.spares s₁ hclean hminer task hown
      obtain ⟨hstate, hfound⟩ :=
        prepareCommit_of_own hclean (hminer ▸ hown) hspared hprepare
      dsimp only at hstate
      rw [hstate] at hcommit
      cases found with
      | none =>
        cases hcommit
        exact KeepsTasks.refl minerId _
      | some pair =>
        obtain ⟨task', miner⟩ := pair
        obtain ⟨htask', hrow⟩ := hfound _ rfl
        dsimp only at htask' hrow hcommit
        rw [htask'] at hcommit
        obtain ⟨decision, hdecision, hcommit⟩ := bind_eq_ok.mp hcommit
        rcases commitDecision_cases hdecision with hharmless |
          ⟨-, hactive, params, hparams, hfalse⟩ | ⟨-, hactive, hpast⟩ | ⟨frozen, -, hverifies⟩
        · -- nothing is written
          cases decision with
          | rejected message =>
            cases hcommit
            exact KeepsTasks.refl minerId _
          | known =>
            cases hcommit
            exact KeepsTasks.refl minerId _
          | stale reason =>
            cases hcommit
            exact KeepsTasks.refl minerId _
          | roundClosed => cases hharmless
          | expired => cases hharmless
          | commit frozen => cases hharmless
        · exact absurd hfalse (hquiet.current hquietTask hactive hclean hparams)
        · have hnot : ((task.expiresAt.bind tc.parseIso).any fun expiresAt =>
              expiresAt ≤ later) = false := (hquiet.expiry r.taskId task hquietTask hactive).2
          rw [hnot] at hpast
          cases hpast
        · -- the miner has not signed
          rw [hminer, htidy.miners] at hrow
          unfold CommitRequest.verifies at hverifies
          dsimp only at hverifies
          have hunsigned := h.unsigned miner hrow
          dsimp only [MinerCall.signature] at hunsigned
          rw [hunsigned, hunsigned, Bool.and_false, Bool.or_false] at hverifies
          cases hverifies
    · cases prepareCommit_of_other hclean (ownTask_eq_none_of_ne hown hminer) hprepare
      cases hcommit
      exact KeepsTasks.refl minerId _

/-! ## Reveals -/

/-- The start of a validation touches its task only. -/
theorem onlyTask_startValidation {tc : TaskConfig σ} {now : Instant} {s s' : MiningState σ}
    {r : RevealRequest} {task : TaskRow} {commitment : CommitmentRow} {frozen : FrozenFields}
    (h : startValidation tc now s r task commitment frozen = .ok s') : OnlyTask r.taskId s s' := by
  unfold startValidation at h
  split at h
  · cases h
    exact .refl _ _
  · split at h
    · cases h
    · obtain ⟨params, -, h⟩ := bind_eq_ok.mp h
      dsimp only at h
      split at h
      · cases h
      · cases h
        exact onlyTask_of_modify (f := fun task => { task with status := .revealed, expiresAt := _ })
          (fun _ => rfl) rfl rfl

/-- A request of `reveal_task` writes only the task that it names. -/
theorem reveal_onlyTask {tc : TaskConfig σ} {now swept : Instant} {s s₁ s' : MiningState σ}
    {r : RevealRequest} (hclean : expireAssignedTasks tc now swept s = .ok s₁)
    (h : revealTask tc now swept s r = .ok s') : OnlyTask r.taskId s₁ s' := by
  obtain ⟨s₂, hclean', h⟩ := bind_eq_ok.mp h
  rw [hclean] at hclean'
  cases hclean'
  split at h
  · next task commitment miner _ _ _ =>
    obtain ⟨revived, hrevive, h⟩ := bind_eq_ok.mp h
    -- a revival touches the task, and so does each decision
    have hrevived : OnlyTask r.taskId s₁ (revived.getD s₁) := by
      cases revived with
      | none => exact .refl _ _
      | some s₂ =>
        unfold reviveForReveal at hrevive
        split at hrevive
        · obtain ⟨params, -, hrevive⟩ := bind_eq_ok.mp hrevive
          exact (reactivate_eq_ok hrevive).2
        · cases hrevive
    refine hrevived.trans ?_
    dsimp only at h
    obtain ⟨decision, -, h⟩ := bind_eq_ok.mp h
    cases decision with
    | answer =>
      cases h
      exact .refl _ _
    | release =>
      cases h
      exact onlyTask_refuseReveal _ _ _
    | reject =>
      cases h
      exact onlyTask_rejectAndRelease _ _ _
    | stale reason =>
      cases h
      exact onlyTask_markStale _ _ _ _
    | validate frozen =>
      exact onlyTask_startValidation h
  · cases h
    exact onlyTask_refuseReveal _ _ _

/-- A stale task without transactions stays as it is when it is marked again. -/
theorem keepsTasks_markStale_again {minerId : String} {s : MiningState σ} {taskId : String}
    {task : TaskRow} (hfind : s.tasks.find? taskId = some task) (hstale : task.status = .stale)
    (hnone : ∀ txHash, isSelectedFor s taskId txHash = false) (reason timestamp : String) :
    KeepsTasks minerId s (markCompetitiveTaskStale s taskId reason timestamp) := by
  have hreleased : KeepsTasks minerId s (refuseReveal timestamp s taskId) :=
    keepsTasks_refuseReveal hnone minerId
  refine ⟨fun id => ?_, hreleased.selected⟩
  unfold ownTask markCompetitiveTaskStale
  dsimp only
  rw [Sql.Table.find?_modify]
  split
  · next heq =>
    rw [heq, hfind, Option.map_some, hstale]
    rfl
  · rfl

/-- An answered task is not taken up again. -/
theorem Answered.revived_eq {tc : TaskConfig σ} {now : Instant} {s : MiningState σ}
    {taskId : String} {task : TaskRow} {revived : Option (MiningState σ)}
    (h : Answered tc s taskId task) (hrevive : reviveForReveal tc now s taskId task = .ok revived) :
    revived = none := by
  unfold reviveForReveal at hrevive
  split at hrevive
  · next hexpired =>
    obtain ⟨params, -, hrevive⟩ := bind_eq_ok.mp hrevive
    cases revived with
    | none => rfl
    | some s₁ =>
      have hcan := (reactivate_eq_ok hrevive).1
      unfold Answered at h
      rw [hexpired.1] at h
      exact absurd ⟨hexpired.2, hcan⟩ h
  · cases hrevive
    rfl

/-- An answered reveal is answered, or the task is stale and is marked so again. -/
theorem Answered.decision {tc : TaskConfig σ} {s : MiningState σ} {r : RevealRequest}
    {task : TaskRow} {miner : MinerRow} {commitment : CommitmentRow} {decision : RevealDecision}
    (h : Answered tc s r.taskId task)
    (hopen : task.status.active = true → ∀ params,
      protocolParamsForTask s.protocolParams task = .ok params →
        competitiveTaskMatchesCurrentRound tc s task params ≠ .ok false)
    (hdecision : revealDecision tc s r task miner commitment = .ok decision) :
    decision = .answer ∨ task.status = .stale ∧ ∃ reason, decision = .stale reason := by
  unfold revealDecision at hdecision
  unfold Answered at h
  have hknown : (s.jobs.rows.any fun job => job.2.taskId = r.taskId) = true →
      .ok (if (s.jobs.rows.any fun job => job.2.taskId = r.taskId) = true
        then RevealDecision.answer else .release) = Except.ok (ε := MiningError) decision →
        decision = .answer := by
    intro hjob hdecision
    rw [if_pos hjob] at hdecision
    cases hdecision
    rfl
  cases hstatus : task.status with
  | stale =>
    rw [hstatus] at hdecision
    cases hdecision
    exact .inr ⟨rfl, _, rfl⟩
  | expired =>
    rw [hstatus] at hdecision
    cases hdecision
    exact .inl rfl
  | assigned =>
    rw [hstatus] at h
    cases h
  | revealed =>
    rw [hstatus] at h hdecision
    exact .inl (hknown h hdecision)
  | accepted =>
    rw [hstatus] at h hdecision
    exact .inl (hknown h hdecision)
  | rejected =>
    rw [hstatus] at h hdecision
    exact .inl (hknown h hdecision)
  | committed =>
    -- another task of the round is being validated, and the round is open
    have hactive : task.status.active = true := by
      rw [hstatus]
      rfl
    rw [hstatus] at h hdecision
    obtain ⟨hmode, hpending⟩ := h
    obtain ⟨params, hparams, hdecision⟩ := bind_eq_ok.mp hdecision
    obtain ⟨current, hcurrent, hdecision⟩ := bind_eq_ok.mp hdecision
    rw [if_pos hmode] at hcurrent
    cases current with
    | false => exact absurd hcurrent (hopen hactive params hparams)
    | true =>
      cases hdecision
      rw [hmode, hpending]
      exact .inl rfl

/-- An answered reveal leaves the miner's tasks alone, and is not refused. -/
theorem answered_reveal {tc : TaskConfig σ} {minerId : String} {now swept later : Instant}
    {s₀ s s' : MiningState σ} {r : RevealRequest} {task : TaskRow}
    (hquiet : Quiet tc minerId now swept later s₀) (hclean : expireAssignedTasks tc now swept s₀ = .ok s)
    (hname : r.minerId = minerId) (hminer : (s.miners.find? minerId).isSome = true)
    (hcommitment : (s.commitments.find? r.taskId).isSome = true)
    (hown : ownTask s minerId r.taskId = some task) (hanswered : Answered tc s r.taskId task)
    (h : revealTask tc now swept s₀ r = .ok s') :
    KeepsTasks minerId s s' ∧ revealRefusal tc now swept s₀ r = .ok none := by
  have htidy := tidies_cleanUp hquiet hclean
  obtain ⟨miner, hminer⟩ := Option.isSome_iff_exists.mp hminer
  obtain ⟨commitment, hcommitment⟩ := Option.isSome_iff_exists.mp hcommitment
  have hfilter : (s.tasks.find? r.taskId).filter (fun task => task.minerId = r.minerId) =
      some task := by
    rw [hname]
    exact hown
  rw [← hname] at hminer
  obtain ⟨s₁, hclean', h⟩ := bind_eq_ok.mp h
  rw [hclean] at hclean'
  cases hclean'
  rw [hfilter, hcommitment, hminer] at h
  obtain ⟨revived, hrevive, h⟩ := bind_eq_ok.mp h
  have hnone := hanswered.revived_eq hrevive
  rw [hnone] at h hrevive
  obtain ⟨decision, hdecision, h⟩ := bind_eq_ok.mp h
  -- both read the same rows after the same clean-up
  have hrefusal : revealRefusal tc now swept s₀ r = refusalOf tc s r task miner commitment := by
    unfold revealRefusal
    rw [hclean]
    dsimp only [bind, Except.bind]
    rw [hfilter, hcommitment, hminer]
    dsimp only
    rw [hrevive]
    rfl
  have hquietTask : ownTask s₀ minerId r.taskId = some task := by
    rw [← htidy.task]
    exact hown
  have hopen : task.status.active = true → ∀ params,
      protocolParamsForTask s.protocolParams task = .ok params →
        competitiveTaskMatchesCurrentRound tc s task params ≠ .ok false :=
    fun hactive params hparams => hquiet.current hquietTask hactive hclean hparams
  -- an answered task is answered again, or is stale and marked stale again
  rcases hanswered.decision hopen hdecision with hanswer | ⟨hstale, reason, hmarked⟩
  · rw [hanswer] at h hdecision
    refine ⟨?_, ?_⟩
    · cases h
      exact .refl minerId s
    · rw [hrefusal]
      unfold refusalOf
      change revealDecision tc s r task miner commitment = .ok .answer at hdecision
      rw [hdecision]
      rfl
  · rw [hmarked] at h hdecision
    refine ⟨?_, ?_⟩
    · cases h
      have hselected : ∀ txHash, isSelectedFor s r.taskId txHash = false := by
        unfold Answered at hanswered
        rw [hstale] at hanswered
        exact hanswered
      exact keepsTasks_markStale_again (Option.filter_eq_some_iff.mp hown).1 hstale hselected _ _
    · rw [hrefusal]
      unfold refusalOf
      change revealDecision tc s r task miner commitment = .ok (.stale reason) at hdecision
      rw [hdecision]
      rfl

/-! ## Penalties -/

/-- Penalties of others. -/
theorem Undisturbed.penalty {minerId other : String} (hne : other ≠ minerId) (now : Instant)
    (n : PenalizingNode σ) (taskId : String) (points : ℤ) (reason : String) :
    Undisturbed minerId n (applyPenalty now n other taskId points reason) := by
  have hrefresh : ∀ n : PenalizingNode σ, Undisturbed minerId n (refreshTrustScore n other) :=
    fun n => ⟨.refl minerId n.state, rfl, Sql.Table.find?_modify_ne _ _ hne.symm⟩
  unfold applyPenalty
  split
  · exact hrefresh n
  · refine Undisturbed.trans ⟨?_, ?_, ?_⟩ (hrefresh _)
    · exact .refl minerId n.state
    · dsimp only
      rw [List.filter_append, List.filter_singleton, decide_eq_false hne]
      exact List.append_nil _
    · dsimp only
      split
      · exact Sql.Table.find?_modify_ne _ _ hne.symm
      · rfl

/-! ## Every request -/

/-- A reveal that finds no task of its miner, or no miner, is refused. -/
theorem reveal_refuses {tc : TaskConfig σ} {now swept : Instant} {s₀ s s' : MiningState σ}
    {r : RevealRequest} (hclean : expireAssignedTasks tc now swept s₀ = .ok s)
    (hnone : ownTask s r.minerId r.taskId = none ∨ s.miners.find? r.minerId = none)
    (h : revealTask tc now swept s₀ r = .ok s') : s' = refuseReveal (isoformat now) s r.taskId := by
  obtain ⟨s₁, hclean', h⟩ := bind_eq_ok.mp h
  rw [hclean] at hclean'
  cases hclean'
  split at h
  · next htask _ hminer =>
    rcases hnone with hno | hno
    · exact absurd (htask.symm.trans hno) (fun h => (nomatch h))
    · exact absurd (hminer.symm.trans hno) (fun h => (nomatch h))
  · cases h
    rfl

/-- A reveal that the miner has not signed leaves the miner what it has. -/
theorem reveal_undisturbed {tc : TaskConfig σ} {minerId : String} {n n' : PenalizingNode σ}
    {now swept : Instant} {r : RevealRequest} (h : Sparing tc minerId n (now, .reveal swept r))
    (hreveal : revealTaskOnNode tc now swept n r = .ok n') : Undisturbed minerId n n' := by
  obtain ⟨s', htask, hreveal⟩ := bind_eq_ok.mp hreveal
  obtain ⟨refusal, hrefusal, hreveal⟩ := bind_eq_ok.mp hreveal
  obtain ⟨s, hclean, -⟩ := bind_eq_ok.mp htask
  have hquiet : Quiet tc minerId now swept now n.state := h.quiet
  have htidy := (tidies_cleanUp hquiet hclean).toKeepsTasks
  rcases h.spares s hclean with ⟨hwho, hwhat⟩ | ⟨hname, hminer, hcommitment, task, hown, hanswered⟩
  · -- the reveal is somebody else's, or refused without a miner to penalize
    have hkeeps : KeepsTasks minerId s s' := by
      cases hown : ownTask s minerId r.taskId with
      | none => exact (reveal_onlyTask hclean htask).keepsTasks hown
      | some task =>
        have hnothing : ∀ txHash, isSelectedFor s r.taskId txHash = false := by
          rcases hwhat with hnone | hnothing
          · rw [hnone] at hown
            cases hown
          · exact hnothing
        have hnone : ownTask s r.minerId r.taskId = none ∨ s.miners.find? r.minerId = none := by
          by_cases hname : r.minerId = minerId
          · rw [hname]
            exact .inr (hwho.resolve_left fun hne => hne hname)
          · exact .inl (ownTask_eq_none_of_ne hown hname)
        rw [reveal_refuses hclean hnone htask]
        exact keepsTasks_refuseReveal hnothing minerId
    -- what is left to see is that the penalty is not for this miner
    have hstate : Undisturbed minerId n { n with state := s' } :=
      ⟨htidy.trans hkeeps, rfl, rfl⟩
    split at hreveal
    · next hfound =>
      cases hreveal
      refine hstate.trans (.penalty (fun hname => ?_) _ _ _ _ _)
      have hunknown : s.miners.find? r.minerId = none := by
        rw [hname]
        exact hwho.resolve_left fun hne => hne hname
      rw [reveal_refuses hclean (.inr hunknown) htask] at hfound
      exact absurd (hfound.symm.trans hunknown) (fun h => (nomatch h))
    · cases hreveal
      exact hstate
  · obtain ⟨hkeeps, hanswer⟩ :=
      answered_reveal hquiet hclean hname hminer hcommitment hown hanswered htask
    rw [hanswer] at hrefusal
    cases hrefusal
    cases hreveal
    exact ⟨htidy.trans hkeeps, rfl, rfl⟩

/-- One request. -/
theorem MinerCall.undisturbed {tc : TaskConfig σ} {minerId : String} {n : PenalizingNode σ}
    {call : Instant × MinerCall} (h : Sparing tc minerId n call) :
    Undisturbed minerId n (MinerCall.step tc n call) := by
  obtain ⟨now, call⟩ := call
  cases call with
  | commit swept later r =>
    have hkeeps : KeepsTasks minerId n.state
        (attempt (commitTask tc now swept later n.state r) n.state) :=
      attempt_of (.refl minerId n.state) fun _ hcommit => commit_keepsTasks h hcommit
    exact ⟨hkeeps, rfl, rfl⟩
  | reveal swept r => exact attempt_of (.refl minerId n) fun _ hreveal => reveal_undisturbed h hreveal

/-- Through every run of such requests, the miner keeps what it had. -/
theorem miner_undisturbed_of_run (tc : TaskConfig σ) (minerId : String) (n : PenalizingNode σ)
    (calls : List (Instant × MinerCall))
    (h : EachStep (MinerCall.step tc) (Sparing tc minerId) n calls) :
    ∀ n' ∈ states (MinerCall.step tc) n calls, Undisturbed minerId n n' := by
  have hstep : ∀ n₁ call, Undisturbed minerId n n₁ → Sparing tc minerId n₁ call →
      Undisturbed minerId n (MinerCall.step tc n₁ call) :=
    fun n₁ call h₁ hcall => h₁.trans (MinerCall.undisturbed hcall)
  exact invariant_of_eachStep hstep calls n (.refl minerId n) h

/-! ## A forged reveal -/

/-- The commitment of the local task. -/
def localCommitment : CommitmentRow where
  minerId := "miner-1"
  resultHash := "result-1"
  merkleRoot := "root-1"
  challengeSeed := "seed-1"
  samples := "[]"
  txMerkleRoot := txMerkleRoot localConfig ["tx-1"]
  mempoolSnapshotId := some "snapshot-1"
  selectedTxHashesHash := some "hash-1"
  txCount := 1
  txFeeTotalUnits := 1000
  signature := "signed"
  signedAt := "2026-05-10T00:00:00+00:00"
  commitMs := none
  createdAt := "2026-05-10T00:00:00+00:00"

/-- A miner in good standing with the local task and its transaction, in a status. -/
def localStanding (status : TaskStatus) : PenalizingNode Unit where
  state :=
    { localHolding with
      tasks := .upsert .empty "task-1" { localTask with status := status }
      commitments := .upsert .empty "task-1" localCommitment }
  penalties := []
  standings := .upsert .empty "miner-1" ⟨⟨1, 0⟩, none⟩

/-- A reveal in the name of the miner that the miner has not signed. -/
def forgedReveal : RevealRequest where
  taskId := "task-1"
  minerId := "miner-1"
  samples := .arr []
  positions := []
  signature := "forged"
  signedAt := "2026-05-10T00:00:00+00:00"
  frozen :=
    { txMerkleRoot := txMerkleRoot localConfig ["tx-1"]
      mempoolSnapshotId := "snapshot-1"
      selectedTxHashesHash := "hash-1"
      txCount := 1
      txFeeTotalUnits := 1000 }
  jobId := "job-2"

/-- The forged call is not signed by the miner. -/
theorem forged_unsigned (s : MiningState Unit) (miner : MinerRow) :
    s.miners.find? "miner-1" = some miner → ∀ payload,
      localTasks.verifyPayloadSignature (textOr miner.publicKey "") payload
        (MinerCall.reveal 1778371200000000 forgedReveal).signature = false := fun _ _ => rfl

/-- The local task is in no round and never expires, and its job is pending. -/
theorem quiet_localStanding (status : TaskStatus) (now swept later : Instant) :
    Quiet localTasks "miner-1" now swept later (localStanding status).state := by
  have htask : ∀ taskId task, ownTask (localStanding status).state "miner-1" taskId = some task →
      task = { localTask with status := status } := by
    intro taskId task hown
    have hfind := (Option.filter_eq_some_iff.mp hown).1
    change (Sql.Table.empty.upsert "task-1" _).find? taskId = some task at hfind
    rw [Sql.Table.find?_upsert] at hfind
    split at hfind
    · exact (Option.some.inj hfind).symm
    · cases hfind
  refine ⟨fun taskId task hown _ => ?_, fun taskId task hown _ => ?_,
    fun taskId task hown _ s' _ reason hobsolete => ?_, fun jobId job hjob hstatus => ?_⟩
  · rw [htask taskId task hown]
    exact ⟨rfl, rfl⟩
  · rw [htask taskId task hown]
    rfl
  · rw [htask taskId task hown] at hobsolete
    unfold obsoleteReason at hobsolete
    change (protocolParamsForTask s'.protocolParams _ >>= _) = _ at hobsolete
    obtain ⟨params, -, hobsolete⟩ := bind_eq_ok.mp hobsolete
    cases hobsolete
  · change (Sql.Table.empty.upsert "job-1" localJob).find? jobId = some job at hjob
    rw [Sql.Table.find?_upsert] at hjob
    split at hjob
    · cases hjob
      exact absurd rfl hstatus
    · cases hjob

/-- The forged reveal of a task whose validation is going on. -/
theorem miner_undisturbed_local :
    Undisturbed "miner-1" (localStanding .revealed) (MinerCall.step localTasks
      (localStanding .revealed) (1778371200000000, .reveal 1778371200000000 forgedReveal)) := by
  have hruns : returns (expireAssignedTasks localTasks 1778371200000000 1778371200000000
      (localStanding .revealed).state) (fun s => (s.miners.find? "miner-1").isSome &&
        (s.commitments.find? "task-1").isSome &&
        (s.jobs.rows.any fun job => job.2.taskId = "task-1") &&
        (ownTask s "miner-1" "task-1").any fun task => task.status = .revealed) = true := by
    decide +kernel
  have hspares : ∀ s, expireAssignedTasks localTasks 1778371200000000 1778371200000000
      (localStanding .revealed).state = .ok s →
        Spares localTasks "miner-1" s (.reveal 1778371200000000 forgedReveal) := by
    intro s hclean
    rw [hclean] at hruns
    change (_ && _) = true at hruns
    simp only [Bool.and_eq_true] at hruns
    obtain ⟨⟨⟨hminer, hcommitment⟩, hjob⟩, htask⟩ := hruns
    cases hown : ownTask s "miner-1" "task-1" with
    | none =>
      rw [hown] at htask
      cases htask
    | some task =>
      rw [hown, Option.any_some, decide_eq_true_eq] at htask
      refine .inr ⟨rfl, hminer, hcommitment, task, hown, ?_⟩
      unfold Answered
      rw [htask]
      exact hjob
  exact miner_undisturbed_of_run localTasks "miner-1" (localStanding .revealed)
    [(1778371200000000, .reveal 1778371200000000 forgedReveal)]
    ⟨⟨forged_unsigned _, quiet_localStanding _ _ _ _, hspares⟩, trivial⟩ _ (foldl_mem_states _ _ _)

/-- The task is rejected, its transaction is given back, and the miner is penalized. -/
theorem miner_spoiled :
    (∀ miner, (localStanding .committed).state.miners.find? "miner-1" = some miner →
      ∀ payload, localTasks.verifyPayloadSignature (textOr miner.publicKey "") payload
        (MinerCall.reveal 1778371200000000 forgedReveal).signature = false) ∧
    Quiet localTasks "miner-1" 1778371200000000 1778371200000000 1778371200000000
      (localStanding .committed).state ∧
    ∃ n' ∈ states (MinerCall.step localTasks) (localStanding .committed)
        [(1778371200000000, .reveal 1778371200000000 forgedReveal)],
      (n'.state.tasks.find? "task-1").map TaskRow.status = some .rejected ∧
      isSelectedFor (localStanding .committed).state "task-1" "tx-1" = true ∧
      isSelectedFor n'.state "task-1" "tx-1" = false ∧
      n'.penalties = [⟨"miner-1", "task-1", 5, "invalid reveal signature"⟩] ∧
      n'.standings.find? "miner-1" = some ⟨⟨0, 4⟩, some "2026-05-10T00:05:00+00:00"⟩ ∧
      ¬Undisturbed "miner-1" (localStanding .committed) n' := by
  refine ⟨forged_unsigned _, quiet_localStanding _ _ _ _, _, foldl_mem_states _ _ _, ?_⟩
  have hpenalties : (MinerCall.step localTasks (localStanding .committed)
      (1778371200000000, .reveal 1778371200000000 forgedReveal)).penalties =
        [⟨"miner-1", "task-1", 5, "invalid reveal signature"⟩] := by
    decide +kernel
  refine ⟨by decide +kernel, by decide +kernel, by decide +kernel, hpenalties, by decide +kernel,
    fun h => ?_⟩
  have hkept := h.penalties
  change ((MinerCall.step localTasks (localStanding .committed)
    (1778371200000000, .reveal 1778371200000000 forgedReveal)).penalties.filter _) = _ at hkept
  rw [hpenalties] at hkept
  cases hkept

end Picoin
