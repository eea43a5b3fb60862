import Picoin.Proofs.GossipConvergence
import Picoin.Proofs.VotePaths
import Picoin.Services.JobGossip

/-!
# One result for a certificate

An approval names a job and a task, but not the result that its validator has looked at. A node
takes the result from its own row of the job, and the transactions from its row of the task; both
rows may come from a peer, and nobody signs them.

* **`CertifyingNode`** — a node with the blocks that it has accepted for its jobs;
* **`GenuineMessage`** — a row that a message brings is the one the validators were shown;
* **`certified_result_unique`** — two nodes with such rows accept the same result for a job;
* **`forged_job_certified`** — one forged job, and one approval certifies two results.
-/

namespace Picoin

open Outcome Run

variable {σ : Type}

/-! ## What a validator is shown -/

/-- The result of a job. -/
structure ShownResult where
  taskId : String
  resultHash : String
  merkleRoot : String
deriving DecidableEq

/-- The result of every job, and the root of the transactions of every task, as the validators are
shown them. -/
structure Shown where
  result : String → ShownResult
  txMerkleRoot : String → String

def ValidationJobRow.result (job : ValidationJobRow) : ShownResult where
  taskId := job.taskId
  resultHash := job.resultHash
  merkleRoot := job.merkleRoot

def JobEnvelope.result (e : JobEnvelope) : ShownResult where
  taskId := e.taskId
  resultHash := textOr e.job.resultHash ""
  merkleRoot := textOr e.job.merkleRoot ""

/-- The rows of a node are those that the validators were shown. -/
structure Genuine (shown : Shown) (s : MiningState σ) : Prop where
  jobs : ∀ jobId job, s.jobs.find? jobId = some job → job.result = shown.result jobId
  tasks : ∀ taskId task, s.tasks.find? taskId = some task →
    task.txMerkleRoot = shown.txMerkleRoot taskId

/-! ## Nodes -/

/-- What is delivered to a node. -/
inductive NodeMessage where
  | job (expiry : String) (e : JobEnvelope)
  | task (e : TaskEnvelope)
  | vote (call : VoteCall)

/-- A node, and the blocks that votes have made it accept, each with its job. -/
structure CertifyingNode (σ : Type) where
  state : MiningState σ
  accepted : List (String × BlockDraft)

/-- One message; a message that raises changes nothing. -/
def CertifyingNode.step (mc : MiningConfig) (gc : GossipConfig) (services : BlockServices σ)
    (n : CertifyingNode σ) (message : Instant × NodeMessage) : CertifyingNode σ :=
  match message.2 with
  | .job expiry e =>
    { n with
      state := attempt
        (receiveValidationJobGossip gc (isoformat message.1) expiry n.state e) n.state }
  | .task e =>
    { n with state := attempt (receiveTaskGossipOnNode gc (isoformat message.1) n.state e) n.state }
  | .vote call =>
    let s := VoteCall.step mc services n.state (message.1, call)
    { state := s
      accepted := n.accepted ++ (s.blocks.drop n.state.blocks.length).map fun block =>
        (call.jobId, block.toBlockDraft) }

/-- A row that the message brings is the one that the validators were shown. Rows that are there
already stay, but for the transactions of a task. -/
def GenuineMessage (shown : Shown) (n : CertifyingNode σ) (message : Instant × NodeMessage) : Prop :=
  match message.2 with
  | .job _ e =>
    (n.state.jobs.find? e.jobId = none → e.result = shown.result e.jobId) ∧
      (n.state.tasks.find? e.taskId = none → e.txMerkleRoot = shown.txMerkleRoot e.taskId)
  | .task e =>
    (∀ root, e.task.txMerkleRoot = some root → root = shown.txMerkleRoot e.taskId) ∧
      (n.state.tasks.find? e.taskId = none →
        textOr e.task.txMerkleRoot "" = shown.txMerkleRoot e.taskId)
  | .vote _ => True

/-- The blocks that two nodes have accepted for one job and task have the same result. -/
def SameResult {σ σ' : Type} (n : CertifyingNode σ) (n' : CertifyingNode σ') : Prop :=
  ∀ jobId block block', (jobId, block) ∈ n.accepted → (jobId, block') ∈ n'.accepted →
    block.taskId = block'.taskId →
      block.resultHash = block'.resultHash ∧ block.merkleRoot = block'.merkleRoot ∧
        block.txMerkleRoot = block'.txMerkleRoot

/-! ## What a vote leaves -/

/-- The columns that a block is made of are left alone. -/
structure KeepsResults (s s' : MiningState σ) : Prop where
  jobs : ∀ jobId, (s'.jobs.find? jobId).map ValidationJobRow.result =
    (s.jobs.find? jobId).map ValidationJobRow.result
  tasks : ∀ taskId, (s'.tasks.find? taskId).map TaskRow.txMerkleRoot =
    (s.tasks.find? taskId).map TaskRow.txMerkleRoot

/-- A state has its own results. -/
theorem KeepsResults.refl (s : MiningState σ) : KeepsResults s s := ⟨fun _ => rfl, fun _ => rfl⟩

/-- Results that are kept twice are kept. -/
theorem KeepsResults.trans {s s' s'' : MiningState σ} (h : KeepsResults s s')
    (h' : KeepsResults s' s'') : KeepsResults s s'' :=
  ⟨fun jobId => (h'.jobs jobId).trans (h.jobs jobId),
    fun taskId => (h'.tasks taskId).trans (h.tasks taskId)⟩

/-- Closing a job keeps the results. -/
theorem keepsResults_closeJob (s : MiningState σ) (jobId : String) (verdict : JobVerdict) :
    KeepsResults s (closeJob s jobId verdict) := by
  refine ⟨fun id => ?_, fun _ => rfl⟩
  apply Sql.Table.map_find?_modify
  intro job
  rfl

/-- So does the rejection of a task. -/
theorem keepsResults_rejectTask (s : MiningState σ) (taskId timestamp : String) :
    KeepsResults s (rejectTask s taskId timestamp) := by
  refine ⟨fun _ => rfl, fun id => ?_⟩
  apply Sql.Table.map_find?_modify
  intro task
  rfl

/-- So does its acceptance. -/
theorem keepsResults_acceptTask (s : MiningState σ) (taskId timestamp : String) :
    KeepsResults s (acceptTask s taskId timestamp) := by
  refine ⟨fun _ => rfl, fun id => ?_⟩
  apply Sql.Table.map_find?_modify
  intro task
  rfl

/-- So does a rejection that releases transactions. -/
theorem keepsResults_rejectAndRelease (s : MiningState σ) (taskId timestamp : String) :
    KeepsResults s (rejectAndRelease s taskId timestamp) := by
  have hreject := keepsResults_rejectTask s taskId timestamp
  exact ⟨hreject.jobs, hreject.tasks⟩

/-- A task that becomes stale keeps its result. -/
theorem keepsResults_markCompetitiveTaskStale (s : MiningState σ) (taskId reason timestamp : String) :
    KeepsResults s (markCompetitiveTaskStale s taskId reason timestamp) := by
  constructor
  · intro jobId
    refine Sql.Table.map_find?_mapRows s.jobs (fun _ job => ?_) jobId
    split <;> rfl
  · intro id
    refine Sql.Table.map_find?_modify s.tasks taskId (fun task => ?_) id
    split <;> rfl

/-- So do the losers of a round. -/
theorem keepsResults_closeRound (s : MiningState σ) (taskId : String) (task : TaskRow) (height : ℤ)
    (timestamp : String) :
    KeepsResults s (closeCompetitiveRoundAfterBlock s taskId task height timestamp) := by
  unfold closeCompetitiveRoundAfterBlock
  generalize openCompetitors s taskId task = others
  induction others generalizing s with
  | nil => exact .refl s
  | cons other rest ih =>
    exact (keepsResults_markCompetitiveTaskStale s other _ timestamp).trans (ih _)

/-! ## The block of a vote -/

/-- The drafts of a node's blocks. -/
def MiningState.drafts (s : MiningState σ) : List BlockDraft :=
  s.blocks.map MinedBlockRow.toBlockDraft

/-- A block with the result of a job and the transactions of its task. -/
def BlockOf (s : MiningState σ) (jobId : String) (draft : BlockDraft) : Prop :=
  ∃ job task, s.jobs.find? jobId = some job ∧ s.tasks.find? job.taskId = some task ∧
    draft.taskId = job.taskId ∧ draft.resultHash = job.resultHash ∧
      draft.merkleRoot = some job.merkleRoot ∧ draft.txMerkleRoot = task.txMerkleRoot

/-- What a vote on a job does: it appends the job's block, or none. -/
structure VoteEffect (s : MiningState σ) (jobId : String) (s' : MiningState σ) : Prop extends
    KeepsResults s s' where
  drafts : s'.drafts = s.drafts ∨ ∃ draft, BlockOf s jobId draft ∧ s'.drafts = s.drafts ++ [draft]

/-- A vote may leave results and blocks. -/
theorem VoteEffect.of_keeps {s s' : MiningState σ} (h : KeepsResults s s') {jobId : String}
    (hblocks : s'.blocks = s.blocks) : VoteEffect s jobId s' :=
  ⟨h, .inl (congrArg (List.map MinedBlockRow.toBlockDraft) hblocks)⟩

/-- It may leave jobs, tasks and blocks. -/
theorem VoteEffect.of_eq {s s' : MiningState σ} (hjobs : s'.jobs = s.jobs)
    (htasks : s'.tasks = s.tasks) (hblocks : s'.blocks = s.blocks) (jobId : String) :
    VoteEffect s jobId s' := by
  refine .of_keeps ⟨fun id => ?_, fun id => ?_⟩ hblocks
  · rw [hjobs]
  · rw [htasks]

/-- It may leave everything. -/
theorem VoteEffect.refl (s : MiningState σ) (jobId : String) : VoteEffect s jobId s :=
  .of_keeps (.refl s) rfl

/-- What keeps the results may follow it. -/
theorem VoteEffect.trans_keeps {s s' s'' : MiningState σ} {jobId : String}
    (h : VoteEffect s jobId s') (h' : KeepsResults s' s'') (hblocks : s''.blocks = s'.blocks) :
    VoteEffect s jobId s'' := by
  have hdrafts : s''.drafts = s'.drafts := congrArg (List.map MinedBlockRow.toBlockDraft) hblocks
  refine ⟨h.toKeepsResults.trans h', ?_⟩
  rw [hdrafts]
  exact h.drafts

/-- Marking a block as fraudulent keeps what it is made of. -/
theorem drafts_markBlockFraudulent (blocks : List MinedBlockRow) (mark : FraudMark) :
    (markBlockFraudulent blocks mark).map MinedBlockRow.toBlockDraft =
      blocks.map MinedBlockRow.toBlockDraft := by
  unfold markBlockFraudulent
  rw [List.map_map]
  refine List.map_congr_left fun block _ => ?_
  dsimp only [Function.comp]
  split <;> rfl

/-- An accepted block holds the result of the job and its task. -/
theorem acceptBlock_effect {mc : MiningConfig} {services : BlockServices σ} {s s' : MiningState σ}
    {c : FinalizationCall} (hc : CallOf s c) {now : String} {validationMs : Option ℤ}
    {block : MinedBlockRow}
    (h : acceptBlock mc services now s (jobClaim c.jobId c.job c.task) c.params validationMs =
      .ok (block, s')) : VoteEffect s c.jobId s' := by
  rcases acceptBlock_eq_ok h with ⟨-, hs⟩ | ⟨transactions, settlement, -, hmatches, -, hblock, -, rfl⟩
  · rw [hs]
    exact .refl s c.jobId
  · have hkeeps : KeepsResults s (insertBlock services s block settlement) := by
      refine ⟨fun _ => rfl, fun id => ?_⟩
      apply Sql.Table.map_find?_modify
      intro task
      rfl
    have hdrafts : (insertBlock services s block settlement).drafts =
        s.drafts ++ [block.toBlockDraft] := by
      unfold MiningState.drafts insertBlock
      dsimp only
      cases settlement.fraud with
      | none => exact List.map_append
      | some mark => exact (drafts_markBlockFraudulent _ mark).trans List.map_append
    have hclosed := keepsResults_closeRound (insertBlock services s block settlement)
      (jobClaim c.jobId c.job c.task).taskId (jobClaim c.jobId c.job c.task).task
    refine ⟨hkeeps.trans (hclosed _ _), .inr ⟨block.toBlockDraft,
      ⟨c.job, c.task, hc.job, hc.task, ?_⟩, ?_⟩⟩
    · rw [hblock]
      -- the commitment of the block is the one that the task was assigned with
      unfold TxCommitment.matchesTask at hmatches
      simp only [Bool.and_eq_true, decide_eq_true_eq] at hmatches
      exact ⟨rfl, rfl, rfl, hmatches.1.1.1⟩
    · rw [← hdrafts]
      exact congrArg (List.map MinedBlockRow.toBlockDraft)
        (closeCompetitiveRoundAfterBlock_blocks _ _ _ _ _).1

/-- A quorum of approvals has no other effect. -/
theorem acceptByQuorum_effect {mc : MiningConfig} {services : BlockServices σ}
    {s s' : MiningState σ} {c : FinalizationCall} (hc : CallOf s c) {keepStale : Bool}
    {response : VoteResponse} (h : acceptByQuorum mc services keepStale s c = .ok (s', response)) :
    VoteEffect s c.jobId s' := by
  unfold acceptByQuorum at h
  split at h
  · cases h
    exact .refl s c.jobId
  · next raw _ =>
    cases h
    refine .of_keeps ?_ (rejectFailed_blocks keepStale s c raw)
    refine KeepsResults.trans ?_ (keepsResults_closeJob _ _ _)
    split
    · exact keepsResults_markCompetitiveTaskStale s _ _ _
    · split
      · exact .refl s
      · exact keepsResults_rejectAndRelease s _ _
  · cases h
  · next block s₁ haccept =>
    cases h
    obtain ⟨ms, -, haccept⟩ := bind_eq_ok.mp haccept
    exact (acceptBlock_effect hc haccept).trans_keeps (keepsResults_closeJob _ _ _) rfl

/-- A job for a block that is there adds no block. -/
theorem rejectDuplicate_effect (s : MiningState σ) (c : FinalizationCall) (block : MinedBlockRow) :
    VoteEffect s c.jobId (rejectDuplicate s c block).1 :=
  .of_keeps ((keepsResults_rejectAndRelease s _ _).trans (keepsResults_closeJob _ _ _)) rfl

/-- Nor does a quorum of rejections. -/
theorem rejectByQuorum_effect (s : MiningState σ) (c : FinalizationCall) :
    VoteEffect s c.jobId (rejectByQuorum s c).1 :=
  .of_keeps ((keepsResults_rejectTask s _ _).trans (keepsResults_closeJob _ _ _)) rfl

/-- A submitted vote has no other effect. -/
theorem finalizeSubmitted_effect {mc : MiningConfig} {services : BlockServices σ}
    {s s' : MiningState σ} {c : FinalizationCall} (hc : CallOf s c) {counts : ℤ × ℤ} {required : ℤ}
    {response : VoteResponse}
    (h : finalizeSubmitted mc services s c counts required = .ok (s', response)) :
    VoteEffect s c.jobId s' := by
  unfold finalizeSubmitted at h
  split at h
  · split at h
    · next block _ =>
      have heffect := rejectDuplicate_effect s c block
      cases h
      exact heffect
    · exact acceptByQuorum_effect hc h
  · split at h
    · have heffect := rejectByQuorum_effect s c
      cases h
      exact heffect
    · cases h
      exact .refl s c.jobId

/-- Nor has a vote that came by gossip. -/
theorem finalizeFromGossip_effect {mc : MiningConfig} {services : BlockServices σ}
    {s s' : MiningState σ} {c : FinalizationCall} (hc : CallOf s c) {counts : ℤ × ℤ} {required : ℤ}
    {response : Option VoteResponse}
    (h : finalizeFromGossip mc services s c counts required = .ok (s', response)) :
    VoteEffect s c.jobId s' := by
  unfold finalizeFromGossip at h
  split at h
  · split at h
    · next block _ =>
      split at h
      · cases h
        exact .of_keeps ((keepsResults_acceptTask s _ _).trans (keepsResults_closeJob _ _ _)) rfl
      · have heffect := rejectDuplicate_effect s c block
        cases h
        exact heffect
    · obtain ⟨⟨s₁, response₁⟩, haccept, h⟩ := bind_eq_ok.mp h
      cases h
      exact acceptByQuorum_effect hc haccept
  · split at h
    · have heffect := rejectByQuorum_effect s c
      cases h
      exact heffect
    · cases h
      exact .refl s c.jobId

/-- Nor have the votes that were there before. -/
theorem finalizeFromExistingVotes_effect {mc : MiningConfig} {services : BlockServices σ}
    {s s' : MiningState σ} {now jobId : String} {job : ValidationJobRow}
    (hjob : s.jobs.find? jobId = some job) {required : ℤ} {response : Option VoteResponse}
    (h : finalizeFromExistingVotes mc services now s jobId job required = .ok (s', response)) :
    VoteEffect s jobId s' := by
  unfold finalizeFromExistingVotes at h
  dsimp only at h
  split at h
  · cases h
    exact .refl s jobId
  · split at h
    · cases h
    · next task htask =>
      split at h
      · cases h
        exact .refl s jobId
      · obtain ⟨params, -, h⟩ := bind_eq_ok.mp h
        exact finalizeFromGossip_effect ⟨hjob, htask⟩ h

/-! ## The requests -/

/-- A call of `submit_validation_result` has no other effect. -/
theorem submit_effect (mc : MiningConfig) (services : BlockServices σ) (now : Instant)
    (validationMs : ℤ) (s : MiningState σ) (r : SubmitRequest) :
    VoteEffect s r.jobId (submitValidationResult mc services now validationMs s r).1 := by
  unfold submitValidationResult
  dsimp only
  split
  · exact .refl s r.jobId
  next job task validator hcheck =>
  obtain ⟨hjob, htask, -⟩ := checkSubmission_eq_ok hcheck
  split
  · cases protocolParamsForTask s.protocolParams task <;> exact .refl s r.jobId
  split
  · cases hexisting : existingVoteResponse mc services (isoformat now) s r.jobId job task with
    | error e => exact .refl s r.jobId
    | ok result =>
      obtain ⟨s', response⟩ := result
      obtain ⟨params, -, hexisting⟩ := bind_eq_ok.mp hexisting
      obtain ⟨⟨s₁, finalization⟩, hfinalize, hexisting⟩ := bind_eq_ok.mp hexisting
      have hstate : s' = s₁ := by
        dsimp only at hexisting
        split at hexisting
        · cases hexisting
          rfl
        · split at hexisting <;> cases hexisting <;> rfl
      rw [hstate]
      exact finalizeFromExistingVotes_effect hjob hfinalize
  split
  · cases hcount : countSubmittedVote mc services now validationMs s r job task with
    | error e => exact .refl s r.jobId
    | ok result =>
      obtain ⟨s', response⟩ := result
      obtain ⟨params, -, hcount⟩ := bind_eq_ok.mp hcount
      -- recording the vote leaves the jobs, the tasks and the blocks alone
      have heffect := finalizeSubmitted_effect ⟨hjob, htask⟩ hcount
      refine ⟨⟨heffect.jobs, heffect.tasks⟩, heffect.drafts.imp id ?_⟩
      rintro ⟨draft, hof, hnew⟩
      exact ⟨draft, hof, hnew⟩
  · refine VoteEffect.of_eq ?_ ?_ ?_ _ <;> rfl

/-- Nor has a vote message. -/
theorem gossip_effect {mc : MiningConfig} {services : BlockServices σ} {now : Instant}
    {s s' : MiningState σ} {m : VoteMessage}
    (h : receiveValidationVoteGossip mc services now s m = .ok s') :
    VoteEffect s m.signedVote.jobId s' := by
  unfold receiveValidationVoteGossip at h
  dsimp only at h
  split at h
  · cases h
  split at h
  · cases h
  next job hjob =>
  split at h
  · cases h
  next htaskId =>
  split at h
  · cases h
  split at h
  · -- a repeated vote only finalizes what is recorded
    obtain ⟨params, -, h⟩ := bind_eq_ok.mp h
    obtain ⟨⟨s₁, response⟩, hfinalize, h⟩ := bind_eq_ok.mp h
    cases h
    exact finalizeFromExistingVotes_effect hjob hfinalize
  split at h
  · unfold countGossipedVote at h
    dsimp only at h
    split at h
    · cases h
    next task htask =>
    obtain ⟨params, -, h⟩ := bind_eq_ok.mp h
    split at h
    · obtain ⟨⟨s₁, response⟩, hfinalize, h⟩ := bind_eq_ok.mp h
      cases h
      rw [not_not] at htaskId
      rw [← htaskId] at htask
      have heffect := finalizeFromGossip_effect ⟨hjob, htask⟩ hfinalize
      refine ⟨⟨heffect.jobs, heffect.tasks⟩, heffect.drafts.imp id ?_⟩
      rintro ⟨draft, hof, hnew⟩
      exact ⟨draft, hof, hnew⟩
    · cases h
      refine VoteEffect.of_eq ?_ ?_ ?_ _ <;> rfl
  · cases h

/-- A vote adds at most a block with the result of its job. -/
theorem vote_effect (mc : MiningConfig) (services : BlockServices σ) (now : Instant)
    (s : MiningState σ) (call : VoteCall) :
    VoteEffect s call.jobId (VoteCall.step mc services s (now, call)) := by
  cases call with
  | submit validationMs r => exact submit_effect mc services now validationMs s r
  | gossip m =>
    exact attempt_of (P := fun s' : MiningState σ => VoteEffect s m.signedVote.jobId s')
      (.refl s m.signedVote.jobId) fun _ h => gossip_effect h

/-! ## What a message brings -/

/-- A stored job is the one that was there, or the one of the message. -/
theorem Genuine.receiveJob {shown : Shown} {gc : GossipConfig} {now expiry : String}
    {s s' : MiningState σ} {e : JobEnvelope} (hs : Genuine shown s)
    (hjob : s.jobs.find? e.jobId = none → e.result = shown.result e.jobId)
    (htask : s.tasks.find? e.taskId = none → e.txMerkleRoot = shown.txMerkleRoot e.taskId)
    (h : receiveValidationJobGossip gc now expiry s e = .ok s') : Genuine shown s' := by
  unfold receiveValidationJobGossip at h
  split at h
  · cases h
  split at h
  · cases h
  split at h
  · cases h
  next status _ =>
  obtain ⟨s₁, hensure, h⟩ := bind_eq_ok.mp h
  have hensured : s₁.jobs = s.jobs ∧ Genuine shown s₁ := by
    unfold ensureJobTask at hensure
    split at hensure
    · split at hensure
      · cases hensure
      · dsimp only at hensure
        split at hensure
        · cases hensure
          refine ⟨rfl, hs.jobs, fun taskId task hfind => ?_⟩
          -- a promotion keeps the transactions of the task
          have hcolumn : (s.tasks.find? taskId).map TaskRow.txMerkleRoot =
              some task.txMerkleRoot := by
            rw [← Sql.Table.map_find?_modify s.tasks e.taskId (f := TaskRow.promote expiry e.task) (fun row => ?_)
              taskId, hfind, Option.map_some]
            unfold TaskRow.promote
            split <;> rfl
          obtain ⟨row, hrow, hroot⟩ := Option.map_eq_some_iff.mp hcolumn
          rw [← hroot]
          exact hs.tasks taskId row hrow
        · cases hensure
          exact ⟨rfl, hs⟩
    · next hnone =>
      cases hensure
      refine ⟨rfl, hs.jobs, fun taskId task hfind => ?_⟩
      dsimp only at hfind
      rw [Sql.Table.find?_upsert] at hfind
      split at hfind
      · next heq =>
        cases hfind
        rw [heq]
        exact htask hnone
      · exact hs.tasks taskId task hfind
  split at h
  · cases h
    exact hensured.2
  next hnone =>
  split at h
  · cases h
  cases h
  refine ⟨fun jobId job hfind => ?_, hensured.2.tasks⟩
  dsimp only at hfind
  rw [Sql.Table.find?_upsert] at hfind
  split at hfind
  · next heq =>
    cases hfind
    rw [heq]
    rw [hensured.1] at hnone
    exact hjob hnone
  · exact hensured.2.jobs jobId job hfind

/-- The rows of tasks after the check of a message. -/
theorem ensureTaskRow_tasks {gc : GossipConfig} {now : String} {s s' : TaskTables}
    {e : TaskEnvelope} {taskId minerId : String} {status : TaskStatus} {row : TaskRow}
    {inserted : Bool}
    (h : ensureTaskRow gc now s e taskId minerId status = .ok (s', row, inserted)) :
    s'.tasks = s.tasks ∨ s.tasks.find? taskId = none ∧
      s'.tasks = s.tasks.upsert taskId (newTaskRow gc now s.protocolParams e.task minerId status) := by
  unfold ensureTaskRow at h
  split at h
  · split at h
    · cases h
    · cases h
      exact .inl rfl
  · next hnone =>
    cases h
    exact .inr ⟨hnone, rfl⟩

/-- A message about a task with the root that is shown preserves it. -/
theorem Genuine.receiveTask {shown : Shown} {gc : GossipConfig} {now : String}
    {s s' : MiningState σ} {e : TaskEnvelope} (hs : Genuine shown s)
    (hmerge : ∀ root, e.task.txMerkleRoot = some root → root = shown.txMerkleRoot e.taskId)
    (hnew : s.tasks.find? e.taskId = none →
      textOr e.task.txMerkleRoot "" = shown.txMerkleRoot e.taskId)
    (h : receiveTaskGossipOnNode gc now s e = .ok s') : Genuine shown s' := by
  obtain ⟨result, hreceive, h⟩ := bind_eq_ok.mp h
  cases h
  refine ⟨hs.jobs, ?_⟩
  show ∀ taskId task, result.tables.tasks.find? taskId = some task →
    task.txMerkleRoot = shown.txMerkleRoot taskId
  obtain ⟨status, -, s₁, row, inserted, hensure, s₂, hsnapshot, s₃, commitmentInserted,
    hcommitment, hresult⟩ := receiveTaskGossip_eq_ok hreceive
  -- a row that is inserted has the root of its envelope
  have hensured : ∀ taskId task, s₃.tasks.find? taskId = some task →
      task.txMerkleRoot = shown.txMerkleRoot taskId := by
    rw [(receiveCommitment_eq_ok hcommitment).1, (upsertSnapshot_eq_ok hsnapshot).1]
    rcases ensureTaskRow_tasks hensure with hsame | ⟨hnone, hinserted⟩
    · rw [hsame]
      exact hs.tasks
    · rw [hinserted]
      intro taskId task hfind
      rw [Sql.Table.find?_upsert] at hfind
      -- a merge writes the root only where the envelope gives one
      split at hfind
      · next heq =>
        cases hfind
        rw [heq]
        exact hnew hnone
      · exact hs.tasks taskId task hfind
  rw [hresult]
  unfold mergeTask
  split
  · intro taskId task hfind
    dsimp only at hfind
    rw [Sql.Table.find?_modify] at hfind
    split at hfind
    · next heq =>
      obtain ⟨old, hold, hmerged⟩ := Option.map_eq_some_iff.mp hfind
      rw [← hmerged, heq]
      unfold TaskRow.merge
      dsimp only
      cases hroot : e.task.txMerkleRoot with
      | none => exact hensured e.taskId old hold
      | some root => exact hmerge root hroot
    · exact hensured taskId task hfind
  · exact hensured

/-! ## Every run -/

/-- The rows of the node, and the blocks that it has accepted, have the results that the validators
were shown. -/
structure Certified (shown : Shown) (n : CertifyingNode σ) : Prop where
  genuine : Genuine shown n.state
  accepted : ∀ jobId block, (jobId, block) ∈ n.accepted →
    block.taskId = (shown.result jobId).taskId ∧
      block.resultHash = (shown.result jobId).resultHash ∧
        block.merkleRoot = some (shown.result jobId).merkleRoot ∧
          block.txMerkleRoot = shown.txMerkleRoot block.taskId

/-- What keeps the results preserves it. -/
theorem Genuine.of_keeps {shown : Shown} {s s' : MiningState σ} (h : Genuine shown s)
    (hkeeps : KeepsResults s s') : Genuine shown s' := by
  constructor
  · intro jobId job hfind
    have hcolumn := hkeeps.jobs jobId
    rw [hfind] at hcolumn
    obtain ⟨old, hold, hresult⟩ := Option.map_eq_some_iff.mp hcolumn.symm
    rw [← hresult]
    exact h.jobs jobId old hold
  · intro taskId task hfind
    have hcolumn := hkeeps.tasks taskId
    rw [hfind] at hcolumn
    obtain ⟨old, hold, hroot⟩ := Option.map_eq_some_iff.mp hcolumn.symm
    rw [← hroot]
    exact h.tasks taskId old hold

/-- The block of a job with genuine rows. -/
theorem BlockOf.shown {shown : Shown} {s : MiningState σ} (hs : Genuine shown s) {jobId : String}
    {draft : BlockDraft} (h : BlockOf s jobId draft) :
    draft.taskId = (shown.result jobId).taskId ∧
      draft.resultHash = (shown.result jobId).resultHash ∧
        draft.merkleRoot = some (shown.result jobId).merkleRoot ∧
          draft.txMerkleRoot = shown.txMerkleRoot draft.taskId := by
  obtain ⟨job, task, hjob, htask, htaskId, hresult, hmerkle, htx⟩ := h
  rw [← hs.jobs jobId job hjob, htaskId, htx]
  exact ⟨rfl, hresult, hmerkle, hs.tasks job.taskId task htask⟩

/-- A genuine message keeps the node's results those that were shown. -/
theorem Certified.step {shown : Shown} {mc : MiningConfig} {gc : GossipConfig}
    {services : BlockServices σ} (n : CertifyingNode σ) (message : Instant × NodeMessage)
    (hn : Certified shown n) (hmessage : GenuineMessage shown n message) :
    Certified shown (n.step mc gc services message) := by
  obtain ⟨now, message⟩ := message
  cases message with
  | job expiry e =>
    exact ⟨attempt_of hn.genuine fun _ h => hn.genuine.receiveJob hmessage.1 hmessage.2 h,
      hn.accepted⟩
  | task e =>
    exact ⟨attempt_of hn.genuine fun _ h => hn.genuine.receiveTask hmessage.1 hmessage.2 h,
      hn.accepted⟩
  | vote call =>
    have heffect := vote_effect mc services now n.state call
    refine ⟨hn.genuine.of_keeps heffect.toKeepsResults, fun jobId block hmem => ?_⟩
    rcases List.mem_append.mp hmem with hold | hnew
    · exact hn.accepted jobId block hold
    · obtain ⟨row, hrow, hpair⟩ := List.mem_map.mp hnew
      cases hpair
      have hdraft : row.toBlockDraft ∈
          ((VoteCall.step mc services n.state (now, call)).drafts).drop n.state.drafts.length := by
        unfold MiningState.drafts
        rw [List.length_map, ← List.map_drop]
        exact List.mem_map_of_mem hrow
      -- a block that is new is the job's
      rcases heffect.drafts with hsame | ⟨draft, hof, happended⟩
      · rw [hsame, List.drop_length] at hdraft
        cases hdraft
      · rw [happended, List.drop_left, List.mem_singleton] at hdraft
        rw [hdraft]
        exact hof.shown hn.genuine

/-- A run of genuine messages. -/
theorem certified_of_run {shown : Shown} {mc : MiningConfig} {gc : GossipConfig}
    {services : BlockServices σ} {s : MiningState σ} {messages : List (Instant × NodeMessage)}
    (hs : Genuine shown s)
    (h : EachStep (CertifyingNode.step mc gc services) (GenuineMessage shown) ⟨s, []⟩ messages)
    {n : CertifyingNode σ}
    (hn : n ∈ states (CertifyingNode.step mc gc services) ⟨s, []⟩ messages) : Certified shown n := by
  have hstep : ∀ n message, Certified shown n → GenuineMessage shown n message →
      Certified shown (CertifyingNode.step mc gc services n message) := by
    intro n message hn hmessage
    exact hn.step n message hmessage
  have hstart : Certified shown ⟨s, []⟩ := ⟨hs, fun _ _ hmem => absurd hmem List.not_mem_nil⟩
  exact invariant_of_eachStep hstep messages _ hstart h n hn

/-- Two nodes to which genuine messages are delivered in any order accept one result for a job. -/
theorem certified_result_unique {σ σ' : Type} (shown : Shown) (mc mc' : MiningConfig)
    (gc gc' : GossipConfig) (services : BlockServices σ) (services' : BlockServices σ')
    (s : MiningState σ) (s' : MiningState σ') (messages messages' : List (Instant × NodeMessage))
    (hs : Genuine shown s) (hs' : Genuine shown s')
    (h : EachStep (CertifyingNode.step mc gc services) (GenuineMessage shown) ⟨s, []⟩ messages)
    (h' : EachStep (CertifyingNode.step mc' gc' services') (GenuineMessage shown) ⟨s', []⟩
      messages') :
    ∀ n ∈ states (CertifyingNode.step mc gc services) ⟨s, []⟩ messages,
      ∀ n' ∈ states (CertifyingNode.step mc' gc' services') ⟨s', []⟩ messages', SameResult n n' := by
  intro n hn n' hn' jobId block block' hblock hblock' htask
  obtain ⟨-, hresult, hmerkle, htx⟩ := (certified_of_run hs h hn).accepted jobId block hblock
  obtain ⟨-, hresult', hmerkle', htx'⟩ := (certified_of_run hs' h' hn').accepted jobId block' hblock'
  refine ⟨hresult.trans hresult'.symm, hmerkle.trans hmerkle'.symm, ?_⟩
  rw [htx, htx', htask]

/-! ## Two nodes -/

/-- What the second validator signs: its approval of the job. -/
def approvalPayload : Json.Value :=
  validationResultSignaturePayload "job-1" "validator-2" "task-1" true "valid"
    "2026-05-10T00:00:00+00:00"

/-- The local network, where nothing but the approval has been signed. -/
def approvalMining : MiningConfig :=
  { votingMining with
    verifyPayloadSignature := fun publicKey payload signature =>
      publicKey = bobKey && Json.canonicalJson payload = Json.canonicalJson approvalPayload &&
        signature = "signed" }

/-- The task is revealed, and the node does not know its job yet. -/
def localCertifying : MiningState Unit := { localVoting with jobs := .empty }

/-- The job of the task with a result. -/
def announceJob (resultHash merkleRoot : String) : Instant × NodeMessage :=
  (1778371200000000, .job "2026-05-10T00:10:00+00:00"
    { job :=
        { jobId := some "job-1"
          taskId := some "task-1"
          minerId := some "miner-1"
          resultHash := some resultHash
          merkleRoot := some merkleRoot
          jobCreatedAt := some "2026-05-10T00:00:00+00:00" } })

/-- The approval as a peer passes it on. -/
def announceApproval : Instant × NodeMessage :=
  (1778371200000000, .vote (.gossip
    { jobId := some "job-1"
      taskId := some "task-1"
      validatorId := some "validator-2"
      approved := true
      reason := some "valid"
      signature := some "signed"
      signedAt := some "2026-05-10T00:00:00+00:00"
      validationMs := some 20
      createdAt := none }))

/-- The second validator was shown the first result. -/
def localShown : Shown where
  result _ := ⟨"task-1", "result-1", "root-1"⟩
  txMerkleRoot _ := txMerkleRoot localConfig []

/-- It holds of the node before the first message. -/
theorem genuine_localCertifying : Genuine localShown localCertifying := by
  have htasks : localCertifying.tasks = Sql.Table.empty.upsert "task-1" localTask := rfl
  have hjobs : localCertifying.jobs = .empty := rfl
  constructor
  · intro jobId job hfind
    rw [hjobs] at hfind
    cases hfind
  · intro taskId task hfind
    rw [htasks, Sql.Table.find?_upsert] at hfind
    split at hfind
    · have hrow : localTask = task := Option.some.inj hfind
      rw [← hrow]
      rfl
    · cases hfind

/-- The messages about the job come before those about the approval. -/
theorem genuine_announceJob :
    EachStep (CertifyingNode.step approvalMining localGossip localServices)
      (GenuineMessage localShown) ⟨localCertifying, []⟩
      [announceJob "result-1" "root-1", announceApproval] := by
  refine ⟨⟨fun _ => ?_, fun hnone => ?_⟩, trivial, trivial⟩
  · decide +kernel
  · exact absurd hnone (by decide +kernel)

/-- The approval comes before the job, and again behind it. -/
def approvalFirst : List (Instant × NodeMessage) :=
  [announceApproval, announceJob "result-1" "root-1", announceApproval]

/-- The approval comes before the job. -/
theorem genuine_approvalFirst :
    EachStep (CertifyingNode.step approvalMining localGossip localServices)
      (GenuineMessage localShown) ⟨localCertifying, []⟩ approvalFirst := by
  refine ⟨trivial, ⟨fun _ => ?_, fun hnone => ?_⟩, trivial, trivial⟩
  · decide +kernel
  · exact absurd hnone (by decide +kernel)

/-- Two nodes that get the messages in different orders both accept the block, with one result. -/
theorem genuine_job_certified :
    let n := [announceJob "result-1" "root-1", announceApproval].foldl
      (CertifyingNode.step approvalMining localGossip localServices) ⟨localCertifying, []⟩
    let n' := approvalFirst.foldl
      (CertifyingNode.step approvalMining localGossip localServices) ⟨localCertifying, []⟩
    n.accepted.map Prod.fst = ["job-1"] ∧ n'.accepted.map Prod.fst = ["job-1"] ∧ SameResult n n' :=
  ⟨by decide +kernel, by decide +kernel,
    certified_result_unique localShown approvalMining approvalMining localGossip localGossip
      localServices localServices localCertifying localCertifying _ _ genuine_localCertifying
      genuine_localCertifying genuine_announceJob genuine_approvalFirst _ (foldl_mem_states _ _ _)
      _ (foldl_mem_states _ _ _)⟩

/-- One node has the job that the validator was shown, the other a forged one; the same approval,
the only one that is signed, makes them accept different results for it. -/
theorem forged_job_certified :
    (∀ publicKey payload signature,
      approvalMining.verifyPayloadSignature publicKey payload signature = true →
        publicKey = bobKey ∧ Json.canonicalJson payload = Json.canonicalJson approvalPayload) ∧
    Genuine localShown localCertifying ∧
    EachStep (CertifyingNode.step approvalMining localGossip localServices)
      (GenuineMessage localShown) ⟨localCertifying, []⟩
      [announceJob "result-1" "root-1", announceApproval] ∧
    ∃ n ∈ states (CertifyingNode.step approvalMining localGossip localServices)
        ⟨localCertifying, []⟩ [announceJob "result-1" "root-1", announceApproval],
      ∃ n' ∈ states (CertifyingNode.step approvalMining localGossip localServices)
          ⟨localCertifying, []⟩ [announceJob "result-2" "root-2", announceApproval],
        ¬SameResult n n' := by
  refine ⟨fun publicKey payload signature hverifies => ?_, genuine_localCertifying,
    genuine_announceJob, _, foldl_mem_states _ _ _, _, foldl_mem_states _ _ _, fun hsame => ?_⟩
  · have hparts : ((publicKey = bobKey && Json.canonicalJson payload =
        Json.canonicalJson approvalPayload) && signature = "signed") = true := hverifies
    simp only [Bool.and_eq_true, decide_eq_true_eq] at hparts
    exact hparts.1
  · have hfirst : (([announceJob "result-1" "root-1", announceApproval].foldl
        (CertifyingNode.step approvalMining localGossip localServices) ⟨localCertifying, []⟩
          ).accepted.any fun p => p.1 = "job-1" && p.2.taskId = "task-1" &&
            p.2.resultHash = "result-1") = true := by
      decide +kernel
    have hsecond : (([announceJob "result-2" "root-2", announceApproval].foldl
        (CertifyingNode.step approvalMining localGossip localServices) ⟨localCertifying, []⟩
          ).accepted.any fun p => p.1 = "job-1" && p.2.taskId = "task-1" &&
            p.2.resultHash = "result-2") = true := by
      decide +kernel
    -- one block each, for one task, with two results
    obtain ⟨⟨jobId, block⟩, hmem, hblock⟩ := List.any_eq_true.mp hfirst
    obtain ⟨⟨jobId', block'⟩, hmem', hblock'⟩ := List.any_eq_true.mp hsecond
    simp only [Bool.and_eq_true, decide_eq_true_eq] at hblock hblock'
    obtain ⟨⟨hjob, htask⟩, hresult⟩ := hblock
    obtain ⟨⟨hjob', htask'⟩, hresult'⟩ := hblock'
    rw [hjob] at hmem
    rw [hjob'] at hmem'
    have hequal := (hsame "job-1" block block' hmem hmem' (htask.trans htask'.symm)).1
    rw [hresult, hresult'] at hequal
    exact absurd hequal (by decide)

end Picoin
