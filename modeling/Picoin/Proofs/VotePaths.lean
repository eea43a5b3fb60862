import Picoin.Services.LocalMining
import Picoin.Services.Validation

/-!
# Submitted and gossiped votes finalize alike

A vote that a validator submits and the same vote that a peer passes on go through code that was
written twice. `votes_finalize_alike_iff` tells for every state and every valid vote whether the
two leave the same task status, job status and blocks, with no task rejected that has a block:

* **`ValidVote`** — a vote on a pending job, signed by a validator that may vote;
* **`FinalizedAlike`** — the two outcomes;
* **`NewVoteAlike`**, **`RecordedVoteAlike`** — the condition for a vote that is new, and for one
  that the node has recorded already;
* **`accepted_block_rejected`** — a block that is there already, where the two differ.
-/

namespace Picoin

open Outcome

variable {σ : Type}

/-! ## The two outcomes -/

def taskStatus (s : MiningState σ) (taskId : String) : Option TaskStatus :=
  (s.tasks.find? taskId).map TaskRow.status

def jobStatus (s : MiningState σ) (jobId : String) : Option ValidationJobStatus :=
  (s.jobs.find? jobId).map ValidationJobRow.status

/-- A block of the chain is the task's. -/
def HasBlock (s : MiningState σ) (taskId : String) : Prop := ∃ b ∈ s.blocks, b.taskId = taskId

/-- The task is rejected although a block of the chain is its own. -/
def LeftRejected (s : MiningState σ) (taskId : String) : Prop :=
  HasBlock s taskId ∧ taskStatus s taskId = some .rejected

/-- The same statuses and blocks, and no task left rejected that has a block. -/
structure FinalizedAlike (jobId taskId : String) (d g : MiningState σ) : Prop where
  task : taskStatus d taskId = taskStatus g taskId
  job : jobStatus d jobId = jobStatus g jobId
  blocks : d.blocks = g.blocks
  direct : ¬LeftRejected d taskId
  gossip : ¬LeftRejected g taskId

/-- A vote on a pending job, signed by a validator that is neither banned nor in cooldown. Ids are
texts without blanks around them. -/
structure ValidVote (mc : MiningConfig) (now : Instant) (s : MiningState σ) (r : SubmitRequest)
    (job : ValidationJobRow) (validator : ValidatorRow) : Prop where
  findJob : s.jobs.find? r.jobId = some job
  pending : job.status = .pending
  findValidator : s.validators.find? r.validatorId = some validator
  notBanned : validator.isBanned = false
  noCooldown : inCooldown mc now validator = false
  signed : (r.signedVote job.taskId).verifies mc.toConfig validator.publicKey = true
  jobId : clean (some r.jobId) = r.jobId ∧ r.jobId ≠ ""
  taskId : clean (some job.taskId) = job.taskId ∧ job.taskId ≠ ""
  validatorId : clean (some r.validatorId) = r.validatorId ∧ r.validatorId ≠ ""

/-- The message that passes a vote on, with the time that its validation took. -/
def SubmitRequest.message (r : SubmitRequest) (taskId : String) (validationMs : ℤ) :
    VoteMessage where
  jobId := some r.jobId
  taskId := some taskId
  validatorId := some r.validatorId
  approved := r.approved
  reason := some r.reason
  signature := some r.signature
  signedAt := some r.signedAt
  validationMs := some validationMs
  createdAt := none

/-- The state after the vote has been submitted. -/
def submitted (mc : MiningConfig) (services : BlockServices σ) (now : Instant) (validationMs : ℤ)
    (s : MiningState σ) (r : SubmitRequest) : MiningState σ :=
  (submitValidationResult mc services now validationMs s r).1

/-- The state after the vote has been passed on by a peer. -/
def gossiped (mc : MiningConfig) (services : BlockServices σ) (now : Instant) (validationMs : ℤ)
    (s : MiningState σ) (r : SubmitRequest) (taskId : String) : MiningState σ :=
  match receiveValidationVoteGossip mc services now s (r.message taskId validationMs) with
  | .ok s' => s'
  | .error _ => s

/-! ## The condition -/

/-- The finalization call of a vote that is new. -/
def newVoteCall (r : SubmitRequest) (job : ValidationJobRow) (task : TaskRow) (validationMs : ℤ)
    (params : ℤ × ProtocolParamsRow) (now : Instant) : FinalizationCall where
  jobId := r.jobId
  job := job
  task := task
  vote := (r.signedVote job.taskId).cast validationMs
  params := params
  now := isoformat now

/-- A new vote, recorded in `s'`, finalizes alike: one that completes a quorum is about a task
without a block, and a task that is stale does not fail for its transactions; another vote leaves a
task that is not rejected with a block. -/
def NewVoteAlike (mc : MiningConfig) (services : BlockServices σ) (now : Instant)
    (validationMs : ℤ) (s : MiningState σ) (r : SubmitRequest) (job : ValidationJobRow) : Prop :=
  ∀ task, s.tasks.find? job.taskId = some task →
    match protocolParamsForTask s.protocolParams task with
    | .error _ => ¬LeftRejected s job.taskId
    | .ok params =>
      let s' := recordVote s now (r.signedVote job.taskId) validationMs (isoformat now)
      let counts := validationVoteCounts s'.votes r.jobId
      let required := effectiveRequiredApprovals mc params.2
      if r.approved ∧ required ≤ counts.1 then
        ¬HasBlock s job.taskId ∧ ∀ raw, duplicateBlock s job = none →
          (newVoteCall r job task validationMs params now).accept mc services s' =
            .error (.transaction raw) →
          isCompetitiveStale raw = false → task.status ≠ .stale
      else if ¬r.approved ∧ required ≤ counts.2 then ¬HasBlock s job.taskId
      else ¬LeftRejected s job.taskId

/-- The recorded approvals suffice under the parameters. -/
def Suffices (mc : MiningConfig) (s : MiningState σ) (jobId : String)
    (params : Except MiningError (ℤ × ProtocolParamsRow)) : Prop :=
  ∃ p, params = .ok p ∧ effectiveRequiredApprovals mc p.2 ≤ (validationVoteCounts s.votes jobId).1

/-- The finalization call of the votes that are recorded. -/
def recordedVoteCall (jobId : String) (job : ValidationJobRow) (task : TaskRow)
    (vote : ValidationVoteRow) (params : ℤ × ProtocolParamsRow) (now : Instant) :
    FinalizationCall where
  jobId := jobId
  job := job
  task := task
  vote :=
    { validatorId := vote.validatorId
      approved := true
      reason := vote.reason
      signature := vote.signature
      validationMs := vote.validationMs }
  params := params
  now := isoformat now

/-- The acceptance of the block is put off, or raises. -/
def Idle (mc : MiningConfig) (services : BlockServices σ) (s : MiningState σ)
    (c : FinalizationCall) : Prop :=
  duplicateBlock s c.job = none ∧ ((∃ message, c.accept mc services s = .error (.deferred message)) ∨
    ∃ e, c.accept mc services s = .error (.other e))

/-- A vote that is recorded already finalizes alike: the approvals suffice under the task's
parameters, which a submission reads, and under the active ones, which gossip reads, or the
finalization is idle; and a block that stands in the way is that of the task and its result, or not
the task's at all. -/
def RecordedVoteAlike (mc : MiningConfig) (services : BlockServices σ) (now : Instant)
    (s : MiningState σ) (r : SubmitRequest) (job : ValidationJobRow) : Prop :=
  ∀ task, s.tasks.find? job.taskId = some task →
    let direct := Suffices mc s r.jobId (protocolParamsForTask s.protocolParams task)
    let gossip := Suffices mc s r.jobId (activeProtocolParams s.protocolParams)
    (¬direct → ¬gossip → ¬LeftRejected s job.taskId) ∧
    ∀ vote params, lastApproval s.votes r.jobId = some vote →
      protocolParamsForTask s.protocolParams task = .ok params →
      (direct → gossip → ∀ b, duplicateBlock s job = some b →
        (b.taskId = job.taskId ∧ b.resultHash = job.resultHash) ∨ ¬HasBlock s job.taskId) ∧
      (¬(direct ↔ gossip) →
        Idle mc services s (recordedVoteCall r.jobId job task vote params now))

/-! ## Statuses after the parts of a finalization -/

/-- A job that is closed is no longer pending. -/
theorem jobStatus_closeJob_ne {s : MiningState σ} {jobId : String}
    (h : (s.jobs.find? jobId).isSome = true) {verdict : JobVerdict}
    (hverdict : verdict.status ≠ .pending) :
    jobStatus (closeJob s jobId verdict) jobId ≠ some .pending := by
  obtain ⟨job, hjob⟩ := Option.isSome_iff_exists.mp h
  unfold jobStatus closeJob
  rw [Sql.Table.find?_modify, if_pos rfl, hjob]
  exact fun hpending => hverdict (Option.some.inj hpending)

/-- What is written into the row of a task that is there. -/
theorem taskStatus_modify {s : MiningState σ} {taskId : String} {task : TaskRow}
    (h : s.tasks.find? taskId = some task) (f : TaskRow → TaskRow) :
    taskStatus { s with tasks := s.tasks.modify taskId f } taskId = some (f task).status := by
  unfold taskStatus
  rw [Sql.Table.find?_modify, if_pos rfl, h]
  rfl

/-- A task that is accepted stays so when its round is closed. -/
theorem taskStatus_closeRound {s : MiningState σ} {taskId : String}
    (h : taskStatus s taskId = some .accepted) (winner : String) (task : TaskRow) (height : ℤ)
    (timestamp : String) :
    taskStatus (closeCompetitiveRoundAfterBlock s winner task height timestamp) taskId =
      some .accepted := by
  unfold closeCompetitiveRoundAfterBlock
  generalize openCompetitors s winner task = others
  induction others generalizing s with
  | nil => exact h
  | cons other rest ih =>
    refine ih ?_
    unfold taskStatus markCompetitiveTaskStale at *
    dsimp only
    rw [Sql.Table.find?_modify]
    split
    · obtain ⟨row, hrow, hstatus⟩ := Option.map_eq_some_iff.mp h
      next heq =>
      rw [← heq, hrow, Option.map_some, Option.map_some, hstatus]
      simp [TaskStatus.active, hstatus]
    · exact h

/-- The task of a new block is accepted. -/
theorem taskStatus_acceptBlock {mc : MiningConfig} {services : BlockServices σ} {now : String}
    {s s' : MiningState σ} {claim : BlockClaim} {params : ℤ × ProtocolParamsRow}
    {validationMs : Option ℤ} {block : MinedBlockRow}
    (h : acceptBlock mc services now s claim params validationMs = .ok (block, s'))
    (hnone : s.blocks.find? (fun block => block.taskId = claim.taskId) = none) {task : TaskRow}
    (htask : s.tasks.find? claim.taskId = some task) :
    taskStatus s' claim.taskId = some .accepted := by
  rcases acceptBlock_eq_ok h with ⟨hsome, -⟩ | ⟨transactions, settlement, -, -, -, hblock, -, rfl⟩
  · rw [hnone] at hsome
    cases hsome
  · refine taskStatus_closeRound ?_ _ _ _ _
    have hid : block.taskId = claim.taskId := by
      rw [hblock]
      rfl
    unfold taskStatus insertBlock
    dsimp only
    rw [hid, Sql.Table.find?_modify, if_pos rfl, htask]
    rfl

/-! ## One quorum -/

/-- The state after a computation that may raise. -/
def after {α : Type} (s : MiningState σ) : Except MiningError (MiningState σ × α) → MiningState σ
  | .ok r => r.1
  | .error _ => s

/-- Two equal outcomes are alike unless they leave a rejected task. -/
theorem finalizedAlike_self {jobId taskId : String} {s : MiningState σ} :
    FinalizedAlike jobId taskId s s ↔ ¬LeftRejected s taskId :=
  ⟨fun h => h.direct, fun h => ⟨rfl, rfl, rfl, h, h⟩⟩

theorem not_hasBlock_of_duplicateBlock_eq_none {s : MiningState σ} {job : ValidationJobRow}
    (h : duplicateBlock s job = none) : ¬HasBlock s job.taskId := by
  obtain ⟨-, htask⟩ := Option.or_eq_none_iff.mp h
  rintro ⟨b, hb, hid⟩
  exact List.find?_eq_none.mp htask b hb (decide_eq_true hid)

theorem hasBlock_of_duplicateBlock {s : MiningState σ} {job : ValidationJobRow}
    {b : MinedBlockRow} (h : duplicateBlock s job = some b) (hid : b.taskId = job.taskId) :
    HasBlock s job.taskId := by
  refine ⟨b, ?_, hid⟩
  rcases Option.or_eq_some_iff.mp h with hb | ⟨-, hb⟩
  · exact List.mem_of_find?_eq_some hb
  · exact List.mem_of_find?_eq_some hb

/-- A call about a job and a task that are in the tables. -/
structure CallOf (s : MiningState σ) (c : FinalizationCall) : Prop where
  job : s.jobs.find? c.jobId = some c.job
  task : s.tasks.find? c.job.taskId = some c.task

/-- A duplicate result is rejected, and so is its task. -/
theorem leftRejected_rejectDuplicate {s : MiningState σ} {c : FinalizationCall} (hc : CallOf s c)
    (b : MinedBlockRow) :
    LeftRejected (rejectDuplicate s c b).1 c.job.taskId ↔ HasBlock s c.job.taskId := by
  have hstatus : taskStatus (rejectDuplicate s c b).1 c.job.taskId = some .rejected :=
    taskStatus_modify hc.task _
  exact ⟨fun h => h.1, fun h => ⟨h, hstatus⟩⟩

theorem leftRejected_rejectByQuorum {s : MiningState σ} {c : FinalizationCall} (hc : CallOf s c) :
    LeftRejected (rejectByQuorum s c).1 c.job.taskId ↔ HasBlock s c.job.taskId := by
  have hstatus : taskStatus (rejectByQuorum s c).1 c.job.taskId = some .rejected :=
    taskStatus_modify hc.task _
  exact ⟨fun h => h.1, fun h => ⟨h, hstatus⟩⟩

theorem rejectFailed_blocks (keepStale : Bool) (s : MiningState σ) (c : FinalizationCall)
    (raw : String) : (rejectFailed keepStale s c raw).1.blocks = s.blocks := by
  unfold rejectFailed
  dsimp only [closeJob]
  split
  · rfl
  · split <;> rfl

/-- An accepted block leaves no rejected task. -/
theorem not_leftRejected_accept {mc : MiningConfig} {services : BlockServices σ}
    {s s' : MiningState σ} {c : FinalizationCall} (hc : CallOf s c)
    (hdup : duplicateBlock s c.job = none) {block : MinedBlockRow}
    (h : c.accept mc services s = .ok (block, s')) : ¬LeftRejected s' c.job.taskId := by
  obtain ⟨ms, -, h⟩ := bind_eq_ok.mp h
  have hstatus := taskStatus_acceptBlock h (Option.or_eq_none_iff.mp hdup).2 hc.task
  rintro ⟨-, hrejected⟩
  have hsame : (some TaskStatus.accepted) = some .rejected := hstatus.symm.trans hrejected
  cases hsame

/-- The two acceptances differ on a task that is stale already and whose transactions fail. -/
theorem acceptByQuorum_alike_iff {mc : MiningConfig} {services : BlockServices σ}
    {s₀ s : MiningState σ} {c : FinalizationCall} (hc : CallOf s c) (hblocks : s.blocks = s₀.blocks)
    (hdup : duplicateBlock s c.job = none) :
    FinalizedAlike c.jobId c.job.taskId (after s₀ (acceptByQuorum mc services true s c))
      (after s₀ (acceptByQuorum mc services false s c)) ↔
    ∀ raw, c.accept mc services s = .error (.transaction raw) → isCompetitiveStale raw = false →
      c.task.status ≠ .stale := by
  have hnone := not_hasBlock_of_duplicateBlock_eq_none hdup
  have hnone₀ : ¬HasBlock s₀ c.job.taskId := by
    unfold HasBlock
    rw [← hblocks]
    exact hnone
  unfold acceptByQuorum
  cases haccept : c.accept mc services s with
  | error e =>
    cases e with
    | deferred message =>
      refine iff_of_true (finalizedAlike_self.mpr fun h => hnone h.1) ?_
      intro raw h
      cases h
    | other e =>
      refine iff_of_true (finalizedAlike_self.mpr fun h => hnone₀ h.1) ?_
      intro raw h
      cases h
    | transaction raw =>
      show FinalizedAlike _ _ (rejectFailed true s c raw).1 (rejectFailed false s c raw).1 ↔ _
      have hkeep : (s.tasks.find? c.job.taskId).any (fun task => task.status = .stale) =
          decide (c.task.status = .stale) := by
        rw [hc.task, Option.any_some]
      by_cases hdiffer : isCompetitiveStale raw = false ∧ c.task.status = .stale
      · obtain ⟨hraw, hstale⟩ := hdiffer
        refine iff_of_false (fun h => ?_) fun h => h raw rfl hraw hstale
        have hdirect : taskStatus (rejectFailed true s c raw).1 c.job.taskId = some .stale := by
          unfold rejectFailed
          rw [hkeep, decide_eq_true hstale]
          simp [hraw, taskStatus, closeJob, hc.task, hstale]
        have hgossip : taskStatus (rejectFailed false s c raw).1 c.job.taskId =
            some .rejected := by
          unfold rejectFailed
          simp only [hraw, Bool.false_and, Bool.false_eq_true, if_false]
          exact taskStatus_modify hc.task _
        have hsame : (some TaskStatus.stale) = some .rejected :=
          hdirect.symm.trans (h.task.trans hgossip)
        cases hsame
      -- otherwise both leave the task stale, or both reject it
      · have hequal : rejectFailed true s c raw = rejectFailed false s c raw := by
          unfold rejectFailed
          rw [hkeep]
          cases hraw : isCompetitiveStale raw with
          | true => rfl
          | false => rw [decide_eq_false fun hstale => hdiffer ⟨hraw, hstale⟩]; rfl
        rw [hequal]
        refine iff_of_true (finalizedAlike_self.mpr fun h => hnone ?_) ?_
        · obtain ⟨⟨b, hb, hid⟩, -⟩ := h
          rw [rejectFailed_blocks] at hb
          exact ⟨b, hb, hid⟩
        · intro raw' h hraw hstale
          cases h
          exact hdiffer ⟨hraw, hstale⟩
  | ok result =>
    obtain ⟨block, s'⟩ := result
    refine iff_of_true (finalizedAlike_self.mpr ?_) ?_
    · have hleft := not_leftRejected_accept hc hdup haccept
      exact hleft
    · intro raw h
      cases h

/-! ## A new vote -/

/-- The gossip's answer to an acceptance leaves the state as the acceptance does. -/
theorem after_answered {mc : MiningConfig} (services : BlockServices σ) (s₀ s : MiningState σ)
    (c : FinalizationCall) :
    after s₀ (do
        let (s, response) ← acceptByQuorum mc services false s c
        return (s, some response)) = after s₀ (acceptByQuorum mc services false s c) := by
  cases acceptByQuorum mc services false s c <;> rfl

/-- The two finalizations of one call. -/
theorem finalize_alike_iff {mc : MiningConfig} {services : BlockServices σ}
    {s₀ s : MiningState σ} {c : FinalizationCall} (hc : CallOf s c) (hblocks : s.blocks = s₀.blocks)
    (htask : taskStatus s c.job.taskId = taskStatus s₀ c.job.taskId) (counts : ℤ × ℤ)
    (required : ℤ) :
    FinalizedAlike c.jobId c.job.taskId
      (after s₀ (finalizeSubmitted mc services s c counts required))
      (after s₀ (finalizeFromGossip mc services s c counts required)) ↔
    if c.vote.approved ∧ required ≤ counts.1 then
      ¬HasBlock s₀ c.job.taskId ∧ ∀ raw, duplicateBlock s₀ c.job = none →
        c.accept mc services s = .error (.transaction raw) →
        isCompetitiveStale raw = false → c.task.status ≠ .stale
    else if ¬c.vote.approved ∧ required ≤ counts.2 then ¬HasBlock s₀ c.job.taskId
    else ¬LeftRejected s₀ c.job.taskId := by
  have hhas : HasBlock s c.job.taskId ↔ HasBlock s₀ c.job.taskId := by
    unfold HasBlock
    rw [hblocks]
  have hdupEq : duplicateBlock s c.job = duplicateBlock s₀ c.job := by
    unfold duplicateBlock
    rw [hblocks]
  unfold finalizeSubmitted finalizeFromGossip
  by_cases happrove : c.vote.approved = true ∧ required ≤ counts.1
  · rw [if_pos happrove, if_pos happrove, if_pos happrove, ← hdupEq]
    cases hdup : duplicateBlock s c.job with
    | none =>
      dsimp only
      have hnone := not_hasBlock_of_duplicateBlock_eq_none hdup
      rw [after_answered, acceptByQuorum_alike_iff hc hblocks hdup]
      constructor
      · exact fun h => ⟨fun hblock => hnone (hhas.mpr hblock), fun raw _ => h raw⟩
      · exact fun h raw => h.2 raw rfl
    | some b =>
      dsimp only
      by_cases hsame : b.taskId = c.job.taskId ∧ b.resultHash = c.job.resultHash
      · rw [if_pos hsame]
        -- the submission rejects a task that has its block
        have hblock := hasBlock_of_duplicateBlock hdup hsame.1
        refine iff_of_false (fun h => ?_) fun h => h.1 (hhas.mp hblock)
        exact h.direct ((leftRejected_rejectDuplicate hc b).mpr hblock)
      · rw [if_neg hsame]
        show FinalizedAlike _ _ (rejectDuplicate s c b).1 (rejectDuplicate s c b).1 ↔ _
        rw [finalizedAlike_self, leftRejected_rejectDuplicate hc b, hhas]
        constructor
        · exact fun h => ⟨h, fun _ hnone => by cases hnone⟩
        · exact fun h => h.1
  · rw [if_neg happrove, if_neg happrove, if_neg happrove]
    by_cases hreject : ¬c.vote.approved = true ∧ required ≤ counts.2
    · rw [if_pos hreject, if_pos hreject, if_pos hreject]
      show FinalizedAlike _ _ (rejectByQuorum s c).1 (rejectByQuorum s c).1 ↔ _
      rw [finalizedAlike_self, leftRejected_rejectByQuorum hc, hhas]
    · rw [if_neg hreject, if_neg hreject, if_neg hreject]
      show FinalizedAlike _ _ s s ↔ _
      rw [finalizedAlike_self]
      unfold LeftRejected
      rw [hhas, htask]

/-! ## The two requests -/

section

variable {mc : MiningConfig} {now : Instant} {s : MiningState σ} {r : SubmitRequest}
  {job : ValidationJobRow} {validator : ValidatorRow}

/-- The message says what the request says. -/
theorem ValidVote.message_signedVote (h : ValidVote mc now s r job validator) (validationMs : ℤ) :
    (r.message job.taskId validationMs).signedVote = r.signedVote job.taskId := by
  have htext : ∀ text : String, textOr (some text) "" = text := by
    intro text
    by_cases hempty : text = ""
    · rw [hempty]
      rfl
    · exact textOr_some_of_ne hempty ""
  unfold SubmitRequest.message VoteMessage.signedVote SubmitRequest.signedVote
  dsimp only
  rw [h.jobId.1, h.taskId.1, h.validatorId.1, htext, htext, htext]

theorem ValidVote.checkSubmission {task : TaskRow} (h : ValidVote mc now s r job validator)
    (htask : s.tasks.find? job.taskId = some task) :
    checkSubmission mc now s r = .ok (job, task, validator) := by
  unfold Picoin.checkSubmission
  rw [h.findJob, Option.bind_some, htask, Option.map_some]
  dsimp only
  rw [h.findValidator]
  dsimp only
  rw [h.notBanned, h.noCooldown]
  rfl

/-- A submitted vote, when the job's task is there. -/
theorem ValidVote.submitted_eq (services : BlockServices σ) {task : TaskRow}
    (h : ValidVote mc now s r job validator) (htask : s.tasks.find? job.taskId = some task)
    (validationMs : ℤ) :
    submitted mc services now validationMs s r = after s
      (if hasVoted s.votes r.jobId r.validatorId then
        existingVoteResponse mc services (isoformat now) s r.jobId job task
      else countSubmittedVote mc services now validationMs s r job task) := by
  unfold submitted submitValidationResult
  rw [h.checkSubmission htask]
  dsimp only
  rw [if_neg (not_not.mpr h.pending), h.signed]
  split
  · cases existingVoteResponse mc services (isoformat now) s r.jobId job task <;> rfl
  · rw [if_pos rfl]
    cases countSubmittedVote mc services now validationMs s r job task <;> rfl

/-- Without the task, a submission is refused. -/
theorem submitted_of_no_task (services : BlockServices σ)
    (h : ValidVote mc now s r job validator) (htask : s.tasks.find? job.taskId = none)
    (validationMs : ℤ) : submitted mc services now validationMs s r = s := by
  unfold submitted submitValidationResult checkSubmission
  rw [h.findJob, Option.bind_some, htask]
  rfl

/-- A gossiped vote. -/
theorem ValidVote.gossiped_eq (services : BlockServices σ)
    (h : ValidVote mc now s r job validator) (validationMs : ℤ) :
    gossiped mc services now validationMs s r job.taskId =
      match (if hasVoted s.votes r.jobId r.validatorId then
          duplicateVoteGossip mc services (isoformat now) s r.jobId job
        else countGossipedVote mc services now s (r.signedVote job.taskId) validationMs
          (isoformat now) job) with
      | .ok s' => s'
      | .error _ => s := by
  have hms : intOr (some validationMs) 0 = validationMs := by
    unfold intOr
    dsimp only
    split
    · next hzero => rw [hzero]
    · rfl
  unfold gossiped receiveValidationVoteGossip
  rw [h.message_signedVote]
  dsimp only [SubmitRequest.signedVote, SubmitRequest.message]
  rw [if_neg (by simp [h.jobId.2, h.taskId.2, h.validatorId.2]), h.findJob]
  dsimp only
  rw [if_neg (not_not.mpr rfl), h.findValidator]
  dsimp only
  rw [hms]
  have hsigned := h.signed
  unfold SubmitRequest.signedVote at hsigned
  rw [hsigned, if_pos rfl]
  rfl

end

/-! ## Votes that are recorded already -/

/-- The jobs that are there stay there when a block is accepted. -/
theorem job_isSome_acceptBlock {mc : MiningConfig} {services : BlockServices σ} {now : String}
    {s s' : MiningState σ} {claim : BlockClaim} {params : ℤ × ProtocolParamsRow}
    {validationMs : Option ℤ} {block : MinedBlockRow}
    (h : acceptBlock mc services now s claim params validationMs = .ok (block, s')) (jobId : String) :
    (s'.jobs.find? jobId).isSome = (s.jobs.find? jobId).isSome := by
  rcases acceptBlock_eq_ok h with ⟨-, rfl⟩ | ⟨transactions, settlement, -, -, -, -, -, rfl⟩
  · rfl
  · have hclose : ∀ (others : List String) (reason timestamp : String) (t : MiningState σ),
        ((others.foldl (fun t other => markCompetitiveTaskStale t other reason timestamp) t
          ).jobs.find? jobId).isSome = (t.jobs.find? jobId).isSome := by
      intro others reason timestamp
      induction others with
      | nil => exact fun _ => rfl
      | cons other rest ih =>
        intro t
        refine (ih _).trans ?_
        unfold markCompetitiveTaskStale
        rw [Sql.Table.find?_mapRows, Option.isSome_map]
    exact hclose _ _ _ _

/-- The call by which recorded approvals finalize a job. -/
structure Approving (s : MiningState σ) (c : FinalizationCall) : Prop extends CallOf s c where
  approved : c.vote.approved = true
  pending : c.job.status = .pending

/-- The state after the finalization of a call whose approvals suffice. -/
def closed (mc : MiningConfig) (services : BlockServices σ) (s : MiningState σ)
    (c : FinalizationCall) (counts : ℤ × ℤ) : MiningState σ :=
  after s (finalizeFromGossip mc services s c counts counts.1)

theorem closed_of_idle {mc : MiningConfig} {services : BlockServices σ} {s : MiningState σ}
    {c : FinalizationCall} (hc : Approving s c) (hidle : Idle mc services s c) (counts : ℤ × ℤ) :
    closed mc services s c counts = s := by
  unfold closed finalizeFromGossip
  rw [if_pos ⟨hc.approved, le_refl _⟩, hidle.1]
  dsimp only
  unfold acceptByQuorum
  rcases hidle.2 with ⟨message, hdeferred⟩ | ⟨e, hother⟩
  · rw [hdeferred]
    rfl
  · rw [hother]
    rfl

/-- A finalization that is not idle closes the job. -/
theorem jobStatus_closed {mc : MiningConfig} {services : BlockServices σ} {s : MiningState σ}
    {c : FinalizationCall} (hc : Approving s c) (hidle : ¬Idle mc services s c) (counts : ℤ × ℤ) :
    jobStatus (closed mc services s c counts) c.jobId ≠ some .pending := by
  have hsome : (s.jobs.find? c.jobId).isSome = true := by
    rw [hc.job]
    rfl
  unfold closed finalizeFromGossip
  rw [if_pos ⟨hc.approved, le_refl _⟩]
  cases hdup : duplicateBlock s c.job with
  | some b =>
    dsimp only
    split
    · exact jobStatus_closeJob_ne (s := acceptTask s _ _) hsome fun h => by cases h
    · exact jobStatus_closeJob_ne (s := rejectAndRelease s _ _) hsome fun h => by cases h
  | none =>
    dsimp only
    unfold acceptByQuorum
    cases haccept : c.accept mc services s with
    -- an acceptance that raises closes the job unless it is deferred
    | error e =>
      cases e with
      | deferred message => exact absurd ⟨hdup, .inl ⟨message, haccept⟩⟩ hidle
      | other e => exact absurd ⟨hdup, .inr ⟨e, haccept⟩⟩ hidle
      | transaction raw =>
        show jobStatus (rejectFailed false s c raw).1 c.jobId ≠ some .pending
        refine jobStatus_closeJob_ne ?_ fun h => by cases h
        split
        · unfold markCompetitiveTaskStale
          rw [Sql.Table.find?_mapRows, Option.isSome_map]
          exact hsome
        · exact hsome
    | ok result =>
      obtain ⟨block, s'⟩ := result
      obtain ⟨ms, -, haccept⟩ := bind_eq_ok.mp haccept
      exact jobStatus_closeJob_ne ((job_isSome_acceptBlock haccept c.jobId).trans hsome) fun h => by cases h

/-- A finalization leaves a rejected task only for a block of the task with another result. -/
theorem leftRejected_closed {mc : MiningConfig} {services : BlockServices σ} {s : MiningState σ}
    {c : FinalizationCall} (hc : Approving s c) (counts : ℤ × ℤ) :
    LeftRejected (closed mc services s c counts) c.job.taskId ↔
      ∃ b, duplicateBlock s c.job = some b ∧
        ¬(b.taskId = c.job.taskId ∧ b.resultHash = c.job.resultHash) ∧
          HasBlock s c.job.taskId := by
  unfold closed finalizeFromGossip
  rw [if_pos ⟨hc.approved, le_refl _⟩]
  cases hdup : duplicateBlock s c.job with
  | some b =>
    dsimp only
    by_cases hsame : b.taskId = c.job.taskId ∧ b.resultHash = c.job.resultHash
    · rw [if_pos hsame]
      refine iff_of_false (fun h => ?_) ?_
      · have haccepted : taskStatus (acceptTask s c.job.taskId c.now) c.job.taskId =
            some .accepted := taskStatus_modify hc.task _
        have hequal : (some TaskStatus.accepted) = some .rejected := haccepted.symm.trans h.2
        cases hequal
      · rintro ⟨b', hb', hother, -⟩
        cases hb'
        exact hother hsame
    · rw [if_neg hsame]
      show LeftRejected (rejectDuplicate s c b).1 c.job.taskId ↔ _
      rw [leftRejected_rejectDuplicate hc.toCallOf b]
      constructor
      · exact fun h => ⟨b, rfl, hsame, h⟩
      · rintro ⟨b', -, -, h⟩
        exact h
  -- no block of the task is there, and a failed acceptance adds none
  | none =>
    dsimp only
    have hnone := not_hasBlock_of_duplicateBlock_eq_none hdup
    refine iff_of_false (fun h => ?_) (by rintro ⟨b, hb, -⟩; cases hb)
    rw [after_answered] at h
    unfold acceptByQuorum at h
    cases haccept : c.accept mc services s with
    | error e =>
      rw [haccept] at h
      cases e with
      | deferred message => exact hnone h.1
      | other e => exact hnone h.1
      | transaction raw =>
        refine hnone ?_
        obtain ⟨⟨b, hb, hid⟩, -⟩ := h
        have hblocks := rejectFailed_blocks false s c raw
        refine ⟨b, ?_, hid⟩
        rw [← hblocks]
        exact hb
    | ok result =>
      rw [haccept] at h
      obtain ⟨block, s'⟩ := result
      exact not_leftRejected_accept hc.toCallOf hdup haccept h

theorem FinalizedAlike.symm {jobId taskId : String} {d g : MiningState σ}
    (h : FinalizedAlike jobId taskId d g) : FinalizedAlike jobId taskId g d :=
  ⟨h.task.symm, h.job.symm, h.blocks.symm, h.gossip, h.direct⟩

/-- A finalization is like none at all exactly when it is idle. -/
theorem closed_alike_iff {mc : MiningConfig} {services : BlockServices σ} {s : MiningState σ}
    {c : FinalizationCall} (hc : Approving s c) (counts : ℤ × ℤ) :
    FinalizedAlike c.jobId c.job.taskId (closed mc services s c counts) s ↔
      Idle mc services s c := by
  constructor
  · intro h
    by_contra hidle
    have hpending : jobStatus s c.jobId = some .pending := by
      unfold jobStatus
      rw [hc.job, Option.map_some, hc.pending]
    exact jobStatus_closed hc hidle counts (h.job.trans hpending)
  · intro hidle
    rw [closed_of_idle hc hidle, finalizedAlike_self]
    exact fun hleft => not_hasBlock_of_duplicateBlock_eq_none hidle.1 hleft.1

/-- Where an approval is counted, one is the last. -/
theorem exists_lastApproval {votes : List ValidationVoteRow} {jobId : String}
    (h : 0 < (validationVoteCounts votes jobId).1) : ∃ vote, lastApproval votes jobId = some vote := by
  -- a step that has some vote leaves some vote
  have hfold : ∀ f : Option ValidationVoteRow → ValidationVoteRow → Option ValidationVoteRow,
      (∀ best vote, ∃ next, f (some best) vote = some next) →
        ∀ (l : List ValidationVoteRow) (first : ValidationVoteRow),
          ∃ vote, l.foldl f (some first) = some vote := by
    intro f hf l
    induction l with
    | nil => exact fun first => ⟨first, rfl⟩
    | cons vote rest ih =>
      intro first
      obtain ⟨next, hnext⟩ := hf first vote
      rw [List.foldl_cons, hnext]
      exact ih next
  unfold lastApproval
  cases hvotes : votes.filter fun vote => vote.jobId = jobId && vote.approved with
  | nil =>
    unfold validationVoteCounts at h
    rw [List.countP_eq_length_filter, hvotes] at h
    cases h
  | cons vote rest =>
    rw [List.foldl_cons]
    refine hfold _ (fun best vote => ?_) rest vote
    dsimp only
    split
    · exact ⟨_, rfl⟩
    · exact ⟨_, rfl⟩

theorem effectiveRequiredApprovals_pos (mc : MiningConfig) (params : ProtocolParamsRow) :
    0 < effectiveRequiredApprovals mc params :=
  lt_of_lt_of_le one_pos (le_max_left _ _)

/-- Where there are active parameters, a task has parameters. -/
theorem exists_protocolParamsForTask {params : Sql.Table ℤ ProtocolParamsRow}
    {p : ℤ × ProtocolParamsRow} (h : activeProtocolParams params = .ok p) (task : TaskRow) :
    ∃ q, protocolParamsForTask params task = .ok q := by
  unfold protocolParamsForTask
  split
  · exact ⟨p, h⟩
  · split
    · exact ⟨p, h⟩
    · exact ⟨_, rfl⟩

section

variable {mc : MiningConfig} {now : Instant} {s : MiningState σ} {r : SubmitRequest}
  {job : ValidationJobRow} {task : TaskRow}

/-- What the recorded votes leave when some parameters tell what is required. -/
def recordedOutcome (mc : MiningConfig) (services : BlockServices σ) (now : Instant)
    (s : MiningState σ) (r : SubmitRequest) (job : ValidationJobRow) :
    Except MiningError (ℤ × ProtocolParamsRow) → MiningState σ
  | .error _ => s
  | .ok params => after s (finalizeFromExistingVotes mc services (isoformat now) s r.jobId job
      (effectiveRequiredApprovals mc params.2))

/-- Approvals that do not suffice finalize nothing. -/
theorem finalizeFromExistingVotes_of_lt (services : BlockServices σ) {required : ℤ}
    (h : (validationVoteCounts s.votes r.jobId).1 < required) :
    finalizeFromExistingVotes mc services (isoformat now) s r.jobId job required =
      .ok (s, none) := by
  unfold finalizeFromExistingVotes
  exact if_pos (.inr h)

/-- Approvals that suffice close the job, whatever is required. -/
theorem finalizeFromExistingVotes_of_le (services : BlockServices σ) (hpending : job.status = .pending)
    (htask : s.tasks.find? job.taskId = some task) {vote : ValidationVoteRow}
    (hvote : lastApproval s.votes r.jobId = some vote) {params : ℤ × ProtocolParamsRow}
    (hparams : protocolParamsForTask s.protocolParams task = .ok params) {required : ℤ}
    (h : required ≤ (validationVoteCounts s.votes r.jobId).1) :
    after s (finalizeFromExistingVotes mc services (isoformat now) s r.jobId job required) =
      closed mc services s (recordedVoteCall r.jobId job task vote params now)
        (validationVoteCounts s.votes r.jobId) := by
  have hopen : ¬(job.status ≠ .pending ∨ (validationVoteCounts s.votes r.jobId).1 < required) := by
    rintro (hclosed | hlt)
    · exact hclosed hpending
    · exact absurd h (not_le.mpr hlt)
  unfold finalizeFromExistingVotes closed
  dsimp only
  rw [if_neg hopen, htask]
  dsimp only
  rw [hvote]
  dsimp only
  rw [hparams]
  show after s (finalizeFromGossip mc services s
    (recordedVoteCall r.jobId job task vote params now) _ required) = _
  unfold finalizeFromGossip
  rw [if_pos ⟨rfl, h⟩, if_pos ⟨rfl, le_refl _⟩]

/-- The response to a recorded vote does not matter for the state. -/
theorem after_existingVoteResponse (services : BlockServices σ) :
    after s (existingVoteResponse mc services (isoformat now) s r.jobId job task) =
      recordedOutcome mc services now s r job (protocolParamsForTask s.protocolParams task) := by
  unfold existingVoteResponse
  cases protocolParamsForTask s.protocolParams task with
  | error e => rfl
  | ok params =>
    show after s (finalizeFromExistingVotes mc services (isoformat now) s r.jobId job
      (effectiveRequiredApprovals mc params.2) >>= _) =
        after s (finalizeFromExistingVotes mc services (isoformat now) s r.jobId job
          (effectiveRequiredApprovals mc params.2))
    cases finalizeFromExistingVotes mc services (isoformat now) s r.jobId job
      (effectiveRequiredApprovals mc params.2) with
    | error e => rfl
    | ok result =>
      obtain ⟨s', response⟩ := result
      cases response with
      | none => rfl
      | some response =>
        show after s (if response.status = "approved" then _ else _) = s'
        split <;> rfl

theorem after_duplicateVoteGossip (services : BlockServices σ) :
    (match duplicateVoteGossip mc services (isoformat now) s r.jobId job with
      | .ok s' => s'
      | .error _ => s) =
      recordedOutcome mc services now s r job (activeProtocolParams s.protocolParams) := by
  unfold duplicateVoteGossip
  cases activeProtocolParams s.protocolParams with
  | error e => rfl
  | ok params =>
    show (match finalizeFromExistingVotes mc services (isoformat now) s r.jobId job
      (effectiveRequiredApprovals mc params.2) >>= _ with
      | .ok s' => s'
      | .error _ => s) =
        after s (finalizeFromExistingVotes mc services (isoformat now) s r.jobId job
          (effectiveRequiredApprovals mc params.2))
    cases finalizeFromExistingVotes mc services (isoformat now) s r.jobId job
      (effectiveRequiredApprovals mc params.2) <;> rfl

/-- What the recorded votes do under some parameters: nothing, or they close the job. -/
theorem recorded_of_not_suffices (services : BlockServices σ)
    {params : Except MiningError (ℤ × ProtocolParamsRow)} (h : ¬Suffices mc s r.jobId params) :
    recordedOutcome mc services now s r job params = s := by
  cases params with
  | error e => rfl
  | ok p =>
    show after s (finalizeFromExistingVotes mc services (isoformat now) s r.jobId job
      (effectiveRequiredApprovals mc p.2)) = s
    rw [finalizeFromExistingVotes_of_lt services (not_le.mp fun hle => h ⟨p, rfl, hle⟩)]
    rfl

theorem recorded_of_suffices (services : BlockServices σ) (hpending : job.status = .pending)
    (htask : s.tasks.find? job.taskId = some task) {vote : ValidationVoteRow}
    (hvote : lastApproval s.votes r.jobId = some vote) {taskParams : ℤ × ProtocolParamsRow}
    (hparams : protocolParamsForTask s.protocolParams task = .ok taskParams)
    {params : Except MiningError (ℤ × ProtocolParamsRow)} (h : Suffices mc s r.jobId params) :
    recordedOutcome mc services now s r job params =
      closed mc services s (recordedVoteCall r.jobId job task vote taskParams now)
        (validationVoteCounts s.votes r.jobId) := by
  obtain ⟨p, rfl, hle⟩ := h
  exact finalizeFromExistingVotes_of_le services hpending htask hvote hparams hle

end

/-! ## Every vote -/

section

variable {mc : MiningConfig} {now : Instant} {s : MiningState σ} {r : SubmitRequest}
  {job : ValidationJobRow} {task : TaskRow}

/-- The state that a new vote is recorded in. -/
def withVote (now : Instant) (validationMs : ℤ) (s : MiningState σ) (r : SubmitRequest)
    (job : ValidationJobRow) : MiningState σ :=
  recordVote s now (r.signedVote job.taskId) validationMs (isoformat now)

theorem after_countSubmittedVote (services : BlockServices σ) (validationMs : ℤ) :
    after s (countSubmittedVote mc services now validationMs s r job task) =
      match protocolParamsForTask s.protocolParams task with
      | .error _ => s
      | .ok params => after s (finalizeSubmitted mc services (withVote now validationMs s r job)
          (newVoteCall r job task validationMs params now)
          (validationVoteCounts (withVote now validationMs s r job).votes r.jobId)
          (effectiveRequiredApprovals mc params.2)) := by
  unfold countSubmittedVote
  cases protocolParamsForTask s.protocolParams task <;> rfl

theorem after_countGossipedVote (services : BlockServices σ) (hpending : job.status = .pending)
    (htask : s.tasks.find? job.taskId = some task) (validationMs : ℤ) :
    (match countGossipedVote mc services now s (r.signedVote job.taskId) validationMs
        (isoformat now) job with
      | .ok s' => s'
      | .error _ => s) =
      match protocolParamsForTask s.protocolParams task with
      | .error _ => s
      | .ok params => after s (finalizeFromGossip mc services (withVote now validationMs s r job)
          (newVoteCall r job task validationMs params now)
          (validationVoteCounts (withVote now validationMs s r job).votes r.jobId)
          (effectiveRequiredApprovals mc params.2)) := by
  have htask' : (withVote now validationMs s r job).tasks.find? (r.signedVote job.taskId).taskId =
      some task := htask
  have hparams : (withVote now validationMs s r job).protocolParams = s.protocolParams := rfl
  unfold countGossipedVote
  rw [← withVote]
  -- the vote leaves tasks and parameters as they are
  dsimp only
  rw [htask']
  dsimp only
  rw [hparams]
  cases protocolParamsForTask s.protocolParams task with
  | error e => rfl
  | ok params =>
    dsimp only
    show (match (if job.status = .pending then
        finalizeFromGossip mc services (withVote now validationMs s r job)
          (newVoteCall r job task validationMs params now)
          (validationVoteCounts (withVote now validationMs s r job).votes r.jobId)
          (effectiveRequiredApprovals mc params.2) >>= fun result => pure result.1
      else pure (withVote now validationMs s r job)) with
      | .ok s' => s'
      | .error _ => s) = _
    rw [if_pos hpending]
    cases finalizeFromGossip mc services (withVote now validationMs s r job)
      (newVoteCall r job task validationMs params now)
      (validationVoteCounts (withVote now validationMs s r job).votes r.jobId)
      (effectiveRequiredApprovals mc params.2) <;> rfl

end

/-- Without the task both requests are refused. -/
theorem not_leftRejected_of_no_task {s : MiningState σ} {taskId : String}
    (h : s.tasks.find? taskId = none) : ¬LeftRejected s taskId := by
  rintro ⟨-, hstatus⟩
  unfold taskStatus at hstatus
  rw [h] at hstatus
  cases hstatus

/-- Without the task the recorded votes finalize nothing. -/
theorem recorded_of_no_task {mc : MiningConfig} (services : BlockServices σ) {now : Instant}
    {s : MiningState σ} {r : SubmitRequest} {job : ValidationJobRow}
    (htask : s.tasks.find? job.taskId = none)
    (params : Except MiningError (ℤ × ProtocolParamsRow)) :
    recordedOutcome mc services now s r job params = s := by
  cases params with
  | error e => rfl
  | ok params =>
    unfold recordedOutcome finalizeFromExistingVotes
    dsimp only
    rw [htask]
    split <;> rfl

/-- With an approval and the parameters of the task there is one closing call, and the two states
are alike where both requests make it, or where the one that is made is idle. -/
theorem recorded_alike_of_closing {mc : MiningConfig} (services : BlockServices σ) {now : Instant}
    {s : MiningState σ} {r : SubmitRequest} {job : ValidationJobRow} {validator : ValidatorRow}
    (h : ValidVote mc now s r job validator) {task : TaskRow}
    (htask : s.tasks.find? job.taskId = some task) {vote : ValidationVoteRow}
    (hvote : lastApproval s.votes r.jobId = some vote) {params : ℤ × ProtocolParamsRow}
    (hparams : protocolParamsForTask s.protocolParams task = .ok params) :
    FinalizedAlike r.jobId job.taskId
      (recordedOutcome mc services now s r job (protocolParamsForTask s.protocolParams task))
      (recordedOutcome mc services now s r job (activeProtocolParams s.protocolParams)) ↔
        let direct := Suffices mc s r.jobId (protocolParamsForTask s.protocolParams task)
        let gossip := Suffices mc s r.jobId (activeProtocolParams s.protocolParams)
        (¬direct → ¬gossip → ¬LeftRejected s job.taskId) ∧
        (direct → gossip → ∀ b, duplicateBlock s job = some b →
          (b.taskId = job.taskId ∧ b.resultHash = job.resultHash) ∨ ¬HasBlock s job.taskId) ∧
        (¬(direct ↔ gossip) →
          Idle mc services s (recordedVoteCall r.jobId job task vote params now)) := by
  let c := recordedVoteCall r.jobId job task vote params now
  let counts := validationVoteCounts s.votes r.jobId
  have hc : Approving s c := ⟨⟨h.findJob, htask⟩, rfl, h.pending⟩
  have hleft := @leftRejected_closed σ mc services s c hc counts
  have hidle := @closed_alike_iff σ mc services s c hc counts
  dsimp only
  by_cases hdirect : Suffices mc s r.jobId (protocolParamsForTask s.protocolParams task) <;>
    by_cases hgossip : Suffices mc s r.jobId (activeProtocolParams s.protocolParams)
  · -- both close the job
    rw [recorded_of_suffices services h.pending htask hvote hparams hdirect,
      recorded_of_suffices services h.pending htask hvote hparams hgossip, finalizedAlike_self]
    refine (not_congr hleft).trans ?_
    constructor
    · intro hno
      refine ⟨fun hd => absurd hdirect hd, fun _ _ b hb => ?_, fun hne =>
        absurd (iff_of_true hdirect hgossip) hne⟩
      by_contra hbad
      obtain ⟨hother, hblock⟩ := not_or.mp hbad
      exact hno ⟨b, hb, hother, not_not.mp hblock⟩
    · rintro ⟨-, hboth, -⟩ ⟨b, hb, hother, hblock⟩
      rcases hboth hdirect hgossip b hb with hsame | hnone
      · exact hother hsame
      · exact hnone hblock
  · -- only the submission does
    rw [recorded_of_suffices services h.pending htask hvote hparams hdirect,
      recorded_of_not_suffices services hgossip]
    refine hidle.trans ⟨fun hi => ⟨fun hd => absurd hdirect hd, fun _ hg => absurd hg hgossip,
      fun _ => hi⟩, fun hall => hall.2.2 fun heq => hgossip (heq.mp hdirect)⟩
  · -- only the gossip does
    rw [recorded_of_not_suffices services hdirect,
      recorded_of_suffices services h.pending htask hvote hparams hgossip]
    refine (Iff.intro FinalizedAlike.symm FinalizedAlike.symm).trans (hidle.trans
      ⟨fun hi => ⟨fun _ hg => absurd hgossip hg, fun hd => absurd hd hdirect, fun _ => hi⟩,
        fun hall => hall.2.2 fun heq => hdirect (heq.mpr hgossip)⟩)
  · -- neither does
    rw [recorded_of_not_suffices services hdirect, recorded_of_not_suffices services hgossip,
      finalizedAlike_self]
    exact ⟨fun hs => ⟨fun _ _ => hs, fun hd => absurd hd hdirect,
      fun hne => absurd (iff_of_false hdirect hgossip) hne⟩, fun hall => hall.1 hdirect hgossip⟩

/-- Without an approval or the parameters of the task nothing suffices. -/
theorem not_suffices_of_not_closing {mc : MiningConfig} {s : MiningState σ} {jobId : String}
    {task : TaskRow}
    (hclosing : ¬∃ vote params, lastApproval s.votes jobId = some vote ∧
      protocolParamsForTask s.protocolParams task = .ok params) :
    ¬Suffices mc s jobId (protocolParamsForTask s.protocolParams task) ∧
      ¬Suffices mc s jobId (activeProtocolParams s.protocolParams) := by
  have hnone : ∀ params p, params = Except.ok p →
      (∃ q, protocolParamsForTask s.protocolParams task = .ok q) → ¬Suffices mc s jobId params := by
    rintro params p hp ⟨q, hq⟩ ⟨p', -, hle⟩
    obtain ⟨vote, hvote⟩ := exists_lastApproval
      (lt_of_lt_of_le (effectiveRequiredApprovals_pos mc p'.2) hle)
    exact hclosing ⟨vote, q, hvote, hq⟩
  constructor
  · rintro ⟨p, hp, hle⟩
    exact hnone _ p hp ⟨p, hp⟩ ⟨p, hp, hle⟩
  · rintro ⟨p, hp, hle⟩
    exact hnone _ p hp (exists_protocolParamsForTask hp task) ⟨p, hp, hle⟩

/-- The two finalize a recorded vote alike exactly under the condition. -/
theorem recorded_alike_iff {mc : MiningConfig} (services : BlockServices σ) {now : Instant}
    {s : MiningState σ} {r : SubmitRequest} {job : ValidationJobRow} {validator : ValidatorRow}
    (h : ValidVote mc now s r job validator)
    (hvoted : hasVoted s.votes r.jobId r.validatorId = true) (validationMs : ℤ) :
    FinalizedAlike r.jobId job.taskId (submitted mc services now validationMs s r)
      (gossiped mc services now validationMs s r job.taskId) ↔
        RecordedVoteAlike mc services now s r job := by
  rw [h.gossiped_eq services, if_pos hvoted, after_duplicateVoteGossip]
  cases htask : s.tasks.find? job.taskId with
  | none =>
    rw [submitted_of_no_task services h htask, recorded_of_no_task services htask]
    refine iff_of_true (finalizedAlike_self.mpr (not_leftRejected_of_no_task htask)) ?_
    intro task hsome
    rw [htask] at hsome
    cases hsome
  | some task =>
    rw [h.submitted_eq services htask, if_pos hvoted, after_existingVoteResponse]
    have honly : RecordedVoteAlike mc services now s r job ↔ _ :=
      ⟨fun hall => hall task htask, fun hone task' htask' => by
        rw [htask] at htask'
        cases htask'
        exact hone⟩
    rw [honly]
    -- both need an approval and parameters of the task to close the job
    by_cases hclosing : ∃ vote params, lastApproval s.votes r.jobId = some vote ∧
        protocolParamsForTask s.protocolParams task = .ok params
    · obtain ⟨vote, params, hvote, hparams⟩ := hclosing
      refine (recorded_alike_of_closing services h htask hvote hparams).trans ?_
      refine ⟨fun ⟨hneither, hboth, hone⟩ => ⟨hneither, fun vote' params' hvote' hparams' => ?_⟩,
        fun ⟨hneither, hall⟩ => ⟨hneither, hall vote params hvote hparams⟩⟩
      rw [hvote] at hvote'
      rw [hparams] at hparams'
      cases hvote'
      cases hparams'
      exact ⟨hboth, hone⟩
    · obtain ⟨hdirect, hgossip⟩ := @not_suffices_of_not_closing σ mc s r.jobId task hclosing
      rw [recorded_of_not_suffices services hdirect, recorded_of_not_suffices services hgossip,
        finalizedAlike_self]
      constructor
      · exact fun hs => ⟨fun _ _ => hs, fun vote params hvote hparams =>
          absurd ⟨vote, params, hvote, hparams⟩ hclosing⟩
      · exact fun hall => hall.1 hdirect hgossip

/-- The two finalize a new vote alike exactly under the condition. -/
theorem new_alike_iff {mc : MiningConfig} (services : BlockServices σ) {now : Instant}
    {s : MiningState σ} {r : SubmitRequest} {job : ValidationJobRow} {validator : ValidatorRow}
    (h : ValidVote mc now s r job validator)
    (hvoted : hasVoted s.votes r.jobId r.validatorId = false) (validationMs : ℤ) :
    FinalizedAlike r.jobId job.taskId (submitted mc services now validationMs s r)
      (gossiped mc services now validationMs s r job.taskId) ↔
        NewVoteAlike mc services now validationMs s r job := by
  have hnew : ¬hasVoted s.votes r.jobId r.validatorId = true := by
    rw [hvoted]
    exact Bool.false_ne_true
  rw [h.gossiped_eq services, if_neg hnew]
  cases htask : s.tasks.find? job.taskId with
  | none =>
    have hgossip : (match countGossipedVote mc services now s (r.signedVote job.taskId)
        validationMs (isoformat now) job with
      | .ok s' => s'
      | .error _ => s) = s := by
      have htask' : (withVote now validationMs s r job).tasks.find?
          (r.signedVote job.taskId).taskId = none := htask
      unfold countGossipedVote
      rw [← withVote]
      dsimp only
      rw [htask']
    rw [submitted_of_no_task services h htask, hgossip]
    refine iff_of_true (finalizedAlike_self.mpr (not_leftRejected_of_no_task htask)) ?_
    intro task hsome
    rw [htask] at hsome
    cases hsome
  | some task =>
    rw [h.submitted_eq services htask, if_neg hnew, after_countSubmittedVote,
      after_countGossipedVote services h.pending htask]
    have honly : NewVoteAlike mc services now validationMs s r job ↔ _ :=
      ⟨fun hall => hall task htask, fun hone task' htask' => by
        rw [htask] at htask'
        cases htask'
        exact hone⟩
    rw [honly]
    cases hparams : protocolParamsForTask s.protocolParams task with
    | error e => exact finalizedAlike_self
    | ok params =>
      have hc : CallOf (withVote now validationMs s r job)
          (newVoteCall r job task validationMs params now) := ⟨h.findJob, htask⟩
      -- both make one finalization with the same counts
      have hcall := @finalize_alike_iff σ mc services s _ _ hc rfl rfl
        (validationVoteCounts (withVote now validationMs s r job).votes r.jobId)
        (effectiveRequiredApprovals mc params.2)
      exact hcall

/-- A valid vote finalizes alike on both ways exactly under the condition for a vote that is
recorded already, or for one that is new. -/
theorem votes_finalize_alike_iff (mc : MiningConfig) (services : BlockServices σ) (now : Instant)
    (validationMs : ℤ) (s : MiningState σ) (r : SubmitRequest) (job : ValidationJobRow)
    (validator : ValidatorRow) (h : ValidVote mc now s r job validator) :
    FinalizedAlike r.jobId job.taskId (submitted mc services now validationMs s r)
      (gossiped mc services now validationMs s r job.taskId) ↔
        if hasVoted s.votes r.jobId r.validatorId then RecordedVoteAlike mc services now s r job
        else NewVoteAlike mc services now validationMs s r job := by
  cases hvoted : hasVoted s.votes r.jobId r.validatorId with
  | true => exact recorded_alike_iff services h hvoted validationMs
  | false => exact new_alike_iff services h hvoted validationMs

/-! ## Two nodes -/

/-- The vote of the second validator is valid while its job is pending. -/
theorem validVote_local {s : MiningState Unit} (hjob : s.jobs = localVoting.jobs)
    (hvalidators : s.validators = localVoting.validators) :
    ValidVote localMining 1778371200000000 s (localApproval "validator-2" "signed") localJob
      (localValidator bobKey) where
  findJob := by
    rw [hjob]
    rfl
  pending := rfl
  findValidator := by
    rw [hvalidators]
    rfl
  notBanned := rfl
  noCooldown := rfl
  signed := by decide +kernel
  jobId := by decide +kernel
  taskId := by decide +kernel
  validatorId := by decide +kernel

/-- The approval that completes the quorum, on a node without blocks. -/
theorem local_approval_alike :
    FinalizedAlike "job-1" "task-1"
      (submitted localMining localServices 1778371200000000 20 localVoting
        (localApproval "validator-2" "signed"))
      (gossiped localMining localServices 1778371200000000 20 localVoting
        (localApproval "validator-2" "signed") "task-1") := by
  refine (votes_finalize_alike_iff localMining localServices 1778371200000000 20 localVoting
    (localApproval "validator-2" "signed") localJob (localValidator bobKey)
    (validVote_local rfl rfl)).mpr ?_
  have hnone : ¬HasBlock localVoting "task-1" := fun ⟨_, hb, _⟩ => nomatch hb
  rw [if_neg (by decide)]
  intro task htask
  have hrow : task = localTask := (Option.some.inj htask).symm
  have hparams : protocolParamsForTask localVoting.protocolParams task =
      .ok (1, localParamsRow) := by
    rw [hrow]
    rfl
  rw [hparams]
  dsimp only
  split
  · refine ⟨hnone, fun _ _ _ _ => ?_⟩
    rw [hrow]
    decide
  · split
    · exact hnone
    · exact fun hleft => hnone hleft.1

/-- The block of the local task. -/
def localBlockRow : MinedBlockRow :=
  newBlockRow localMining.toConfig
    (draftBlock localMining "2026-05-10T00:00:00+00:00" localVoting localClaim (1, localParamsRow)
      localVoting.base (transactionCommitment localMining.toConfig [])) (some 40)

/-- A node that has the block of the task already, while the job is still pending. -/
def localVotingWithBlock : MiningState Unit := { localVoting with blocks := [localBlockRow] }

/-- The submission rejects the task of the accepted block, and gossip marks it accepted. -/
theorem accepted_block_rejected :
    ValidVote localMining 1778371200000000 localVotingWithBlock
      (localApproval "validator-2" "signed") localJob (localValidator bobKey) ∧
    LeftRejected (submitted localMining localServices 1778371200000000 20 localVotingWithBlock
      (localApproval "validator-2" "signed")) "task-1" ∧
    taskStatus (gossiped localMining localServices 1778371200000000 20 localVotingWithBlock
      (localApproval "validator-2" "signed") "task-1") "task-1" = some .accepted ∧
    ¬FinalizedAlike "job-1" "task-1"
      (submitted localMining localServices 1778371200000000 20 localVotingWithBlock
        (localApproval "validator-2" "signed"))
      (gossiped localMining localServices 1778371200000000 20 localVotingWithBlock
        (localApproval "validator-2" "signed") "task-1") := by
  have hrejected : taskStatus (submitted localMining localServices 1778371200000000 20
      localVotingWithBlock (localApproval "validator-2" "signed")) "task-1" = some .rejected := by
    decide +kernel
  have hblock : ((submitted localMining localServices 1778371200000000 20 localVotingWithBlock
      (localApproval "validator-2" "signed")).blocks.any fun b => b.taskId = "task-1") = true := by
    decide +kernel
  have hleft : LeftRejected (submitted localMining localServices 1778371200000000 20
      localVotingWithBlock (localApproval "validator-2" "signed")) "task-1" := by
    obtain ⟨b, hb, hid⟩ := List.any_eq_true.mp hblock
    exact ⟨⟨b, hb, of_decide_eq_true hid⟩, hrejected⟩
  exact ⟨validVote_local rfl rfl, hleft, by decide +kernel, fun h => h.direct hleft⟩

end Picoin
