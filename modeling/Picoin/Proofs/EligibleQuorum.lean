import Picoin.Proofs.CertifiedResult

/-!
# The validators of a quorum

A validator is eligible for a job when it is handed out. Its vote arrives later, by a submission
that looks at bans and cooldowns only, or by gossip that looks at the signature only; and the votes
are counted without their validators.

* **`ValidatorRow.eligible`** — what a validator has to be when its vote is recorded;
* **`QuorumNode`** — a node, the approvals that eligible validators have given, and its blocks;
* **`SoundCall`** — the approval that a call records is an eligible validator's, and no approval is
  counted against a smaller requirement than that of the task;
* **`eligible_quorum_of_run`** — a run of such calls finalizes blocks by quorums of eligible
  validators, whatever happens to the node between them;
* **`ineligible_quorum`** — a validator that is disabled and one that is banned finalize blocks.
-/

namespace Picoin

open Outcome Run

variable {σ : Type}

/-! ## Eligibility -/

/-- `VALIDATOR_ELIGIBILITY_STAKE_FIELD`: the wallet-backed stake on the mainnet. -/
inductive EligibilityStakeField where
  | stakeLocked
  | walletStakeLocked
deriving DecidableEq

/-- `_validator_eligibility_stake`. -/
def EligibilityStakeField.of : EligibilityStakeField → ValidatorRow → ℤ
  | .stakeLocked, row => row.stakeLocked
  | .walletStakeLocked, row => row.walletStakeLocked

/-- Enabled, not banned, not in cooldown, and with the stake of a validator. -/
def ValidatorRow.eligible (mc : MiningConfig) (field : EligibilityStakeField) (now : Instant)
    (row : ValidatorRow) : Bool :=
  row.enabled && !row.isBanned && !inCooldown mc now row &&
    decide (mc.minValidatorStake ≤ field.of row)

/-! ## Nodes -/

/-- The approvals that a job needs, by the parameters of its task. -/
def requiredFor (mc : MiningConfig) (s : MiningState σ) (jobId : String) : Option ℤ :=
  (s.jobs.find? jobId).bind fun job => (s.tasks.find? job.taskId).bind fun task =>
    match protocolParamsForTask s.protocolParams task with
    | .ok params => some (effectiveRequiredApprovals mc params.2)
    | .error _ => none

/-- The approvals among votes whose validators are eligible, by job and validator. -/
def eligibleApprovals (mc : MiningConfig) (field : EligibilityStakeField) (now : Instant)
    (validators : Sql.Table String ValidatorRow) (votes : List ValidationVoteRow) :
    List (String × String) :=
  (votes.filter fun vote =>
      vote.approved && (validators.find? vote.validatorId).any (ValidatorRow.eligible mc field now)
    ).map fun vote => (vote.jobId, vote.validatorId)

/-- A block that votes have finalized, with the approvals that its job needed. -/
structure FinalizedBlock where
  jobId : String
  required : Option ℤ
  block : BlockDraft

/-- A node, the approvals whose validators were eligible when they were recorded, and the blocks
that votes have finalized. -/
structure QuorumNode (σ : Type) where
  state : MiningState σ
  eligible : List (String × String)
  finalized : List FinalizedBlock

/-- A vote, or anything else that happens to a node. Only votes are written to their table, and a
restored snapshot clears it. -/
inductive QuorumStep (σ : Type) where
  | vote (now : Instant) (call : VoteCall)
  | other (cleared : Bool) (s' : MiningState σ)

def QuorumNode.step (mc : MiningConfig) (field : EligibilityStakeField)
    (services : BlockServices σ) (n : QuorumNode σ) : QuorumStep σ → QuorumNode σ
  | .vote now call =>
    let s := VoteCall.step mc services n.state (now, call)
    { state := s
      eligible := n.eligible ++ eligibleApprovals mc field now n.state.validators
        (s.votes.drop n.state.votes.length)
      finalized := n.finalized ++ (s.blocks.drop n.state.blocks.length).map fun block =>
        ⟨call.jobId, requiredFor mc n.state call.jobId, block.toBlockDraft⟩ }
  | .other cleared s' =>
    { n with state := { s' with votes := if cleared then [] else n.state.votes } }

/-- As many distinct validators as the job needs approved it while they were eligible. -/
def FinalizedBlock.ByEligible (eligible : List (String × String)) (f : FinalizedBlock) : Prop :=
  ∃ required, f.required = some required ∧ ∃ validators : List String, validators.Nodup ∧
    required ≤ validators.length ∧ ∀ validatorId ∈ validators, (f.jobId, validatorId) ∈ eligible

/-! ## The condition -/

/-- The validator whose approval the call records. -/
def VoteCall.approver (mc : MiningConfig) (now : Instant) (s : MiningState σ) :
    VoteCall → Option ValidatorRow
  | .submit _ r =>
    match checkSubmission mc now s r with
    | .error _ => none
    | .ok (job, _, validator) =>
      if job.status = .pending ∧ hasVoted s.votes r.jobId r.validatorId = false ∧ r.approved = true ∧
          (r.signedVote job.taskId).verifies mc.toConfig validator.publicKey = true then
        some validator
      else none
  | .gossip m =>
    (s.validators.find? m.signedVote.validatorId).filter fun validator =>
      !hasVoted s.votes m.signedVote.jobId m.signedVote.validatorId && m.signedVote.approved &&
        m.signedVote.verifies mc.toConfig validator.publicKey

/-- A vote that is passed on again is counted against the active parameters: they ask for no less
than the job needs. -/
def ActiveSuffices (mc : MiningConfig) (s : MiningState σ) (jobId : String) : Prop :=
  ∀ active required, activeProtocolParams s.protocolParams = .ok active →
    requiredFor mc s jobId = some required →
      required ≤ effectiveRequiredApprovals mc active.2

/-- The approval that the call records is an eligible validator's, and a vote that is passed on
again is counted against no less than the job needs. -/
structure SoundCall (mc : MiningConfig) (field : EligibilityStakeField) (now : Instant)
    (s : MiningState σ) (call : VoteCall) : Prop where
  approver : ∀ validator, call.approver mc now s = some validator →
    validator.eligible mc field now = true
  again : ∀ m, call = .gossip m →
    hasVoted s.votes m.signedVote.jobId m.signedVote.validatorId = true →
      ActiveSuffices mc s m.signedVote.jobId

def SoundStep (mc : MiningConfig) (field : EligibilityStakeField) (n : QuorumNode σ) :
    QuorumStep σ → Prop
  | .vote now call => SoundCall mc field now n.state call
  | .other _ _ => True

/-! ## What the finalizations count -/

/-- The votes stay, and a block is appended only where the approvals suffice. -/
structure Counted (s : MiningState σ) (jobId : String) (required : ℤ) (s' : MiningState σ) :
    Prop where
  votes : s'.votes = s.votes
  quorum : s'.drafts = s.drafts ∨ required ≤ (validationVoteCounts s.votes jobId).1

theorem Counted.refl (s : MiningState σ) (jobId : String) (required : ℤ) :
    Counted s jobId required s := ⟨rfl, .inl rfl⟩

theorem closeCompetitiveRoundAfterBlock_votes (s : MiningState σ) (taskId : String)
    (task : TaskRow) (height : ℤ) (timestamp : String) :
    (closeCompetitiveRoundAfterBlock s taskId task height timestamp).votes = s.votes := by
  unfold closeCompetitiveRoundAfterBlock
  generalize openCompetitors s taskId task = others
  induction others generalizing s with
  | nil => rfl
  | cons other rest ih => exact ih (markCompetitiveTaskStale s other _ timestamp)

/-- The acceptance of a block leaves the votes alone, whatever its outcome. -/
theorem acceptByQuorum_votes {mc : MiningConfig} {services : BlockServices σ}
    {s s' : MiningState σ} {c : FinalizationCall} {keepStale : Bool} {response : VoteResponse}
    (h : acceptByQuorum mc services keepStale s c = .ok (s', response)) : s'.votes = s.votes := by
  unfold acceptByQuorum at h
  split at h
  · cases h
    rfl
  · cases h
    show (rejectFailed keepStale s c _).1.votes = s.votes
    unfold rejectFailed
    dsimp only [closeJob]
    split
    · rfl
    · split <;> rfl
  · cases h
  · next block s₁ haccept =>
    cases h
    obtain ⟨ms, -, haccept⟩ := bind_eq_ok.mp haccept
    show s₁.votes = s.votes
    rcases acceptBlock_eq_ok haccept with ⟨-, hs⟩ | ⟨_, _, -, -, -, -, -, hs⟩
    · rw [hs]
    · rw [hs, closeCompetitiveRoundAfterBlock_votes]
      rfl

theorem finalizeSubmitted_counted {mc : MiningConfig} {services : BlockServices σ}
    {s s' : MiningState σ} {c : FinalizationCall} {required : ℤ} {response : VoteResponse}
    (h : finalizeSubmitted mc services s c (validationVoteCounts s.votes c.jobId) required =
      .ok (s', response)) : Counted s c.jobId required s' := by
  unfold finalizeSubmitted at h
  split at h
  · next hquorum =>
    refine ⟨?_, .inr hquorum.2⟩
    split at h
    · cases h
      rfl
    · exact acceptByQuorum_votes h
  · split at h
    · cases h
      exact ⟨rfl, .inl rfl⟩
    · cases h
      exact .refl s c.jobId required

theorem finalizeFromGossip_counted {mc : MiningConfig} {services : BlockServices σ}
    {s s' : MiningState σ} {c : FinalizationCall} {required : ℤ} {response : Option VoteResponse}
    (h : finalizeFromGossip mc services s c (validationVoteCounts s.votes c.jobId) required =
      .ok (s', response)) : Counted s c.jobId required s' := by
  unfold finalizeFromGossip at h
  split at h
  · next hquorum =>
    refine ⟨?_, .inr hquorum.2⟩
    split at h
    · split at h <;> cases h <;> rfl
    · obtain ⟨⟨s₁, response₁⟩, haccept, h⟩ := bind_eq_ok.mp h
      cases h
      exact acceptByQuorum_votes haccept
  · split at h
    · cases h
      exact ⟨rfl, .inl rfl⟩
    · cases h
      exact .refl s c.jobId required

theorem finalizeFromExistingVotes_counted {mc : MiningConfig} {services : BlockServices σ}
    {s s' : MiningState σ} {now jobId : String} {job : ValidationJobRow} {required : ℤ}
    {response : Option VoteResponse}
    (h : finalizeFromExistingVotes mc services now s jobId job required = .ok (s', response)) :
    Counted s jobId required s' := by
  unfold finalizeFromExistingVotes at h
  dsimp only at h
  split at h
  · cases h
    exact .refl s jobId required
  · split at h
    · cases h
    · split at h
      · cases h
        exact .refl s jobId required
      · obtain ⟨params, -, h⟩ := bind_eq_ok.mp h
        exact finalizeFromGossip_counted h

/-! ## What a call counts -/

/-- The vote that a call appends: a new one, and an approval only if the call records one. -/
structure NewVote (mc : MiningConfig) (now : Instant) (s : MiningState σ) (call : VoteCall)
    (vote : ValidationVoteRow) : Prop where
  unseen : hasVoted s.votes vote.jobId vote.validatorId = false
  approver : vote.approved = true → ∃ validator,
    s.validators.find? vote.validatorId = some validator ∧ call.approver mc now s = some validator

/-- At most one vote is appended, and a block only where the approvals are as many as the job
needs. -/
structure CallCounts (mc : MiningConfig) (now : Instant) (s : MiningState σ) (call : VoteCall)
    (s' : MiningState σ) : Prop where
  votes : s'.votes = s.votes ∨ ∃ vote, NewVote mc now s call vote ∧ s'.votes = s.votes ++ [vote]
  quorum : s'.drafts = s.drafts ∨ ∃ required, requiredFor mc s call.jobId = some required ∧
    required ≤ (validationVoteCounts s'.votes call.jobId).1

theorem CallCounts.refl (mc : MiningConfig) (now : Instant) (s : MiningState σ)
    (call : VoteCall) : CallCounts mc now s call s := ⟨.inl rfl, .inl rfl⟩

/-- A finalization without a new vote. -/
theorem CallCounts.of_counted {mc : MiningConfig} {now : Instant} {s s' : MiningState σ}
    {call : VoteCall} {counted : ℤ} (h : Counted s call.jobId counted s')
    (hrequired : ∃ required, requiredFor mc s call.jobId = some required ∧ required ≤ counted) :
    CallCounts mc now s call s' := by
  obtain ⟨required, hfor, hle⟩ := hrequired
  refine ⟨.inl h.votes, h.quorum.imp id fun hquorum => ⟨required, hfor, ?_⟩⟩
  rw [h.votes]
  exact le_trans hle hquorum

/-- A finalization with the vote that has been recorded for it. -/
theorem CallCounts.of_recorded {mc : MiningConfig} {now : Instant} {s s₁ s' : MiningState σ}
    (call : VoteCall) {vote : ValidationVoteRow} {required : ℤ}
    (h : Counted s₁ call.jobId required s') (hvotes : s₁.votes = s.votes ++ [vote])
    (hdrafts : s₁.drafts = s.drafts) (hvote : NewVote mc now s call vote)
    (hrequired : requiredFor mc s call.jobId = some required) : CallCounts mc now s call s' := by
  refine ⟨.inr ⟨vote, hvote, h.votes.trans hvotes⟩, ?_⟩
  rcases h.quorum with hsame | hquorum
  · exact .inl (hsame.trans hdrafts)
  · refine .inr ⟨required, hrequired, ?_⟩
    rw [h.votes]
    exact hquorum

/-- What a job needs, with its rows at hand. -/
theorem requiredFor_eq (mc : MiningConfig) {s : MiningState σ} {jobId : String}
    {job : ValidationJobRow} {task : TaskRow} {params : ℤ × ProtocolParamsRow}
    (hjob : s.jobs.find? jobId = some job) (htask : s.tasks.find? job.taskId = some task)
    (hparams : protocolParamsForTask s.protocolParams task = .ok params) :
    requiredFor mc s jobId = some (effectiveRequiredApprovals mc params.2) := by
  unfold requiredFor
  rw [hjob, Option.bind_some, htask, Option.bind_some, hparams]

theorem submit_counts (mc : MiningConfig) (services : BlockServices σ) (now : Instant)
    (validationMs : ℤ) (s : MiningState σ) (r : SubmitRequest) :
    CallCounts mc now s (.submit validationMs r)
      (submitValidationResult mc services now validationMs s r).1 := by
  have hrefl := CallCounts.refl mc now s (.submit validationMs r)
  unfold submitValidationResult
  dsimp only
  split
  · exact hrefl
  next job task validator hcheck =>
  obtain ⟨hjob, htask, hvalidator, -⟩ := checkSubmission_eq_ok hcheck
  split
  · cases protocolParamsForTask s.protocolParams task <;> exact hrefl
  next hpending =>
  split
  · cases hexisting : existingVoteResponse mc services (isoformat now) s r.jobId job task with
    | error e => exact hrefl
    | ok result =>
      obtain ⟨s', response⟩ := result
      obtain ⟨params, hparams, hexisting⟩ := bind_eq_ok.mp hexisting
      obtain ⟨⟨s₁, finalization⟩, hfinalize, hexisting⟩ := bind_eq_ok.mp hexisting
      have hstate : s' = s₁ := by
        dsimp only at hexisting
        split at hexisting
        · cases hexisting
          rfl
        · split at hexisting <;> cases hexisting <;> rfl
      rw [hstate]
      exact .of_counted (finalizeFromExistingVotes_counted hfinalize)
        ⟨_, requiredFor_eq mc hjob htask hparams, le_refl _⟩
  next hvoted =>
  split
  · next hverifies =>
    cases hcount : countSubmittedVote mc services now validationMs s r job task with
    | error e => exact hrefl
    | ok result =>
      obtain ⟨s', response⟩ := result
      obtain ⟨params, hparams, hcount⟩ := bind_eq_ok.mp hcount
      have hnew : hasVoted s.votes r.jobId r.validatorId = false := Bool.not_eq_true _ ▸ hvoted
      have hcounted := finalizeSubmitted_counted hcount
      refine CallCounts.of_recorded (.submit validationMs r) hcounted rfl rfl
        ⟨hnew, fun happroved => ⟨validator, hvalidator, ?_⟩⟩ (requiredFor_eq mc hjob htask hparams)
      -- an approval that is recorded has passed the checks of the submission
      unfold VoteCall.approver
      dsimp only
      rw [hcheck]
      exact if_pos ⟨not_not.mp hpending, hnew, happroved, hverifies⟩
  · exact ⟨.inl rfl, .inl rfl⟩

theorem gossip_counts {mc : MiningConfig} {services : BlockServices σ} {now : Instant}
    {s s' : MiningState σ} {m : VoteMessage}
    (hagain : hasVoted s.votes m.signedVote.jobId m.signedVote.validatorId = true →
      ActiveSuffices mc s m.signedVote.jobId)
    (h : receiveValidationVoteGossip mc services now s m = .ok s') :
    CallCounts mc now s (.gossip m) s' := by
  unfold receiveValidationVoteGossip at h
  dsimp only at h
  split at h
  · cases h
  split at h
  · cases h
  next job hjob =>
  split at h
  · cases h
  next htaskId =>
  rw [not_not] at htaskId
  split at h
  · cases h
  next validator hvalidator =>
  split at h
  · next hvoted =>
    obtain ⟨active, hactive, h⟩ := bind_eq_ok.mp h
    obtain ⟨⟨s₁, response⟩, hfinalize, h⟩ := bind_eq_ok.mp h
    cases h
    cases htask : s.tasks.find? job.taskId with
    | none =>
      -- without its task the job finalizes nothing
      have hidle : s' = s := by
        unfold finalizeFromExistingVotes at hfinalize
        dsimp only at hfinalize
        rw [htask] at hfinalize
        split at hfinalize <;> cases hfinalize
        rfl
      rw [hidle]
      exact .refl mc now s (.gossip m)
    | some task =>
      obtain ⟨params, hparams⟩ := exists_protocolParamsForTask hactive task
      have hfor := requiredFor_eq mc hjob htask hparams
      exact .of_counted (finalizeFromExistingVotes_counted hfinalize)
        ⟨_, hfor, hagain hvoted active _ hactive hfor⟩
  next hvoted =>
  have hnew : hasVoted s.votes m.signedVote.jobId m.signedVote.validatorId = false :=
    Bool.not_eq_true _ ▸ hvoted
  split at h
  · next hverifies =>
    unfold countGossipedVote at h
    dsimp only at h
    split at h
    · cases h
    next task htask =>
    obtain ⟨params, hparams, h⟩ := bind_eq_ok.mp h
    have hvote : NewVote mc now s (.gossip m)
        { jobId := m.signedVote.jobId
          taskId := m.signedVote.taskId
          validatorId := m.signedVote.validatorId
          approved := m.signedVote.approved
          reason := m.signedVote.reason
          signature := m.signedVote.signature
          signedAt := m.signedVote.signedAt
          validationMs := intOr m.validationMs 0
          createdAt := textOr m.createdAt (isoformat now) } := by
      refine ⟨hnew, fun happroved => ⟨validator, hvalidator, ?_⟩⟩
      unfold VoteCall.approver
      dsimp only at happroved ⊢
      rw [hvalidator, hnew, happroved, Option.filter_some, hverifies]
      rfl
    split at h
    · obtain ⟨⟨s₁, response⟩, hfinalize, h⟩ := bind_eq_ok.mp h
      cases h
      rw [← htaskId] at htask
      have hcounted := finalizeFromGossip_counted hfinalize
      exact CallCounts.of_recorded (.gossip m) hcounted rfl rfl hvote
        (requiredFor_eq mc hjob htask hparams)
    · cases h
      exact ⟨.inr ⟨_, hvote, rfl⟩, .inl rfl⟩
  · cases h

theorem vote_counts {mc : MiningConfig} {field : EligibilityStakeField}
    (services : BlockServices σ) {now : Instant} {s : MiningState σ} {call : VoteCall}
    (h : SoundCall mc field now s call) :
    CallCounts mc now s call (VoteCall.step mc services s (now, call)) := by
  cases call with
  | submit validationMs r => exact submit_counts mc services now validationMs s r
  | gossip m =>
    exact attempt_of (P := fun s' : MiningState σ => CallCounts mc now s (.gossip m) s')
      (.refl mc now s (.gossip m)) fun _ hs => gossip_counts (h.again m rfl) hs

/-! ## Every run -/

/-- Who voted on what. -/
def ValidationVoteRow.voter (vote : ValidationVoteRow) : String × String :=
  (vote.jobId, vote.validatorId)

/-- A validator has one vote for a job, its approvals were given while it was eligible, and so were
those that have finalized a block. -/
structure QuorumSound (n : QuorumNode σ) : Prop where
  distinct : (n.state.votes.map ValidationVoteRow.voter).Nodup
  eligible : ∀ vote ∈ n.state.votes, vote.approved = true → vote.voter ∈ n.eligible
  finalized : ∀ f ∈ n.finalized, f.ByEligible n.eligible

theorem FinalizedBlock.ByEligible.mono {eligible eligible' : List (String × String)}
    (hsub : eligible ⊆ eligible') {f : FinalizedBlock} (h : f.ByEligible eligible) :
    f.ByEligible eligible' := by
  obtain ⟨required, hrequired, validators, hdistinct, hle, hall⟩ := h
  exact ⟨required, hrequired, validators, hdistinct, hle, fun v hv => hsub (hall v hv)⟩

/-- The approvals that are counted for a job are those of distinct validators. -/
theorem exists_approvers {votes : List ValidationVoteRow} {eligible : List (String × String)}
    (hdistinct : (votes.map ValidationVoteRow.voter).Nodup)
    (heligible : ∀ vote ∈ votes, vote.approved = true → vote.voter ∈ eligible) (jobId : String) :
    ∃ validators : List String, validators.Nodup ∧
      (validationVoteCounts votes jobId).1 = validators.length ∧
        ∀ validatorId ∈ validators, (jobId, validatorId) ∈ eligible := by
  let approvals := votes.filter fun vote => vote.jobId = jobId && vote.approved
  have hof : ∀ vote ∈ approvals, vote ∈ votes ∧ vote.jobId = jobId ∧ vote.approved = true := by
    intro vote hvote
    obtain ⟨hmem, hkept⟩ := List.mem_filter.mp hvote
    simp only [Bool.and_eq_true, decide_eq_true_eq] at hkept
    exact ⟨hmem, hkept⟩
  refine ⟨approvals.map ValidationVoteRow.validatorId, ?_, ?_, ?_⟩
  · -- the votes on one job differ in their validators
    have hvoters : approvals.map ValidationVoteRow.voter =
        (approvals.map ValidationVoteRow.validatorId).map (Prod.mk jobId) := by
      rw [List.map_map]
      refine List.map_congr_left fun vote hvote => ?_
      show (vote.jobId, vote.validatorId) = (jobId, vote.validatorId)
      rw [(hof vote hvote).2.1]
    have hnodup : (approvals.map ValidationVoteRow.voter).Nodup :=
      hdistinct.sublist (List.filter_sublist.map _)
    rw [hvoters] at hnodup
    exact hnodup.of_map
  · unfold validationVoteCounts
    rw [List.length_map, List.countP_eq_length_filter]
  · intro validatorId hmem
    obtain ⟨vote, hvote, hid⟩ := List.mem_map.mp hmem
    obtain ⟨hin, hjob, happroved⟩ := hof vote hvote
    rw [← hjob, ← hid]
    exact heligible vote hin happroved

/-- The approvals of a new vote. -/
theorem voter_mem_eligibleApprovals {mc : MiningConfig} {field : EligibilityStakeField}
    {now : Instant} {s : MiningState σ} {call : VoteCall} (hsound : SoundCall mc field now s call)
    {vote : ValidationVoteRow} (h : NewVote mc now s call vote) (happroved : vote.approved = true) :
    vote.voter ∈ eligibleApprovals mc field now s.validators [vote] := by
  obtain ⟨validator, hfind, happrover⟩ := h.approver happroved
  have hkept : (vote.approved && (s.validators.find? vote.validatorId).any
      (ValidatorRow.eligible mc field now)) = true := by
    rw [happroved, hfind]
    exact hsound.approver validator happrover
  refine List.mem_map.mpr ⟨vote, ?_, rfl⟩
  exact List.mem_filter.mpr ⟨List.mem_singleton_self vote, hkept⟩

/-- A sound call keeps the node sound. -/
theorem QuorumSound.vote {mc : MiningConfig} {field : EligibilityStakeField}
    {services : BlockServices σ} {n : QuorumNode σ} (hn : QuorumSound n) {now : Instant}
    {call : VoteCall} (hcall : SoundCall mc field now n.state call) :
    QuorumSound (n.step mc field services (.vote now call)) := by
  have hcounts := vote_counts services hcall
  have heffect := vote_effect mc services now n.state call
  unfold QuorumNode.step
  dsimp only
  generalize VoteCall.step mc services n.state (now, call) = s at hcounts heffect
  let recorded := eligibleApprovals mc field now n.state.validators
    (s.votes.drop n.state.votes.length)
  have hdistinct : (s.votes.map ValidationVoteRow.voter).Nodup := by
    rcases hcounts.votes with hsame | ⟨vote, hvote, hnew⟩
    · rw [hsame]
      exact hn.distinct
    · rw [hnew, List.map_append]
      refine List.nodup_append.mpr ⟨hn.distinct, List.nodup_singleton _, ?_⟩
      intro voter hmem voter' hmem' heq
      obtain ⟨old, hold, hvoter⟩ := List.mem_map.mp hmem
      rw [List.map_singleton, List.mem_singleton] at hmem'
      have hpair : (old.jobId, old.validatorId) = (vote.jobId, vote.validatorId) := by
        rw [hmem'] at heq
        exact hvoter.trans heq
      have hseen : hasVoted n.state.votes vote.jobId vote.validatorId = true := by
        refine List.any_eq_true.mpr ⟨old, hold, ?_⟩
        simp only [Bool.and_eq_true, decide_eq_true_eq]
        exact ⟨congrArg Prod.fst hpair, congrArg Prod.snd hpair⟩
      rw [hvote.unseen] at hseen
      cases hseen
  -- an approval was recorded before, or by this call for an eligible validator
  have heligible : ∀ vote ∈ s.votes, vote.approved = true → vote.voter ∈ n.eligible ++ recorded := by
    intro vote hmem happroved
    rcases hcounts.votes with hsame | ⟨new, hvote, hnew⟩
    · rw [hsame] at hmem
      exact List.mem_append_left _ (hn.eligible vote hmem happroved)
    · rw [hnew] at hmem
      rcases List.mem_append.mp hmem with hold | hlast
      · exact List.mem_append_left _ (hn.eligible vote hold happroved)
      · rw [List.mem_singleton] at hlast
        refine List.mem_append_right _ ?_
        show vote.voter ∈ eligibleApprovals mc field now n.state.validators
          (s.votes.drop n.state.votes.length)
        rw [hnew, List.drop_left, hlast]
        exact voter_mem_eligibleApprovals hcall hvote (hlast ▸ happroved)
  refine ⟨hdistinct, heligible, fun f hf => ?_⟩
  rcases List.mem_append.mp hf with hold | hnew
  · exact (hn.finalized f hold).mono (List.subset_append_left _ _)
  · obtain ⟨row, hrow, hf⟩ := List.mem_map.mp hnew
    rcases hcounts.quorum with hsame | ⟨required, hrequired, hle⟩
    · -- no block is new
      have hlength : s.blocks.length = n.state.blocks.length := by
        have hlengths := congrArg List.length hsame
        unfold MiningState.drafts at hlengths
        rwa [List.length_map, List.length_map] at hlengths
      rw [← hlength, List.drop_length] at hrow
      cases hrow
    · obtain ⟨validators, hnodup, hcount, hall⟩ := exists_approvers hdistinct heligible call.jobId
      rw [← hf]
      exact ⟨required, hrequired, validators, hnodup, hcount ▸ hle, hall⟩

/-- Whatever else happens to the node keeps it sound. -/
theorem QuorumSound.other {mc : MiningConfig} {field : EligibilityStakeField}
    {services : BlockServices σ} {n : QuorumNode σ} (hn : QuorumSound n) (cleared : Bool)
    (s' : MiningState σ) : QuorumSound (n.step mc field services (.other cleared s')) := by
  unfold QuorumNode.step
  cases cleared with
  | false => exact ⟨hn.distinct, hn.eligible, hn.finalized⟩
  | true => exact ⟨List.nodup_nil, fun vote hvote => absurd hvote List.not_mem_nil, hn.finalized⟩

/-- A run in which every approval that is recorded is an eligible validator's: every block that
votes have finalized has as many eligible approvals as its job needs, by distinct validators. -/
theorem eligible_quorum_of_run (mc : MiningConfig) (field : EligibilityStakeField)
    (services : BlockServices σ) (s : MiningState σ) (steps : List (QuorumStep σ))
    (hs : s.votes = [])
    (h : EachStep (QuorumNode.step mc field services) (SoundStep mc field) ⟨s, [], []⟩ steps) :
    ∀ n ∈ states (QuorumNode.step mc field services) ⟨s, [], []⟩ steps,
      ∀ f ∈ n.finalized, f.ByEligible n.eligible := by
  intro n hn
  have hstart : QuorumSound (⟨s, [], []⟩ : QuorumNode σ) := by
    refine ⟨?_, fun vote hvote => ?_, fun f hf => absurd hf List.not_mem_nil⟩
    · show (s.votes.map ValidationVoteRow.voter).Nodup
      rw [hs]
      exact List.nodup_nil
    · have hvote' : vote ∈ s.votes := hvote
      rw [hs] at hvote'
      cases hvote'
  have hstep : ∀ (n : QuorumNode σ) (step : QuorumStep σ), QuorumSound n → SoundStep mc field n step →
      QuorumSound (n.step mc field services step) := by
    intro n step hn hsound
    cases step with
    | vote now call => exact hn.vote hsound
    | other cleared s' => exact hn.other cleared s'
  exact (invariant_of_eachStep hstep steps _ hstart h n hn).finalized

/-! ## A quorum of one -/

/-- The second validator approves the job of the local task. -/
def approveLocally : QuorumStep Unit :=
  .vote 1778371200000000 (.submit 20 (localApproval "validator-2" "signed"))

/-- A peer passes the approval on. -/
def approveByGossip : QuorumStep Unit :=
  .vote 1778371200000000 (.gossip ((localApproval "validator-2" "signed").message "task-1" 20))

/-- The row of the second validator is written. -/
def changeValidator (f : ValidatorRow → ValidatorRow) : QuorumStep Unit :=
  .other false { localVoting with validators := localVoting.validators.modify "validator-2" f }

/-- The node after the steps. -/
def localQuorum (steps : List (QuorumStep Unit)) : QuorumNode Unit :=
  steps.foldl (QuorumNode.step votingMining .stakeLocked localServices) ⟨localVoting, [], []⟩

theorem eligible_quorum_local :
    (localQuorum [approveLocally]).finalized.length = 1 ∧
      ∀ f ∈ (localQuorum [approveLocally]).finalized,
        f.ByEligible (localQuorum [approveLocally]).eligible := by
  refine ⟨by decide +kernel, ?_⟩
  refine eligible_quorum_of_run votingMining .stakeLocked localServices localVoting [approveLocally]
    rfl ⟨⟨fun validator happrover => ?_, fun _ hgossip => nomatch hgossip⟩, trivial⟩ _
    (foldl_mem_states _ _ _)
  have hall : ((VoteCall.submit 20 (localApproval "validator-2" "signed")).approver votingMining
      1778371200000000 localVoting).all
        (ValidatorRow.eligible votingMining .stakeLocked 1778371200000000) = true := by
    decide +kernel
  have happrover' : (VoteCall.submit 20 (localApproval "validator-2" "signed")).approver votingMining
      1778371200000000 localVoting = some validator := happrover
  rw [happrover', Option.all_some] at hall
  exact hall

/-- Without an eligible approval no quorum is one of eligible validators. -/
theorem FinalizedBlock.not_byEligible_nil {f : FinalizedBlock} {required : ℤ}
    (hrequired : f.required = some required) (hpos : 0 < required) : ¬f.ByEligible [] := by
  rintro ⟨required', hrequired', validators, -, hle, hall⟩
  rw [hrequired] at hrequired'
  cases hrequired'
  cases validators with
  | nil =>
    rw [List.length_nil] at hle
    omega
  | cons v rest => exact absurd (hall v List.mem_cons_self) List.not_mem_nil

/-- A validator that its operator has disabled finalizes a block by submitting its approval, and
one that is banned by an approval that a peer passes on. -/
theorem ineligible_quorum :
    (∃ f ∈ (localQuorum [changeValidator (ValidatorRow.setEnabled false), approveLocally]).finalized,
      ¬f.ByEligible
        (localQuorum [changeValidator (ValidatorRow.setEnabled false), approveLocally]).eligible) ∧
    ∃ f ∈ (localQuorum [changeValidator fun row => (ValidatorRow.penalize 1778371200000000)^[9] row,
        approveByGossip]).finalized,
      ¬f.ByEligible (localQuorum [changeValidator fun row =>
        (ValidatorRow.penalize 1778371200000000)^[9] row, approveByGossip]).eligible := by
  have hcase : ∀ n : QuorumNode Unit,
      (n.eligible.isEmpty && n.finalized.any fun f => f.required = some 1) = true →
        ∃ f ∈ n.finalized, ¬f.ByEligible n.eligible := by
    intro n hn
    obtain ⟨hnone, hany⟩ := Bool.and_eq_true_iff.mp hn
    obtain ⟨f, hf, hrequired⟩ := List.any_eq_true.mp hany
    refine ⟨f, hf, ?_⟩
    rw [List.isEmpty_iff.mp hnone]
    exact FinalizedBlock.not_byEligible_nil (of_decide_eq_true hrequired) one_pos
  constructor
  · exact hcase (localQuorum [changeValidator (ValidatorRow.setEnabled false), approveLocally])
      (by decide +kernel)
  · exact hcase (localQuorum [changeValidator fun row =>
      (ValidatorRow.penalize 1778371200000000)^[9] row, approveByGossip]) (by decide +kernel)

end Picoin
