import Picoin.Services.LocalMining
import Picoin.Services.Validation

/-!
# Who can slash a validator

A vote that is submitted under a validator's name with a signature that does not verify costs the
validator a part of its stake: nobody has to know its key for that. Apart from such a submission,
only the block that a quorum accepts can change what the validator has at stake.

* **`StakeColumns`** — the columns that a penalty changes;
* **`Harmless`** — a request that is no such submission, and whose quorum accepts no block that is
  about the validator;
* **`stake_kept`** — these columns through every run of harmless requests;
* **`forged_submission_slashes`** — one forged submission.
-/

namespace Picoin

open Outcome Run Decimal

variable {σ : Type}

/-! ## What is at stake -/

/-- The columns of a validator that a penalty changes. -/
structure StakeColumns where
  stakeLocked : ℤ
  walletStakeLocked : ℤ
  slashedAmount : ℤ
  invalidResults : ℤ
  cooldownUntil : Option String
  isBanned : Bool
  trustScore : Dec

def ValidatorRow.stakeColumns (row : ValidatorRow) : StakeColumns where
  stakeLocked := row.stakeLocked
  walletStakeLocked := row.walletStakeLocked
  slashedAmount := row.slashedAmount
  invalidResults := row.invalidResults
  cooldownUntil := row.cooldownUntil
  isBanned := row.isBanned
  trustScore := row.trustScore

/-- The columns of the validator, if it is registered. -/
def stakeColumns (validators : Sql.Table String ValidatorRow) (v : String) : Option StakeColumns :=
  (validators.find? v).map ValidatorRow.stakeColumns

/-- A submission gets as far as the check of its signature. -/
def ReachesSignatureCheck (mc : MiningConfig) (now : Instant) (s : MiningState σ)
    (r : SubmitRequest) : Prop :=
  ∃ job task validator, checkSubmission mc now s r = .ok (job, task, validator) ∧
    job.status = .pending ∧ hasVoted s.votes r.jobId r.validatorId = false

/-- The tables in which a request counts the votes on its job: as they are, if the validator has
voted already, or with its vote. -/
def VoteCall.counting (now : Instant) (s : MiningState σ) : VoteCall → List (MiningState σ)
  | .submit validationMs r => s :: ((s.jobs.find? r.jobId).map fun job =>
    recordVote s now (r.signedVote job.taskId) validationMs (isoformat now)).toList
  | .gossip m => [s, recordVote s now m.signedVote (intOr m.validationMs 0)
    (textOr m.createdAt (isoformat now))]

/-- The job has as many approvals as its task or the active parameters ask for. -/
def QuorumReached (mc : MiningConfig) (s : MiningState σ) (jobId : String) (task : TaskRow) :
    Prop :=
  ∃ params, (protocolParamsForTask s.protocolParams task = .ok params ∨
      activeProtocolParams s.protocolParams = .ok params) ∧
    effectiveRequiredApprovals mc params.2 ≤ (validationVoteCounts s.votes jobId).1

/-- The block of the job's task, if it is accepted in these tables, leaves the columns alone: it
executes no stake or unstake of the validator, and no audit slashes it. -/
def SettlesWithout (mc : MiningConfig) (services : BlockServices σ) (v now : String)
    (s : MiningState σ) (jobId : String) (job : ValidationJobRow) (task : TaskRow) : Prop :=
  ∀ params transactions settlement, protocolParamsForTask s.protocolParams task = .ok params →
    loadSnapshotTransactions mc s job.taskId = .ok transactions →
      services.settle s.validators s.services (draftBlock mc now s (jobClaim jobId job task) params
        s.tip (transactionCommitment mc.toConfig transactions)) = .ok settlement →
        stakeColumns settlement.validators v = stakeColumns s.validators v

/-- The block that the request's quorum can accept, if there is one, leaves the columns alone. -/
def Unconcerned (mc : MiningConfig) (services : BlockServices σ) (v : String) (s : MiningState σ)
    (call : Instant × VoteCall) : Prop :=
  ∀ s₁ ∈ call.2.counting call.1 s, ∀ job task, s₁.jobs.find? call.2.jobId = some job →
    job.status = .pending → s₁.tasks.find? job.taskId = some task →
      QuorumReached mc s₁ call.2.jobId task →
        SettlesWithout mc services v (isoformat call.1) s₁ call.2.jobId job task

/-- The request carries no signature that verifies under the validator's key. -/
def UnsignedBy (mc : MiningConfig) (v : String) (s : MiningState σ) : VoteCall → Prop
  | .submit _ r => r.validatorId = v → ∀ job row, s.jobs.find? r.jobId = some job →
    s.validators.find? v = some row →
      (r.signedVote job.taskId).verifies mc.toConfig row.publicKey = false
  | .gossip m => m.signedVote.validatorId = v → ∀ row, s.validators.find? v = some row →
    m.signedVote.verifies mc.toConfig row.publicKey = false

/-- The request is not signed by the validator, is no forged submission that gets as far as its
signature, and its block is not about the validator. -/
structure Harmless (mc : MiningConfig) (services : BlockServices σ) (v : String)
    (s : MiningState σ) (call : Instant × VoteCall) : Prop where
  unsigned : UnsignedBy mc v s call.2
  unchecked : ∀ validationMs r, call.2 = .submit validationMs r → r.validatorId = v →
    ¬ReachesSignatureCheck mc call.1 s r
  unconcerned : Unconcerned mc services v s call

/-! ## What keeps the columns -/

theorem stakeColumns_modify_ne {validators : Sql.Table String ValidatorRow} {v w : String}
    (h : v ≠ w) (f : ValidatorRow → ValidatorRow) :
    stakeColumns (validators.modify w f) v = stakeColumns validators v := by
  unfold stakeColumns
  rw [Sql.Table.find?_modify_ne _ _ h]

/-- A vote of another validator. -/
theorem stakeColumns_recordVote {v : String} (s : MiningState σ) (now : Instant)
    {vote : SignedVote} (hne : v ≠ vote.validatorId) (validationMs : ℤ) (receivedAt : String) :
    stakeColumns (recordVote s now vote validationMs receivedAt).validators v =
      stakeColumns s.validators v :=
  stakeColumns_modify_ne hne _

/-- The acceptance of the block that a finalization is about. -/
theorem accept_stake {mc : MiningConfig} {services : BlockServices σ} {v : String}
    {s s' : MiningState σ} {c : FinalizationCall} {block : MinedBlockRow}
    (hparams : protocolParamsForTask s.protocolParams c.task = .ok c.params)
    (hsettles : SettlesWithout mc services v c.now s c.jobId c.job c.task)
    (h : c.accept mc services s = .ok (block, s')) :
    stakeColumns s'.validators v = stakeColumns s.validators v := by
  obtain ⟨ms, -, h⟩ := bind_eq_ok.mp h
  rcases acceptBlock_eq_ok h with ⟨-, rfl⟩ | ⟨transactions, settlement, hload, -, hsettle, -, -, rfl⟩
  · rfl
  · rw [(closeCompetitiveRoundAfterBlock_blocks _ _ _ _ _).2.2]
    -- the block has the transactions that were frozen for its task
    exact hsettles c.params transactions settlement hparams hload hsettle

theorem acceptByQuorum_stake {mc : MiningConfig} {services : BlockServices σ} {v : String}
    {s s' : MiningState σ} {keepStale : Bool} {c : FinalizationCall} {response : VoteResponse}
    (hparams : protocolParamsForTask s.protocolParams c.task = .ok c.params)
    (hsettles : SettlesWithout mc services v c.now s c.jobId c.job c.task)
    (h : acceptByQuorum mc services keepStale s c = .ok (s', response)) :
    stakeColumns s'.validators v = stakeColumns s.validators v := by
  unfold acceptByQuorum at h
  split at h
  · cases h
    rfl
  · cases h
    split
    · rfl
    · split <;> rfl
  · cases h
  · next block s₁ haccept =>
    cases h
    have hstake := accept_stake hparams hsettles haccept
    exact hstake

/-- A finalization accepts a block only if the approvals suffice. -/
theorem finalizeSubmitted_stake {mc : MiningConfig} {services : BlockServices σ} {v : String}
    {s s' : MiningState σ} {c : FinalizationCall} {counts : ℤ × ℤ} {required : ℤ}
    {response : VoteResponse}
    (hparams : protocolParamsForTask s.protocolParams c.task = .ok c.params)
    (hsettles : required ≤ counts.1 → SettlesWithout mc services v c.now s c.jobId c.job c.task)
    (h : finalizeSubmitted mc services s c counts required = .ok (s', response)) :
    stakeColumns s'.validators v = stakeColumns s.validators v := by
  unfold finalizeSubmitted at h
  split at h
  · next hquorum =>
    split at h
    · cases h
      rfl
    · exact acceptByQuorum_stake hparams (hsettles hquorum.2) h
  · split at h
    · cases h
      rfl
    · cases h
      rfl

theorem finalizeFromGossip_stake {mc : MiningConfig} {services : BlockServices σ} {v : String}
    {s s' : MiningState σ} {c : FinalizationCall} {counts : ℤ × ℤ} {required : ℤ}
    {response : Option VoteResponse}
    (hparams : protocolParamsForTask s.protocolParams c.task = .ok c.params)
    (hsettles : required ≤ counts.1 → SettlesWithout mc services v c.now s c.jobId c.job c.task)
    (h : finalizeFromGossip mc services s c counts required = .ok (s', response)) :
    stakeColumns s'.validators v = stakeColumns s.validators v := by
  unfold finalizeFromGossip at h
  split at h
  · next hquorum =>
    split at h
    · split at h
      · cases h
        rfl
      · cases h
        rfl
    · obtain ⟨⟨s₁, response₁⟩, haccept, h⟩ := bind_eq_ok.mp h
      cases h
      exact acceptByQuorum_stake hparams (hsettles hquorum.2) haccept
  · split at h
    · cases h
      rfl
    · cases h
      rfl

theorem finalizeFromExistingVotes_stake {mc : MiningConfig} {services : BlockServices σ}
    {v : String} {s s' : MiningState σ} {now : String} {jobId : String} {job : ValidationJobRow}
    {required : ℤ} {response : Option VoteResponse}
    (hsettles : job.status = .pending → ∀ task, s.tasks.find? job.taskId = some task →
      required ≤ (validationVoteCounts s.votes jobId).1 →
        SettlesWithout mc services v now s jobId job task)
    (h : finalizeFromExistingVotes mc services now s jobId job required = .ok (s', response)) :
    stakeColumns s'.validators v = stakeColumns s.validators v := by
  unfold finalizeFromExistingVotes at h
  dsimp only at h
  split at h
  · cases h
    rfl
  next hpending =>
  split at h
  · cases h
  next task htask =>
  split at h
  · cases h
    rfl
  obtain ⟨params, hparams, h⟩ := bind_eq_ok.mp h
  have hstatus : job.status = .pending := not_not.mp fun hne => hpending (.inl hne)
  exact finalizeFromGossip_stake hparams (hsettles hstatus task htask) h

/-! ## The two requests -/

theorem submit_keeps_stake {mc : MiningConfig} {services : BlockServices σ} {v : String}
    {s : MiningState σ} {now : Instant} {validationMs : ℤ} {r : SubmitRequest}
    (h : Harmless mc services v s (now, .submit validationMs r)) :
    stakeColumns (submitValidationResult mc services now validationMs s r).1.validators v =
      stakeColumns s.validators v := by
  unfold submitValidationResult
  dsimp only
  split
  · rfl
  next job task validator hcheck =>
  obtain ⟨hjob, htask, -⟩ := checkSubmission_eq_ok hcheck
  split
  · cases protocolParamsForTask s.protocolParams task <;> rfl
  next hpending =>
  rw [not_not] at hpending
  split
  · cases hexisting : existingVoteResponse mc services (isoformat now) s r.jobId job task with
    | error e => rfl
    | ok result =>
      obtain ⟨s', response⟩ := result
      obtain ⟨params, hparams, hexisting⟩ := bind_eq_ok.mp hexisting
      obtain ⟨⟨s₁, finalization⟩, hfinalize, hexisting⟩ := bind_eq_ok.mp hexisting
      have hstate : s' = s₁ := by
        dsimp only at hexisting
        split at hexisting
        · cases hexisting
          rfl
        · split at hexisting <;> cases hexisting <;> rfl
      rw [hstate]
      refine finalizeFromExistingVotes_stake (fun _ task' htask' hquorum => ?_) hfinalize
      rw [htask] at htask'
      cases htask'
      exact h.unconcerned s List.mem_cons_self job task hjob hpending htask
        ⟨params, .inl hparams, hquorum⟩
  next hnew =>
  -- the signature is looked at, so the vote is in another validator's name
  have hne : v ≠ r.validatorId := fun heq => h.unchecked validationMs r rfl heq.symm
    ⟨job, task, validator, hcheck, hpending, Bool.not_eq_true _ ▸ hnew⟩
  split
  · cases hcount : countSubmittedVote mc services now validationMs s r job task with
    | error e => rfl
    | ok result =>
      obtain ⟨s', response⟩ := result
      obtain ⟨params, hparams, hcount⟩ := bind_eq_ok.mp hcount
      have hcounting : recordVote s now (r.signedVote job.taskId) validationMs (isoformat now) ∈
          (VoteCall.submit validationMs r).counting now s := by
        dsimp only [VoteCall.counting]
        rw [hjob]
        exact List.mem_cons_of_mem _ (List.mem_singleton_self _)
      refine (finalizeSubmitted_stake hparams (fun hquorum => ?_) hcount).trans
        (stakeColumns_recordVote s now hne validationMs (isoformat now))
      exact h.unconcerned _ hcounting job task hjob hpending htask ⟨params, .inl hparams, hquorum⟩
  · exact stakeColumns_modify_ne hne _

theorem gossip_keeps_stake {mc : MiningConfig} {services : BlockServices σ} {v : String}
    {s s' : MiningState σ} {now : Instant} {m : VoteMessage}
    (h : Harmless mc services v s (now, .gossip m))
    (hreceive : receiveValidationVoteGossip mc services now s m = .ok s') :
    stakeColumns s'.validators v = stakeColumns s.validators v := by
  unfold receiveValidationVoteGossip at hreceive
  dsimp only at hreceive
  split at hreceive
  · cases hreceive
  split at hreceive
  · cases hreceive
  next job hjob =>
  split at hreceive
  · cases hreceive
  next hsame =>
  rw [not_not] at hsame
  split at hreceive
  · cases hreceive
  next validator hvalidator =>
  split at hreceive
  · -- the vote is recorded already, and the recorded votes may close the job
    obtain ⟨params, hparams, hreceive⟩ := bind_eq_ok.mp hreceive
    obtain ⟨⟨s₁, response⟩, hfinalize, hreceive⟩ := bind_eq_ok.mp hreceive
    cases hreceive
    refine finalizeFromExistingVotes_stake (fun hpending task htask hquorum => ?_) hfinalize
    exact h.unconcerned s List.mem_cons_self job task hjob hpending htask
      ⟨params, .inr hparams, hquorum⟩
  split at hreceive
  · next hverifies =>
    -- a verified vote is not of the validator, whose key signs nothing here
    have hne : v ≠ m.signedVote.validatorId := by
      intro heq
      rw [← heq] at hvalidator
      have hunsigned := h.unsigned heq.symm validator hvalidator
      rw [hverifies] at hunsigned
      cases hunsigned
    have hkept := stakeColumns_recordVote s now hne (intOr m.validationMs 0)
      (textOr m.createdAt (isoformat now))
    unfold countGossipedVote at hreceive
    dsimp only at hreceive
    split at hreceive
    · cases hreceive
    next task htask =>
    obtain ⟨params, hparams, hreceive⟩ := bind_eq_ok.mp hreceive
    split at hreceive
    · next hpending =>
      obtain ⟨⟨s₁, response⟩, hfinalize, hreceive⟩ := bind_eq_ok.mp hreceive
      cases hreceive
      refine (finalizeFromGossip_stake hparams (fun hquorum => ?_) hfinalize).trans hkept
      exact h.unconcerned _ (List.mem_cons_of_mem _ (List.mem_singleton_self _)) job task hjob
        hpending (hsame ▸ htask) ⟨params, .inl hparams, hquorum⟩
    · cases hreceive
      exact hkept
  · cases hreceive

/-- A harmless request keeps the columns. -/
theorem step_keeps_stake (mc : MiningConfig) (services : BlockServices σ) (v : String)
    (s : MiningState σ) (call : Instant × VoteCall) (h : Harmless mc services v s call) :
    stakeColumns (VoteCall.step mc services s call).validators v = stakeColumns s.validators v := by
  obtain ⟨now, call⟩ := call
  cases call with
  | submit validationMs r => exact submit_keeps_stake h
  | gossip m =>
    exact attempt_of (P := fun s' : MiningState σ =>
      stakeColumns s'.validators v = stakeColumns s.validators v) rfl
        fun _ hreceive => gossip_keeps_stake h hreceive

/-! ## Every run -/

/-- A run of harmless requests leaves a validator what it has at stake. -/
theorem stake_kept (mc : MiningConfig) (services : BlockServices σ) (v : String)
    (s : MiningState σ) (calls : List (Instant × VoteCall))
    (h : EachStep (VoteCall.step mc services) (Harmless mc services v) s calls) :
    ∀ s' ∈ states (VoteCall.step mc services) s calls,
      stakeColumns s'.validators v = stakeColumns s.validators v :=
  invariant_of_eachStep
    (fun s₁ call hs hcall => (step_keeps_stake mc services v s₁ call hcall).trans hs)
    calls s rfl h

/-! ## A forged submission -/

/-- Services for which every block stakes a coin on the second validator. -/
def stakingServices : BlockServices Unit :=
  { localServices with
    settle := fun validators _ draft =>
      .ok ⟨validators.modify "validator-2" (.stake 100000000 aliceAddress draft.timestamp), (),
        none⟩ }

theorem unconcerned_stakingServices (s : MiningState Unit) (call : Instant × VoteCall) :
    Unconcerned votingMining stakingServices "validator-1" s call := by
  intro s₁ _ job task _ _ _ _ params transactions settlement _ _ hsettle
  cases hsettle
  exact stakeColumns_modify_ne (by decide) _

/-- A peer passes on an approval in the first validator's name that nobody has signed. -/
def forgedGossip : VoteMessage where
  jobId := some "job-1"
  taskId := some "task-1"
  validatorId := some "validator-1"
  approved := true
  reason := some "valid"
  signature := some "forged"
  signedAt := some "2026-05-10T00:00:00+00:00"
  validationMs := some 20
  createdAt := none

/-- The forged message is refused, and then the second validator approves with its own signature,
which accepts the block. -/
def honestApproval : List (Instant × VoteCall) :=
  [(1778371200000000, .gossip forgedGossip),
    (1778371200000000, .submit 20 (localApproval "validator-2" "signed"))]

/-- The block stakes on the second validator, and the first keeps what it has. -/
theorem stake_kept_honest :
    ((honestApproval.foldl (VoteCall.step votingMining stakingServices)
        localVoting).validators.find? "validator-2").map ValidatorRow.stakeLocked =
      some 3241600000 ∧
    stakeColumns (honestApproval.foldl (VoteCall.step votingMining stakingServices)
        localVoting).validators "validator-1" =
      stakeColumns localVoting.validators "validator-1" := by
  have hforged : ∀ s, Harmless votingMining stakingServices "validator-1" s
      (1778371200000000, .gossip forgedGossip) := fun s =>
    ⟨fun _ _ _ => rfl, (fun _ _ hcall => nomatch hcall), unconcerned_stakingServices s _⟩
  have hhonest : ∀ s, Harmless votingMining stakingServices "validator-1" s
      (1778371200000000, .submit 20 (localApproval "validator-2" "signed")) := by
    intro s
    refine ⟨fun h => absurd h (by decide), fun ms r hcall h => ?_, unconcerned_stakingServices s _⟩
    cases hcall
    exact absurd h (by decide)
  refine ⟨by decide +kernel, ?_⟩
  exact stake_kept votingMining stakingServices "validator-1" localVoting honestApproval
    ⟨hforged _, hhonest _, trivial⟩ _ (foldl_mem_states _ _ _)

/-- A submission in the first validator's name that nobody has signed. -/
theorem forged_submission_slashes :
    ∃ s' ∈ states (VoteCall.step votingMining localServices) localVoting
        [(1778371200000000, .submit 20 (localApproval "validator-1" "forged"))],
      (∀ publicKey payload, votingMining.verifyPayloadSignature publicKey payload "forged" = false) ∧
        stakeColumns s'.validators "validator-1" ≠
          stakeColumns localVoting.validators "validator-1" := by
  refine ⟨_, foldl_mem_states _ _ _, fun _ _ => rfl, fun h => ?_⟩
  have hslashed : ((VoteCall.step votingMining localServices localVoting
      (1778371200000000, .submit 20 (localApproval "validator-1" "forged"))).validators.find?
        "validator-1").map ValidatorRow.slashedAmount = some 314160000 := by
    decide +kernel
  have hbefore := congrArg (Option.map StakeColumns.slashedAmount) h
  unfold stakeColumns at hbefore
  rw [Option.map_map, Option.map_map] at hbefore
  have habsurd : (some 314160000 : Option ℤ) = some 0 := hslashed.symm.trans hbefore
  exact absurd habsurd (by decide)

end Picoin
