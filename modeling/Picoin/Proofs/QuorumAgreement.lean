import Mathlib.Data.Finset.Card
import Picoin.Proofs.CertifiedImports
import Picoin.Services.Consensus

/-!
# Agreement on a finalized proposal

Two nodes that finalize a proposal for the same place should finalize the same one. Each of them
has counted as many votes as it requires; where two such sets of validators have to meet, the
validator in both of them has signed for one proposal only.

* **`VotesCounted`** — the votes of a node are of validators that chose the proposal, and a
  finalized proposal has the votes of more than half of those who can vote;
* **`same_finalized_of_runs`** — two nodes that require more than half of the votes agree;
* **`two_quorums_disagree`** — with six validators and three required votes they do not.
-/

namespace Picoin

open Json Outcome Run

variable {σ : Type}

/-! ## What the imports leave alone -/

/-- What a vote on a proposal is about, and whether the node has finalized the proposal. -/
structure Subject where
  blockHash : String
  proposalId : String
  height : ℤ
  previousHash : String
  finalized : Bool
deriving DecidableEq

def ProposalRow.subject (row : ProposalRow) (blockHash : String) : Subject :=
  ⟨blockHash, row.proposalId, row.height, row.previousHash, row.finalization.isSome⟩

def subjectsOf (proposals : Sql.Table String ProposalRow) : List Subject :=
  proposals.rows.map fun r => r.2.subject r.1

/-- The votes and the subjects of the proposals. -/
def ballot (n : ImportNode σ) : List Subject × List ConsensusVoteRow :=
  (subjectsOf n.proposals, n.votes)

def headerPayloads (headers : Sql.Table String HeaderRow) : List (String × Value) :=
  headers.rows.map fun r => (r.1, r.2.payload)

def proposalPayloads (proposals : Sql.Table String ProposalRow) :
    List (String × Subject × Value) :=
  proposals.rows.map fun r => (r.1, r.2.subject r.1, r.2.payload)

/-- The payloads of the headers, the subjects and the payloads of the proposals, and the votes. -/
def kept (n : ImportNode σ) :
    List (String × Value) × List (String × Subject × Value) × List ConsensusVoteRow :=
  (headerPayloads n.headers, proposalPayloads n.proposals, n.votes)

/-- What is kept depends on these columns only. -/
theorem kept_congr {n n' : ImportNode σ}
    (hheaders : headerPayloads n'.headers = headerPayloads n.headers)
    (hproposals : proposalPayloads n'.proposals = proposalPayloads n.proposals)
    (hvotes : n'.votes = n.votes) : kept n' = kept n := by
  unfold kept
  rw [hheaders, hproposals, hvotes]

/-- The ballot is part of what is kept. -/
theorem ballot_of_kept {n n' : ImportNode σ} (h : kept n' = kept n) : ballot n' = ballot n := by
  obtain ⟨-, h⟩ := Prod.mk.inj h
  obtain ⟨hproposals, hvotes⟩ := Prod.mk.inj h
  have hsubjects := congrArg (List.map fun s => s.2.1) hproposals
  unfold proposalPayloads at hsubjects
  rw [List.map_map, List.map_map] at hsubjects
  exact Prod.ext hsubjects hvotes

/-- A write that leaves the payloads of the headers leaves their table. -/
theorem headerPayloads_mapRows (headers : Sql.Table String HeaderRow)
    {f : String → HeaderRow → HeaderRow} (hf : ∀ k row, (f k row).payload = row.payload) :
    headerPayloads (headers.mapRows f) = headerPayloads headers := by
  unfold headerPayloads Sql.Table.mapRows
  rw [List.map_map]
  exact List.map_congr_left fun r _ => congrArg (Prod.mk r.1) (hf r.1 r.2)

/-- So does a write to one header. -/
theorem headerPayloads_modify (headers : Sql.Table String HeaderRow) (blockHash : String)
    {f : HeaderRow → HeaderRow} (hf : ∀ row, (f row).payload = row.payload) :
    headerPayloads (headers.modify blockHash f) = headerPayloads headers := by
  refine headerPayloads_mapRows headers fun k row => ?_
  split
  · exact hf row
  · rfl

/-- An update that keeps the subject and the payload of each proposal. -/
theorem proposalPayloads_mapRows (proposals : Sql.Table String ProposalRow)
    {f : String → ProposalRow → ProposalRow}
    (hf : ∀ k row, (f k row).subject k = row.subject k ∧ (f k row).payload = row.payload) :
    proposalPayloads (proposals.mapRows f) = proposalPayloads proposals := by
  unfold proposalPayloads Sql.Table.mapRows
  rw [List.map_map]
  refine List.map_congr_left fun r _ => ?_
  obtain ⟨hsubject, hpayload⟩ := hf r.1 r.2
  exact congrArg (Prod.mk r.1) (Prod.ext hsubject hpayload)

/-- A write to a proposal that leaves its payload leaves their table. -/
theorem proposalPayloads_modify (proposals : Sql.Table String ProposalRow) (blockHash : String)
    {f : ProposalRow → ProposalRow}
    (hf : ∀ k row, (f row).subject k = row.subject k ∧ (f row).payload = row.payload) :
    proposalPayloads (proposals.modify blockHash f) = proposalPayloads proposals := by
  refine proposalPayloads_mapRows proposals fun k row => ?_
  split
  · exact hf k row
  · exact ⟨rfl, rfl⟩

/-- A write to a proposal that leaves its subject leaves the subjects. -/
theorem subjectsOf_modify (proposals : Sql.Table String ProposalRow) (blockHash : String)
    {f : ProposalRow → ProposalRow} (hf : ∀ k row, (f row).subject k = row.subject k) :
    subjectsOf (proposals.modify blockHash f) = subjectsOf proposals := by
  unfold subjectsOf Sql.Table.modify Sql.Table.mapRows
  rw [List.map_map]
  refine List.map_congr_left fun r _ => ?_
  dsimp only [Function.comp_apply]
  split
  · exact hf r.1 r.2
  · rfl

/-- An update that keeps the ids of the proposals. -/
theorem ids_subjectsOf_modify (proposals : Sql.Table String ProposalRow) (blockHash : String)
    {f : ProposalRow → ProposalRow} (hf : ∀ row, (f row).proposalId = row.proposalId) :
    (subjectsOf (proposals.modify blockHash f)).map Subject.proposalId =
      (subjectsOf proposals).map Subject.proposalId := by
  unfold subjectsOf Sql.Table.modify Sql.Table.mapRows
  rw [List.map_map, List.map_map, List.map_map]
  refine List.map_congr_left fun r _ => ?_
  simp only [Function.comp_apply, ProposalRow.subject]
  split
  · exact hf r.2
  · rfl

/-- The promotion of ready proposals keeps it. -/
theorem kept_promote (cfg : Config) (now : String) (n : ImportNode σ) :
    kept (promoteReadyProposals cfg now n) = kept n := by
  refine kept_congr rfl (proposalPayloads_mapRows n.proposals fun _ row => ?_) rfl
  split <;> exact ⟨rfl, rfl⟩

/-- It leaves the ballot. -/
theorem ballot_promote (cfg : Config) (now : String) (n : ImportNode σ) :
    ballot (promoteReadyProposals cfg now n) = ballot n := ballot_of_kept (kept_promote cfg now n)

/-- The mark of imported proposals keeps it. -/
theorem kept_markExisting (now : String) (n : ImportNode σ) :
    kept (markExistingProposalsImported now n) = kept n := by
  refine kept_congr rfl (proposalPayloads_mapRows n.proposals fun _ row => ?_) rfl
  split <;> exact ⟨rfl, rfl⟩

/-- The quarantine of old headers keeps it. -/
theorem kept_quarantine (n : ImportNode σ) : kept (quarantinePreSnapshotHeaders n) = kept n := by
  unfold quarantinePreSnapshotHeaders
  split
  · refine kept_congr (headerPayloads_mapRows n.headers fun _ row => ?_) rfl rfl
    split <;> rfl
  · rfl

/-- An import writes neither headers nor proposals nor votes. -/
theorem kept_import {ic : ImportConfig σ} {n n' : ImportNode σ} {block : Value}
    {sourceId : String} {imported : Bool}
    (h : importFinalizedBlock ic n block sourceId = .ok (n', imported)) : kept n' = kept n := by
  obtain ⟨_, -, h⟩ := bind_eq_ok.mp h
  obtain ⟨place, -, h⟩ := bind_eq_ok.mp h
  cases place with
  | none =>
    cases h
    rfl
  | some place =>
    obtain ⟨resultHash, -, h⟩ := bind_eq_ok.mp h
    dsimp only at h
    split at h
    · cases h
    obtain ⟨services, -, h⟩ := bind_eq_ok.mp h
    obtain ⟨taskId, -, h⟩ := bind_eq_ok.mp h
    obtain ⟨_, -, h⟩ := bind_eq_ok.mp h
    split at h
    · cases h
    obtain ⟨settled, -, h⟩ := bind_eq_ok.mp h
    obtain ⟨n₁, hstore, h⟩ := bind_eq_ok.mp h
    cases h
    obtain ⟨-, hheaders, hproposals, hvotes, -⟩ := storeFinalityCertificate_eq_ok hstore
    exact kept_congr (congrArg headerPayloads hheaders) (congrArg proposalPayloads hproposals)
      hvotes

/-- The replay of a proposal keeps it. -/
theorem kept_replayProposal (ic : ImportConfig σ) (now : String) (n : ImportNode σ)
    (r : String × ProposalRow) : kept (replayProposal ic now n r) = kept n := by
  unfold replayProposal
  split
  · exact kept_congr rfl (proposalPayloads_modify n.proposals r.1 fun _ _ => ⟨rfl, rfl⟩) rfl
  · next m himport =>
    rw [← kept_import himport, ← kept_promote ic.toConfig now m]
    refine kept_congr rfl (proposalPayloads_modify _ r.1 fun _ row => ⟨?_, rfl⟩) rfl
    exact congrArg (Subject.mk _ _ _ _) (Option.isSome_map ..)
  · next m himport => exact kept_import himport

/-- So does that of a header. -/
theorem kept_replayHeader (ic : ImportConfig σ) (now : String) (n : ImportNode σ)
    (r : String × HeaderRow) : kept (replayHeader ic now n r) = kept n := by
  unfold replayHeader
  dsimp only
  split
  · exact kept_congr (headerPayloads_modify n.headers r.1 fun _ => rfl) rfl rfl
  · next m himport =>
    rw [← kept_import himport, ← kept_promote ic.toConfig now m]
    refine kept_congr (headerPayloads_modify _ r.1 fun _ => rfl)
      (proposalPayloads_modify _ r.1 fun _ row => ?_) rfl
    split <;> exact ⟨rfl, rfl⟩
  · next m himport =>
    rw [← kept_import himport]
    exact kept_congr (headerPayloads_modify m.headers r.1 fun _ => rfl) rfl rfl

/-- What every step of a loop leaves alone, the loop does. -/
theorem kept_foldl {ι : Type} {f : ImportNode σ → ι → ImportNode σ}
    (hf : ∀ n x, kept (f n x) = kept n) (xs : List ι) (n : ImportNode σ) :
    kept (xs.foldl f n) = kept n :=
  List.foldlRecOn xs f (motive := fun m => kept m = kept n) rfl
    fun m hm x _ => (hf m x).trans hm

/-- So does a whole replay. -/
theorem kept_replay (ic : ImportConfig σ) (now : String) (limit : ℤ) (n : ImportNode σ) :
    kept (replayFinalizedBlocks ic now limit n) = kept n := by
  unfold replayFinalizedBlocks
  dsimp only
  rw [kept_foldl (kept_replayHeader ic now), kept_foldl (kept_replayProposal ic now),
    kept_quarantine, kept_markExisting]

/-- The removal of the local tip keeps it. -/
theorem kept_removeLocalTip {ic : ImportConfig σ} {now blockHash : String} {height : ℤ}
    {n n' : ImportNode σ} (h : removeLocalTip ic now n height blockHash = .ok n') :
    kept n' = kept n := by
  unfold removeLocalTip at h
  split at h
  · cases h
  obtain ⟨services, -, h⟩ := bind_eq_ok.mp h
  cases h
  exact kept_congr rfl (proposalPayloads_modify n.proposals blockHash fun _ _ => ⟨rfl, rfl⟩) rfl

/-- The import of a block of another branch keeps it. -/
theorem kept_importBranchBlock {ic : ImportConfig σ} {now : String} {n n' : ImportNode σ}
    {queued : QueuedBlock} (h : importBranchBlock ic now n queued = .ok n') :
    kept n' = kept n := by
  obtain ⟨⟨m, imported⟩, himport, h⟩ := bind_eq_ok.mp h
  obtain ⟨blockHash, -, h⟩ := bind_eq_ok.mp h
  cases h
  rw [← kept_import himport]
  refine kept_congr (headerPayloads_modify m.headers blockHash fun _ => rfl)
    (proposalPayloads_modify m.proposals blockHash fun _ row => ?_) rfl
  split <;> exact ⟨rfl, rfl⟩

/-- A reorganisation keeps it. -/
theorem kept_reorg {ic : ImportConfig σ} {now : String} {limit maxDepth : ℤ}
    {n n' : ImportNode σ} (h : applyOrphanReorg ic now limit maxDepth n = .ok n') :
    kept n' = kept n := by
  unfold applyOrphanReorg at h
  split at h
  · cases h
    rfl
  split at h
  · cases h
    rfl
  unfold applySelectedReorg at h
  split at h
  · cases h
  split at h
  · obtain ⟨n₁, hremove, h⟩ := bind_eq_ok.mp h
    obtain ⟨n₂, hparent, h⟩ := bind_eq_ok.mp h
    obtain ⟨n₃, hchild, h⟩ := bind_eq_ok.mp h
    obtain ⟨_, -, h⟩ := bind_eq_ok.mp h
    obtain ⟨_, -, h⟩ := bind_eq_ok.mp h
    split at h
    · cases h
    · cases h
      rw [kept_promote, kept_importBranchBlock hchild, kept_importBranchBlock hparent,
        kept_removeLocalTip hremove]
  · cases h

/-- A header is stored under its hash, whatever else it says. -/
theorem receiveBlockHeader_eq_ok {ic : ImportConfig σ} {now : String} {n n' : ImportNode σ}
    {block : Value} (h : receiveBlockHeader ic now n block = .ok n') :
    ∃ blockHash row, headerHash block "block_hash" = .ok blockHash ∧ row.payload = block ∧
      n' = { n with headers := n.headers.upsert blockHash row } := by
  unfold receiveBlockHeader at h
  dsimp only at h
  split at h
  · cases h
  obtain ⟨height, -, h⟩ := bind_eq_ok.mp h
  split at h
  · cases h
  obtain ⟨blockHash, hhash, h⟩ := bind_eq_ok.mp h
  obtain ⟨previousHash, -, h⟩ := bind_eq_ok.mp h
  split at h
  · cases h
    exact ⟨blockHash, _, hhash, rfl, rfl⟩
  · obtain ⟨status, -, h⟩ := bind_eq_ok.mp h
    cases h
    exact ⟨blockHash, _, hhash, rfl, rfl⟩

/-- The routes by which blocks reach the chain leave the ballot alone. -/
theorem ballot_importCall (ic : ImportConfig σ) (n : ImportNode σ) (call : String × ImportCall) :
    ballot (ImportCall.step ic n call) = ballot n := by
  obtain ⟨now, call⟩ := call
  unfold ImportCall.step attempt
  cases call with
  | receive block =>
    dsimp only
    split
    · next n' h =>
      obtain ⟨_, _, -, -, rfl⟩ := receiveBlockHeader_eq_ok h
      rfl
    · rfl
  | replay limit => exact ballot_of_kept (kept_replay ic now limit n)
  | reorg limit maxDepth =>
    dsimp only
    split
    · next n' h => exact ballot_of_kept (kept_reorg h)
    · rfl

/-- Imports leave the ballot. -/
theorem ballot_importCalls (ic : ImportConfig σ) (calls : List (String × ImportCall))
    (n : ImportNode σ) : ballot (calls.foldl (ImportCall.step ic) n) = ballot n :=
  List.foldlRecOn calls (ImportCall.step ic) (motive := fun m => ballot m = ballot n) rfl
    fun m hm call _ => (ballot_importCall ic m call).trans hm

/-! ## The invariant -/

/-- The proposals are known by their ids, every vote is on one of them and the only one of its
validator there, and the approvals of a proposal are its approving votes. -/
structure WellKept (n : VotingNode σ) : Prop where
  ids : ((subjectsOf n.proposals).map Subject.proposalId).Nodup
  known : ∀ v ∈ n.votes, ∃ s ∈ subjectsOf n.proposals, s.proposalId = v.proposalId
  once : (n.votes.map fun v => (v.proposalId, v.validatorId)).Nodup
  tallied : ∀ id tally, n.tallies.find? id = some tally →
    tally.approvals = countVotes n.votes id true

section

-- the proposal for which each validator signs votes, if any, and those who can vote
variable (choice : String → Option String) (voters : Finset String)
variable (height : ℤ) (previousHash : String)

/-- The proposal competes for the place. -/
def Subject.At (s : Subject) : Prop := s.height = height ∧ s.previousHash = previousHash

/-- The votes on a proposal for the place are of validators that chose it, and a finalized one has
the votes of more than half of those who can vote. -/
structure VotesCounted (n : VotingNode σ) : Prop extends WellKept n where
  chosen : ∀ s ∈ subjectsOf n.proposals, s.At height previousHash → ∀ v ∈ n.votes,
    v.proposalId = s.proposalId → v.validatorId ∈ voters ∧ choice v.validatorId = some v.proposalId
  quorum : ∀ s ∈ subjectsOf n.proposals, s.At height previousHash → s.finalized = true →
    voters.card < 2 * countVotes n.votes s.proposalId true

/-- A validly signed vote on a proposal for the place is of a validator that chose it. -/
def VotesForChoice (vc : VotingConfig σ) (n : VotingNode σ) (call : String × ConsensusCall σ) :
    Prop :=
  match call.2 with
  | .vote request => ∀ r ∈ n.proposals.rows, r.2.proposalId = request.proposalId →
    (r.2.subject r.1).At height previousHash → ∀ key,
      n.validatorKeys.find? request.validatorId = some key → vc.verifyPayloadSignature key (consensusVotePayload (request.vote r.1) r.2.height)
        request.signature = true → choice request.validatorId = some request.proposalId
  | _ => True

/-- The validators whose votes the node counts are voters, and the node requires the votes of more
than half of the voters. -/
def MajorityRequired (vc : VotingConfig σ) (n : VotingNode σ) : Prop :=
  (∀ id row, (vc.validators n.services).find? id = some row → row.refusal vc.toConfig = none →
    id ∈ voters) ∧ voters.card < 2 * requiredApprovals vc n.toImportNode

end

variable {choice : String → Option String} {voters : Finset String} {height : ℤ}
  {previousHash : String}

/-! ## One call -/

/-- The invariant looks at the ballot and at the tallies only. -/
theorem VotesCounted.congr {n n' : VotingNode σ}
    (h : VotesCounted choice voters height previousHash n)
    (hballot : ballot n'.toImportNode = ballot n.toImportNode) (htallies : n'.tallies = n.tallies) :
    VotesCounted choice voters height previousHash n' := by
  obtain ⟨hsubjects, hvotes⟩ := Prod.mk.inj hballot
  obtain ⟨⟨hids, hknown, honce, htallied⟩, hchosen, hquorum⟩ := h
  refine ⟨⟨?_, ?_, ?_, ?_⟩, ?_, ?_⟩
  · rwa [hsubjects]
  · rwa [hsubjects, hvotes]
  · rwa [hvotes]
  · rwa [htallies, hvotes]
  · rwa [hsubjects, hvotes]
  · rwa [hsubjects, hvotes]

/-- A proposal that is found is a row of the table with its id. -/
theorem proposalById_eq_some {n : VotingNode σ} {proposalId : String} {r : String × ProposalRow}
    (h : n.proposalById proposalId = some r) :
    r ∈ n.proposals.rows ∧ r.2.proposalId = proposalId := by
  have hfind : n.proposals.rows.find? (fun r => decide (r.2.proposalId = proposalId)) = some r := h
  have hid := List.find?_some hfind
  exact ⟨List.mem_of_find?_eq_some hfind, of_decide_eq_true hid⟩

/-- Where none is found, no subject has the id. -/
theorem proposalById_eq_none {n : VotingNode σ} {proposalId : String}
    (h : n.proposalById proposalId = none) :
    ∀ s ∈ subjectsOf n.proposals, s.proposalId ≠ proposalId := by
  intro s hs
  obtain ⟨r, hr, rfl⟩ := List.mem_map.mp hs
  exact of_decide_eq_false (Bool.eq_false_iff.mpr (List.find?_eq_none.mp h r hr))

/-- Two proposals with the same id are the same. -/
theorem WellKept.subject_unique {n : VotingNode σ} (h : WellKept n) {s s' : Subject}
    (hs : s ∈ subjectsOf n.proposals) (hs' : s' ∈ subjectsOf n.proposals)
    (hid : s.proposalId = s'.proposalId) : s = s' :=
  List.inj_on_of_nodup_map h.ids hs hs' hid

/-- A proposal that is rewritten keeps what it is about. -/
theorem VotesCounted.rewrite {n : VotingNode σ}
    (h : VotesCounted choice voters height previousHash n) {rewrite : ProposalRow → ProposalRow}
    (hrewrite : ∀ k row, (rewrite row).subject k = row.subject k)
    (storedHash proposalId proposerNodeId : String) :
    VotesCounted choice voters height previousHash
      { n with
        proposals := n.proposals.modify storedHash rewrite
        tallies := n.tallies.modify proposalId fun tally => { tally with proposerNodeId } } := by
  have hsubjects := subjectsOf_modify n.proposals storedHash hrewrite
  have htallied : ∀ id tally, (n.tallies.modify proposalId fun tally =>
      { tally with proposerNodeId }).find? id = some tally →
        tally.approvals = countVotes n.votes id true := by
    intro id tally htally
    rw [Sql.Table.find?_modify] at htally
    split at htally
    · next heq =>
      obtain ⟨old, hold, rfl⟩ := Option.map_eq_some_iff.mp htally
      rw [heq]
      exact h.tallied proposalId old hold
    · exact h.tallied id tally htally
  refine ⟨⟨?_, ?_, h.once, htallied⟩, ?_, ?_⟩
  · rw [hsubjects]
    exact h.ids
  · rw [hsubjects]
    exact h.known
  · rw [hsubjects]
    exact h.chosen
  · rw [hsubjects]
    exact h.quorum

/-- A new proposal has no votes and is not finalized. -/
theorem VotesCounted.insert {n : VotingNode σ}
    (h : VotesCounted choice voters height previousHash n)
    {proposalId blockHash : String} (proposerNodeId : String) {row : ProposalRow}
    (hnone : n.proposalById proposalId = none) (hfree : n.proposals.find? blockHash = none)
    (hid : row.proposalId = proposalId) (hfinal : row.finalization = none) :
    VotesCounted choice voters height previousHash
      { n with
        proposals := n.proposals.upsert blockHash row
        tallies := n.tallies.upsert proposalId ⟨proposerNodeId, 0, 0⟩ } := by
  have hsubjects : subjectsOf (n.proposals.upsert blockHash row) =
      subjectsOf n.proposals ++ [row.subject blockHash] := by
    change (Sql.Table.upsertRows blockHash row n.proposals.rows).map
      (fun r => r.2.subject r.1) = _
    rw [Sql.Table.upsertRows_of_none hfree, List.map_append, List.map_singleton]
    rfl
  have hfresh := proposalById_eq_none hnone
  -- nobody has voted on a proposal that the node does not have
  have hunvoted : ∀ v ∈ n.votes, v.proposalId ≠ proposalId := by
    intro v hv heq
    obtain ⟨s, hs, hsid⟩ := h.known v hv
    exact hfresh s hs (hsid.trans heq)
  have hzero : countVotes n.votes proposalId true = 0 := by
    refine List.length_eq_zero_iff.mpr (List.filter_eq_nil_iff.mpr fun v hv => ?_)
    simp [hunvoted v hv]
  refine ⟨⟨?_, ?_, h.once, ?_⟩, ?_, ?_⟩
  · rw [hsubjects, List.map_append, List.map_singleton]
    refine List.Nodup.append h.ids (List.nodup_singleton _) ?_
    intro id hmem hnew
    obtain ⟨s, hs, hsid⟩ := List.mem_map.mp hmem
    rw [List.mem_singleton.mp hnew] at hsid
    exact hfresh s hs (hsid.trans hid)
  · intro v hv
    obtain ⟨s, hs, hsid⟩ := h.known v hv
    rw [hsubjects]
    exact ⟨s, List.mem_append_left _ hs, hsid⟩
  · intro id tally htally
    rw [Sql.Table.find?_upsert] at htally
    split at htally
    · next heq =>
      cases htally
      rw [heq]
      exact hzero.symm
    · exact h.tallied id tally htally
  · intro s hs hat v hv hvid
    rw [hsubjects] at hs
    rcases List.mem_append.mp hs with hold | hnew
    · exact h.chosen s hold hat v hv hvid
    · rw [List.mem_singleton.mp hnew] at hvid
      exact absurd (hvid.trans hid) (hunvoted v hv)
  · intro s hs hat hfinalized
    rw [hsubjects] at hs
    rcases List.mem_append.mp hs with hold | hnew
    · exact h.quorum s hold hat hfinalized
    · rw [List.mem_singleton.mp hnew] at hfinalized
      unfold ProposalRow.subject at hfinalized
      rw [hfinal] at hfinalized
      cases hfinalized

/-- A proposal is recorded. -/
theorem VotesCounted.record {n n' : VotingNode σ}
    (h : VotesCounted choice voters height previousHash n)
    {proposalId blockHash proposerNodeId : String} {row : ProposalRow}
    (hrecord : recordProposal n proposalId blockHash proposerNodeId row = .ok n')
    (hid : row.proposalId = proposalId) (hfinal : row.finalization = none) :
    VotesCounted choice voters height previousHash n' := by
  unfold recordProposal at hrecord
  split at hrecord
  · next storedHash stored hstored =>
    cases hrecord
    refine h.rewrite ?_ storedHash proposalId proposerNodeId
    exact fun _ _ => rfl
  · next hnone =>
    split at hrecord
    · cases hrecord
    next proposals hinsert =>
    cases hrecord
    obtain ⟨hfree, rfl⟩ := Sql.Table.insert?_eq_some_iff.mp hinsert
    exact h.insert proposerNodeId hnone hfree hid hfinal

/-- A proposal is finalized under its block hash, and no other proposal has that hash. -/
theorem subject_of_finalized {n : VotingNode σ} {proposalId blockHash now : String}
    {proposal : ProposalRow} {imported : Bool} {proposals : Sql.Table String ProposalRow}
    (hproposal : n.proposalById proposalId = some (blockHash, proposal))
    (hsubjects : subjectsOf proposals = subjectsOf n.proposals) {s' : Subject}
    (hs' : s' ∈ subjectsOf (proposals.modify blockHash fun row =>
      { row with
        status := if imported then .imported else .finalized
        finalization := some imported
        updatedAt := now })) :
    s' ∈ subjectsOf n.proposals ∨ ∃ s ∈ subjectsOf n.proposals, s.proposalId = proposalId ∧
      s' = { s with finalized := true } := by
  obtain ⟨hrow, hid⟩ := proposalById_eq_some hproposal
  obtain ⟨r', hr', rfl⟩ := List.mem_map.mp hs'
  obtain ⟨r, hr, rfl⟩ := List.mem_map.mp hr'
  have hs : r.2.subject r.1 ∈ subjectsOf n.proposals := by
    rw [← hsubjects]
    exact List.mem_map_of_mem hr
  by_cases hkey : r.1 = blockHash
  · refine .inr ⟨_, hs, ?_, ?_⟩
    · obtain ⟨r₀, hr₀, hr₀eq⟩ := List.mem_map.mp hs
      have hkeys : r₀.1 = (blockHash, proposal).1 := (congrArg Subject.blockHash hr₀eq).trans hkey
      have hsame : r₀ = (blockHash, proposal) :=
        List.inj_on_of_nodup_map n.proposals.nodup hr₀ hrow hkeys
      rw [← hr₀eq, hsame]
      exact hid
    · dsimp only
      rw [if_pos hkey]
      rfl
  · refine .inl ?_
    dsimp only
    rw [if_neg hkey]
    exact hs

/-- A proposal that has its approvals is finalized. -/
theorem VotesCounted.finalize {vc : VotingConfig σ} {now proposalId : String} {n n' : VotingNode σ}
    (h : VotesCounted choice voters height previousHash n)
    (hmajority : voters.card < 2 * requiredApprovals vc n.toImportNode)
    (hfinalize : finalizeProposal vc now n proposalId = .ok n') :
    VotesCounted choice voters height previousHash n' := by
  unfold finalizeProposal at hfinalize
  split at hfinalize
  · cases hfinalize
  next blockHash proposal hproposal =>
  split at hfinalize
  · cases hfinalize
    exact h
  split at hfinalize
  · cases hfinalize
  next hreached =>
  dsimp only at hfinalize
  split at hfinalize
  · cases hfinalize
  obtain ⟨⟨m, imported⟩, himport, hfinalize⟩ := bind_eq_ok.mp hfinalize
  cases hfinalize
  -- the tally counts the stored votes, and without one the quorum would be empty
  have hquorum : voters.card < 2 * countVotes n.votes proposalId true := by
    unfold VotingNode.tally at hreached
    cases htally : n.tallies.find? proposalId with
    | none =>
      rw [htally] at hreached
      exact absurd hmajority (by simp only [Option.getD_none] at hreached; omega)
    | some tally =>
      rw [htally, Option.getD_some, h.tallied proposalId tally htally] at hreached
      omega
  -- neither the import nor the promotion touches a subject or a vote
  have hballot : ballot (if imported then promoteReadyProposals vc.toConfig now m else m) =
      ballot n.toImportNode := by
    rw [← ballot_of_kept (kept_import himport)]
    split
    · exact ballot_promote _ _ _
    · rfl
  revert hballot
  generalize (if imported then promoteReadyProposals vc.toConfig now m else m) = m'
  intro hballot
  obtain ⟨hsubjects, hvotes⟩ := Prod.mk.inj hballot
  have hids : (subjectsOf (m'.proposals.modify blockHash fun row =>
      { row with
        status := if imported then .imported else .finalized
        finalization := some imported
        updatedAt := now })).map Subject.proposalId =
          (subjectsOf n.proposals).map Subject.proposalId := by
    rw [← hsubjects]
    exact ids_subjectsOf_modify _ _ fun _ => rfl
  -- only the finalization of the proposal is new, and for it there is the quorum
  refine ⟨⟨?_, ?_, ?_, ?_⟩, ?_, ?_⟩
  · rw [hids]
    exact h.ids
  · intro v hv
    rw [hvotes] at hv
    obtain ⟨s, hs, hsid⟩ := h.known v hv
    have hmem := List.mem_map_of_mem (f := Subject.proposalId) hs
    rw [← hids] at hmem
    obtain ⟨s', hs', hs'id⟩ := List.mem_map.mp hmem
    exact ⟨s', hs', hs'id.trans hsid⟩
  · rw [hvotes]
    exact h.once
  · rw [hvotes]
    exact h.tallied
  · intro s' hs' hat v hv hvid
    rw [hvotes] at hv
    rcases subject_of_finalized hproposal hsubjects hs' with hs | ⟨s, hs, hsid, rfl⟩
    · exact h.chosen s' hs hat v hv hvid
    · exact h.chosen s hs hat v hv hvid
  · intro s' hs' hat hfinalized
    rw [hvotes]
    rcases subject_of_finalized hproposal hsubjects hs' with hs | ⟨s, hs, hsid, rfl⟩
    · exact h.quorum s' hs hat hfinalized
    · dsimp only
      rw [hsid]
      exact hquorum

/-! ## Votes -/

/-- A vote that passes is on an open proposal, of a validator that may vote and has not voted on it,
and is validly signed. -/
theorem checkVote_eq_ok {vc : VotingConfig σ} {n : VotingNode σ} {request : VoteRequest}
    {r : String × ProposalRow} (h : checkVote vc n request = .ok r) :
    n.proposalById request.proposalId = some r ∧
      (∃ row, (vc.validators n.services).find? request.validatorId = some row ∧
        row.refusal vc.toConfig = none) ∧
      (∀ v ∈ n.votes, v.proposalId = request.proposalId → v.validatorId ≠ request.validatorId) ∧
      ∃ key, n.validatorKeys.find? request.validatorId = some key ∧
        vc.verifyPayloadSignature key (consensusVotePayload (request.vote r.1) r.2.height)
          request.signature = true := by
  unfold checkVote at h
  split at h
  · cases h
  next blockHash proposal hproposal =>
  dsimp only at h
  split at h
  · cases h
  split at h
  · next validator publicKey hvalidator hkey =>
    split at h
    · cases h
    next hrefusal =>
    split at h
    · cases h
    next hvoted =>
    split at h
    · cases h
    split at h
    · cases h
    next hsigned =>
    cases h
    refine ⟨hproposal, ⟨validator, hvalidator, hrefusal⟩, fun v hv hvid hvoter => ?_, publicKey,
      hkey, ?_⟩
    · -- an earlier vote of the validator would have been found
      refine hvoted (List.any_eq_true.mpr ⟨v, hv, ?_⟩)
      rw [Bool.and_eq_true]
      exact ⟨decide_eq_true hvid, decide_eq_true hvoter⟩
    · rwa [Bool.not_eq_true', Bool.not_eq_false] at hsigned
  · cases h

/-- A vote that passes is recorded. -/
theorem VotesCounted.recordVote {vc : VotingConfig σ} {n : VotingNode σ} {request : VoteRequest}
    {r : String × ProposalRow} {now : String} (h : VotesCounted choice voters height previousHash n)
    (hcall : VotesForChoice choice height previousHash vc n (now, .vote request))
    (hmajority : MajorityRequired voters vc n) (hcheck : checkVote vc n request = .ok r) :
    VotesCounted choice voters height previousHash (recordConsensusVote n (request.vote r.1)) := by
  obtain ⟨hproposal, ⟨row, hrow, hmay⟩, hnew, key, hkey, hsigned⟩ := checkVote_eq_ok hcheck
  obtain ⟨hmem, hid⟩ := proposalById_eq_some hproposal
  have hsubject : r.2.subject r.1 ∈ subjectsOf n.proposals := List.mem_map_of_mem hmem
  refine ⟨⟨h.ids, ?_, ?_, ?_⟩, ?_, ?_⟩
  · intro v hv
    rcases List.mem_append.mp hv with hold | hlast
    · exact h.known v hold
    · rw [List.mem_singleton.mp hlast]
      exact ⟨_, hsubject, hid⟩
  · change ((n.votes ++ [request.vote r.1]).map _).Nodup
    rw [List.map_append, List.map_singleton]
    refine List.Nodup.append h.once (List.nodup_singleton _) fun pair hold hlast => ?_
    obtain ⟨v, hv, rfl⟩ := List.mem_map.mp hold
    obtain ⟨hvid, hvoter⟩ := Prod.mk.inj (List.mem_singleton.mp hlast)
    exact hnew v hv hvid hvoter
  · intro id tally htally
    change (n.tallies.modify request.proposalId _).find? id = some tally at htally
    rw [Sql.Table.find?_modify] at htally
    split at htally
    · next heq =>
      obtain ⟨old, hold, rfl⟩ := Option.map_eq_some_iff.mp htally
      rw [heq]
      rfl
    · next hne =>
      rw [h.tallied id tally htally]
      change _ = countVotes (n.votes ++ [request.vote r.1]) id true
      unfold countVotes
      rw [List.filter_append, List.length_append]
      have hother : ([request.vote r.1].filter fun v =>
          decide (v.proposalId = id) && decide (v.approved = true)) = [] :=
        List.filter_eq_nil_iff.mpr fun v hv hcounted => by
          rw [List.mem_singleton.mp hv, Bool.and_eq_true] at hcounted
          exact hne (of_decide_eq_true hcounted.1).symm
      rw [hother]
      rfl
  · intro s hs hat v hv hvid
    rcases List.mem_append.mp hv with hold | hlast
    · exact h.chosen s hs hat v hold hvid
    -- the new vote is for the proposal that its voter has chosen
    · rw [List.mem_singleton.mp hlast] at hvid ⊢
      have hsame : s = r.2.subject r.1 := h.subject_unique hs hsubject (hvid.symm.trans hid.symm)
      rw [hsame] at hat
      exact ⟨hmajority.1 _ row hrow hmay, hcall r hmem hid hat key hkey hsigned⟩
  · intro s hs hat hfinalized
    refine lt_of_lt_of_le (h.quorum s hs hat hfinalized) (Nat.mul_le_mul_left 2 ?_)
    change countVotes n.votes s.proposalId true ≤
      countVotes (n.votes ++ [request.vote r.1]) s.proposalId true
    unfold countVotes
    rw [List.filter_append, List.length_append]
    exact Nat.le_add_right _ _

/-- Recording a vote leaves the validators as they are. -/
theorem requiredApprovals_recordConsensusVote (vc : VotingConfig σ) (n : VotingNode σ)
    (vote : ConsensusVoteRow) :
    requiredApprovals vc (recordConsensusVote n vote).toImportNode =
      requiredApprovals vc n.toImportNode := rfl

/-- A vote is recorded, and its proposal is finalized or rejected. -/
theorem VotesCounted.vote {vc : VotingConfig σ} {now : String} {n n' : VotingNode σ}
    {request : VoteRequest} (h : VotesCounted choice voters height previousHash n)
    (hcall : VotesForChoice choice height previousHash vc n (now, .vote request))
    (hmajority : MajorityRequired voters vc n)
    (hvote : voteOnProposal vc now n request = .ok n') :
    VotesCounted choice voters height previousHash n' := by
  obtain ⟨⟨blockHash, proposal⟩, hcheck, hvote⟩ := bind_eq_ok.mp hvote
  have hrecorded := h.recordVote hcall hmajority hcheck
  dsimp only at hvote
  split at hvote
  · exact hrecorded.finalize
      ((requiredApprovals_recordConsensusVote vc n _).symm ▸ hmajority.2) hvote
  split at hvote
  · cases hvote
    exact hrecorded.congr (Prod.ext (subjectsOf_modify _ blockHash fun _ _ => rfl) rfl) rfl
  · cases hvote
    exact hrecorded

/-- A block is proposed. -/
theorem VotesCounted.propose {vc : VotingConfig σ} {now : String} {n n' : VotingNode σ}
    {block : Value} {proposerNodeId : String} {sync : List (String × ImportCall)}
    (h : VotesCounted choice voters height previousHash n)
    (hpropose : proposeBlock vc now n block proposerNodeId sync = .ok n') :
    VotesCounted choice voters height previousHash n' := by
  obtain ⟨normalized, -, hpropose⟩ := bind_eq_ok.mp hpropose
  obtain ⟨_, -, hpropose⟩ := bind_eq_ok.mp hpropose
  obtain ⟨blockHash, -, hpropose⟩ := bind_eq_ok.mp hpropose
  obtain ⟨proposedHeight, -, hpropose⟩ := bind_eq_ok.mp hpropose
  obtain ⟨proposedParent, -, hpropose⟩ := bind_eq_ok.mp hpropose
  obtain ⟨status, -, hpropose⟩ := bind_eq_ok.mp hpropose
  obtain ⟨n₁, hrecord, hpropose⟩ := bind_eq_ok.mp hpropose
  have hrecorded := h.record hrecord rfl rfl
  split at hpropose
  · cases hpropose
    refine hrecorded.congr ?_ rfl
    rw [ballot_promote]
    exact ballot_importCalls vc.toImportConfig sync n₁.toImportNode
  · cases hpropose
    exact hrecorded

/-- One call. -/
theorem VotesCounted.step {vc : VotingConfig σ} {n : VotingNode σ} {call : String × ConsensusCall σ}
    (h : VotesCounted choice voters height previousHash n)
    (hcall : VotesForChoice choice height previousHash vc n call)
    (hmajority : MajorityRequired voters vc n) :
    VotesCounted choice voters height previousHash (ConsensusCall.step vc n call) := by
  obtain ⟨now, call⟩ := call
  cases call with
  | propose block proposerNodeId sync => exact attempt_of h fun _ hpropose => h.propose hpropose
  | vote request => exact attempt_of h fun _ hvote => h.vote hcall hmajority hvote
  | finalize proposalId =>
    exact attempt_of h fun _ hfinalize => h.finalize hmajority.2 hfinalize
  | receive call => exact h.congr (ballot_importCall vc.toImportConfig _ (now, call)) rfl
  | services validatorKeys tables => exact h.congr rfl rfl

/-! ## Agreement -/

/-- A node on which no block has been proposed for the place. -/
structure Unproposed (height : ℤ) (previousHash : String) (n : VotingNode σ) : Prop
    extends WellKept n where
  absent : ∀ s ∈ subjectsOf n.proposals, ¬s.At height previousHash

/-- Where nothing is proposed, no vote is to be counted. -/
theorem Unproposed.counted {n : VotingNode σ} (h : Unproposed height previousHash n) :
    VotesCounted choice voters height previousHash n :=
  ⟨h.toWellKept, fun s hs hat => absurd hat (h.absent s hs),
    fun s hs hat => absurd hat (h.absent s hs)⟩

/-- The node has finalized the proposal, which was for the place. -/
def FinalizedAt (height : ℤ) (previousHash : String) (n : VotingNode σ) (proposalId : String) :
    Prop :=
  ∃ s ∈ subjectsOf n.proposals, s.At height previousHash ∧ s.finalized = true ∧
    s.proposalId = proposalId

/-- The validators that have approved the proposal. -/
def approvers (n : VotingNode σ) (proposalId : String) : Finset String :=
  ((n.votes.filter fun v => v.proposalId = proposalId && v.approved = true).map
    ConsensusVoteRow.validatorId).toFinset

/-- An approver has cast a vote for the proposal. -/
theorem mem_approvers {n : VotingNode σ} {proposalId validatorId : String}
    (h : validatorId ∈ approvers n proposalId) :
    ∃ v ∈ n.votes, v.proposalId = proposalId ∧ v.validatorId = validatorId := by
  obtain ⟨v, hv, rfl⟩ := List.mem_map.mp (List.mem_toFinset.mp h)
  obtain ⟨hmem, hcounted⟩ := List.mem_filter.mp hv
  rw [Bool.and_eq_true] at hcounted
  exact ⟨v, hmem, of_decide_eq_true hcounted.1, rfl⟩

/-- Each vote is of another validator. -/
theorem WellKept.card_approvers {n : VotingNode σ} (h : WellKept n) (proposalId : String) :
    (approvers n proposalId).card = countVotes n.votes proposalId true := by
  unfold approvers countVotes
  rw [List.toFinset_card_of_nodup, List.length_map]
  refine (List.nodup_map_iff_inj_on (h.once.of_map _ |>.filter _)).mpr fun v hv w hw hvoter => ?_
  obtain ⟨hv, hvid⟩ := List.mem_filter.mp hv
  obtain ⟨hw, hwid⟩ := List.mem_filter.mp hw
  rw [Bool.and_eq_true] at hvid hwid
  refine List.inj_on_of_nodup_map h.once hv hw (Prod.ext ?_ hvoter)
  exact (of_decide_eq_true hvid.1).trans (of_decide_eq_true hwid.1).symm

/-- What a finalized proposal has: the approvals of more than half of those who can vote, each of a
validator that chose it. -/
theorem VotesCounted.majority {n : VotingNode σ}
    (h : VotesCounted choice voters height previousHash n)
    {proposalId : String} (hfinalized : FinalizedAt height previousHash n proposalId) :
    approvers n proposalId ⊆ voters ∧ voters.card < 2 * (approvers n proposalId).card ∧
      ∀ id ∈ approvers n proposalId, choice id = some proposalId := by
  obtain ⟨s, hs, hat, hfinal, rfl⟩ := hfinalized
  have hchosen : ∀ id ∈ approvers n s.proposalId, id ∈ voters ∧ choice id = some s.proposalId := by
    intro id hid
    obtain ⟨v, hv, hvid, rfl⟩ := mem_approvers hid
    have hv := h.chosen s hs hat v hv hvid
    rw [hvid] at hv
    exact hv
  refine ⟨fun id hid => (hchosen id hid).1, ?_, fun id hid => (hchosen id hid).2⟩
  rw [h.card_approvers]
  exact h.quorum s hs hat hfinal

/-- Two nodes that have each counted the votes of more than half of the same voters agree. -/
theorem VotesCounted.agree {n n' : VotingNode σ}
    (h : VotesCounted choice voters height previousHash n)
    (h' : VotesCounted choice voters height previousHash n') {proposalId proposalId' : String}
    (hfinalized : FinalizedAt height previousHash n proposalId)
    (hfinalized' : FinalizedAt height previousHash n' proposalId') : proposalId = proposalId' := by
  obtain ⟨hsub, hmost, hchose⟩ := h.majority hfinalized
  obtain ⟨hsub', hmost', hchose'⟩ := h'.majority hfinalized'
  obtain ⟨id, hid⟩ := Finset.inter_nonempty_of_card_lt_card_add_card hsub hsub' (by omega)
  obtain ⟨hmem, hmem'⟩ := Finset.mem_inter.mp hid
  exact Option.some.inj ((hchose id hmem).symm.trans (hchose' id hmem'))

/-- It holds along a run of calls that fit. -/
theorem VotesCounted.run {vc : VotingConfig σ} {n : VotingNode σ}
    {calls : List (String × ConsensusCall σ)} (h : VotesCounted choice voters height previousHash n)
    (hcalls : EachStep (ConsensusCall.step vc) (fun n call =>
      VotesForChoice choice height previousHash vc n call ∧ MajorityRequired voters vc n) n calls) :
    VotesCounted choice voters height previousHash (calls.foldl (ConsensusCall.step vc) n) :=
  invariant_of_eachStep (fun _ _ h hcall => h.step hcall.1 hcall.2) calls n h hcalls _
    (foldl_mem_states _ _ _)

/-- Two nodes on which no validator signs votes for two proposals for the same place, and which
require the votes of more than half of those whose votes they count, finalize the same proposal
there. -/
theorem same_finalized_of_runs (vc : VotingConfig σ) (choice : String → Option String)
    (voters : Finset String) (height : ℤ) (previousHash : String) (a b : VotingNode σ)
    (callsA callsB : List (String × ConsensusCall σ)) (ha : Unproposed height previousHash a)
    (hb : Unproposed height previousHash b)
    (hcallsA : EachStep (ConsensusCall.step vc) (fun n call =>
      VotesForChoice choice height previousHash vc n call ∧ MajorityRequired voters vc n) a callsA)
    (hcallsB : EachStep (ConsensusCall.step vc) (fun n call =>
      VotesForChoice choice height previousHash vc n call ∧ MajorityRequired voters vc n) b callsB)
    (proposalA proposalB : String)
    (hfinalA : FinalizedAt height previousHash (callsA.foldl (ConsensusCall.step vc) a) proposalA)
    (hfinalB : FinalizedAt height previousHash (callsB.foldl (ConsensusCall.step vc) b) proposalB) :
    proposalA = proposalB :=
  (ha.counted.run hcallsA).agree (hb.counted.run hcallsB) hfinalA hfinalB

/-! ## Local validators -/

/-- The local network with three votes for a block, where a signature is the key of its signer and
an imported block writes nothing else. -/
def localConsensus : VotingConfig (Sql.Table String ConsensusValidatorRow) :=
  { Client.localClient with
    sha256Text := fun text => text
    verifyPayloadSignature := fun publicKey _ signature => signature = publicKey
    requiredValidatorApprovals := 3
    validateBlockHash := fun _ => .ok ()
    ensureRows := fun s _ => .ok s
    settle := fun n _ _ => .ok (n.validatorKeys, n.services)
    settle_keeps := by
      intro n block sourceId settled h id key hkey
      cases h
      exact hkey
    storeJob := fun s _ => .ok s
    removeTip := fun s _ => .ok s
    acceptTask := fun s _ => s
    applyBlocked := fun _ _ => false
    normalizeBlock := fun block => .ok block
    validators := fun validators => validators }

/-- A validator that is up and has its stake. -/
def localEligible : ConsensusValidatorRow where
  isBanned := false
  enabled := true
  onlineStatus := "online"
  syncStatus := "synced"
  protocolVersion := some "0.18"
  eligibilityStake := 3141600000
  trustScore := 1

/-- A node without blocks that knows some validators, each with its own id as its key. -/
def localConsensusNode (ids : List String) :
    VotingNode (Sql.Table String ConsensusValidatorRow) where
  blocks := []
  certificates := .empty
  headers := .empty
  proposals := .empty
  votes := []
  validatorKeys := ids.foldl (fun keys id => keys.upsert id id) .empty
  base := none
  services := ids.foldl (fun validators id => validators.upsert id localEligible) .empty
  tallies := .empty

def localProposedBlock (blockHash : String) : Value :=
  .obj [("height", .int 1), ("previous_hash", .str legacyZeroGenesisHash),
    ("result_hash", .str "result-1"), ("block_hash", .str blockHash)]

/-- The validators approve a proposal. -/
def localApprovals (proposalId : String) (ids : List String) :
    List (String × ConsensusCall (Sql.Table String ConsensusValidatorRow)) :=
  ids.map fun id => ("2026-05-10T00:00:00+00:00",
    .vote ⟨proposalId, id, true, "valid block", id, "2026-05-10T00:00:00+00:00"⟩)

/-- The block is proposed, and the validators approve it. -/
def localBallot (blockHash : String) (ids : List String) :
    List (String × ConsensusCall (Sql.Table String ConsensusValidatorRow)) :=
  ("2026-05-10T00:00:00+00:00", .propose (localProposedBlock blockHash) "miner-node-1" []) ::
    localApprovals s!"proposal:{blockHash}" ids

/-- The first node of a run. -/
theorem unproposed_localConsensusNode (ids : List String) :
    Unproposed 1 legacyZeroGenesisHash (localConsensusNode ids) :=
  ⟨⟨List.nodup_nil, fun _ hv => (nomatch hv), List.nodup_nil, fun _ _ htally => (nomatch htally)⟩,
    fun _ hs => (nomatch hs)⟩

/-- The local approvals are votes for the choice of each validator. -/
theorem votesForChoice_localApprovals {choice : String → Option String} {proposalId : String} :
    ∀ (ids : List String) (n : VotingNode (Sql.Table String ConsensusValidatorRow)),
      (∀ id ∈ ids, choice id = some proposalId) → EachStep (ConsensusCall.step localConsensus)
        (VotesForChoice choice 1 legacyZeroGenesisHash localConsensus) n
          (localApprovals proposalId ids)
  | [], _, _ => trivial
  | id :: ids, _, h =>
    ⟨fun _ _ _ _ _ _ _ => h id List.mem_cons_self,
      votesForChoice_localApprovals ids _ fun id hid => h id (List.mem_cons_of_mem _ hid)⟩

/-- A finalized subject is a block finalized at its height. -/
theorem finalizedAt_of_subjects {n : VotingNode (Sql.Table String ConsensusValidatorRow)}
    {blockHash proposalId : String}
    (h : (⟨blockHash, proposalId, 1, legacyZeroGenesisHash, true⟩ : Subject) ∈
      subjectsOf n.proposals) :
    FinalizedAt 1 legacyZeroGenesisHash n proposalId :=
  ⟨_, h, ⟨rfl, rfl⟩, rfl, rfl⟩

/-- Three validators, of whom every block needs the votes of all. -/
def threeValidators : List String := ["validator-1", "validator-2", "validator-3"]

/-- The three validators are less than twice the votes that are required. -/
theorem majorityRequired_local {n : VotingNode (Sql.Table String ConsensusValidatorRow)}
    (h : n.services = (localConsensusNode threeValidators).services) :
    MajorityRequired threeValidators.toFinset localConsensus n := by
  have hrequired : requiredApprovals localConsensus n.toImportNode =
      requiredApprovals localConsensus (localConsensusNode threeValidators).toImportNode := by
    unfold requiredApprovals eligibleValidatorCount
    rw [h]
  refine ⟨fun id row hrow _ => ?_, ?_⟩
  · change n.services.find? id = some row at hrow
    rw [h] at hrow
    have hids : ∀ r ∈ (localConsensusNode threeValidators).services.rows,
        r.1 ∈ threeValidators.toFinset := by decide +kernel
    exact hids _ (Sql.Table.find?_eq_some_iff.mp hrow)
  · rw [hrequired]
    decide +kernel

/-- A run of votes for one block in which no call touches the validators. -/
theorem eachStep_local {choice : String → Option String} :
    ∀ {calls : List (String × ConsensusCall (Sql.Table String ConsensusValidatorRow))}
      {n : VotingNode (Sql.Table String ConsensusValidatorRow)},
      (EachStep (ConsensusCall.step localConsensus)
        (VotesForChoice choice 1 legacyZeroGenesisHash localConsensus) n calls) →
      (EachStep (ConsensusCall.step localConsensus) (fun n _ =>
        n.services = (localConsensusNode threeValidators).services) n calls) →
      EachStep (ConsensusCall.step localConsensus) (fun n call =>
        VotesForChoice choice 1 legacyZeroGenesisHash localConsensus n call ∧
          MajorityRequired threeValidators.toFinset localConsensus n) n calls
  | [], _, _, _ => trivial
  | _ :: _, _, hvotes, hservices => ⟨⟨hvotes.1, majorityRequired_local hservices.1⟩,
      eachStep_local hvotes.2 hservices.2⟩

/-- Two blocks are proposed, and the validators approve the first of them. -/
def contestedBallot (first second : String) (ids : List String) :
    List (String × ConsensusCall (Sql.Table String ConsensusValidatorRow)) :=
  ("2026-05-10T00:00:00+00:00", .propose (localProposedBlock first) "miner-node-1" []) ::
    ("2026-05-10T00:00:00+00:00", .propose (localProposedBlock second) "miner-node-2" []) ::
      localApprovals "proposal:block-1" ids

/-- Two nodes learn of two proposals and of the votes of three validators in different orders, and
both have finalized the same block. -/
theorem same_finalized_local :
    let callsA := contestedBallot "block-1" "block-2" threeValidators
    let callsB := contestedBallot "block-2" "block-1" threeValidators.reverse
    let lastA := callsA.foldl (ConsensusCall.step localConsensus) (localConsensusNode threeValidators)
    let lastB := callsB.foldl (ConsensusCall.step localConsensus) (localConsensusNode threeValidators)
    FinalizedAt 1 legacyZeroGenesisHash lastA "proposal:block-1" ∧
      FinalizedAt 1 legacyZeroGenesisHash lastB "proposal:block-1" ∧
      ∀ proposalId, FinalizedAt 1 legacyZeroGenesisHash lastB proposalId →
        "proposal:block-1" = proposalId := by
  intro callsA callsB lastA lastB
  have hfinalA : FinalizedAt 1 legacyZeroGenesisHash lastA "proposal:block-1" :=
    @finalizedAt_of_subjects _ "block-1" _ (by decide +kernel)
  have hfinalB : FinalizedAt 1 legacyZeroGenesisHash lastB "proposal:block-1" :=
    @finalizedAt_of_subjects _ "block-1" _ (by decide +kernel)
  let choice := fun _ : String => some "proposal:block-1"
  have hcallsA : EachStep (ConsensusCall.step localConsensus) (fun n call =>
      VotesForChoice choice 1 legacyZeroGenesisHash localConsensus n call ∧
        MajorityRequired threeValidators.toFinset localConsensus n)
      (localConsensusNode threeValidators) callsA :=
    eachStep_local ⟨trivial, trivial, votesForChoice_localApprovals _ _ fun _ _ => rfl⟩
      (by decide +kernel)
  have hcallsB : EachStep (ConsensusCall.step localConsensus) (fun n call =>
      VotesForChoice choice 1 legacyZeroGenesisHash localConsensus n call ∧
        MajorityRequired threeValidators.toFinset localConsensus n)
      (localConsensusNode threeValidators) callsB :=
    eachStep_local ⟨trivial, trivial, votesForChoice_localApprovals _ _ fun _ _ => rfl⟩
      (by decide +kernel)
  exact ⟨hfinalA, hfinalB, fun proposalId hother =>
    same_finalized_of_runs localConsensus choice threeValidators.toFinset 1
      legacyZeroGenesisHash _ _ callsA callsB (unproposed_localConsensusNode _)
      (unproposed_localConsensusNode _) hcallsA hcallsB _ _ hfinalA hother⟩

/-- Three of six validators approve one block on one node, the other three another block on another
node, and each node finalizes its own. -/
theorem two_quorums_disagree :
    let ids := ["validator-1", "validator-2", "validator-3", "validator-4", "validator-5",
      "validator-6"]
    let choice (id : String) : Option String :=
      if id ∈ ids.take 3 then some "proposal:block-1"
      else if id ∈ ids then some "proposal:block-2" else none
    let start := localConsensusNode ids
    let callsA := localBallot "block-1" (ids.take 3)
    let callsB := localBallot "block-2" (ids.drop 3)
    Unproposed 1 legacyZeroGenesisHash start ∧
      EachStep (ConsensusCall.step localConsensus)
        (VotesForChoice choice 1 legacyZeroGenesisHash localConsensus) start callsA ∧
      EachStep (ConsensusCall.step localConsensus)
        (VotesForChoice choice 1 legacyZeroGenesisHash localConsensus) start callsB ∧
      FinalizedAt 1 legacyZeroGenesisHash (callsA.foldl (ConsensusCall.step localConsensus) start)
        "proposal:block-1" ∧
      FinalizedAt 1 legacyZeroGenesisHash (callsB.foldl (ConsensusCall.step localConsensus) start)
        "proposal:block-2" := by
  intro ids choice start callsA callsB
  have hA : subjectsOf (callsA.foldl (ConsensusCall.step localConsensus) start).proposals =
      [⟨"block-1", "proposal:block-1", 1, legacyZeroGenesisHash, true⟩] := by
    decide +kernel
  have hB : subjectsOf (callsB.foldl (ConsensusCall.step localConsensus) start).proposals =
      [⟨"block-2", "proposal:block-2", 1, legacyZeroGenesisHash, true⟩] := by
    decide +kernel
  refine ⟨unproposed_localConsensusNode ids, ⟨trivial, votesForChoice_localApprovals _ _ ?_⟩,
    ⟨trivial, votesForChoice_localApprovals _ _ ?_⟩, ?_, ?_⟩
  · decide +kernel
  · decide +kernel
  · exact finalizedAt_of_subjects (hA ▸ List.mem_singleton_self _)
  · exact finalizedAt_of_subjects (hB ▸ List.mem_singleton_self _)

end Picoin
