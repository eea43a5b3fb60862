import Picoin.Proofs.ApprovedJobs
import Picoin.Services.BlockReplay

/-!
# Approved imports

A block that other nodes have mined should come with the approvals of a quorum of registered
validators. The import looks only at what the block itself says: a block without a certificate
passes, and the number of required approvals, the voters and their keys are the certificate's own.

* **`ApprovedByQuorum`** — enough registered validators have signed for an imported block, in its
  stored certificate or in a recorded vote;
* **`Backed`** — a queued block names enough registered validators with their registered keys;
* **`approved_of_run`** — a run that imports only such blocks imports only approved blocks;
* **`unapproved_import`** — a block without a certificate is imported.
-/

namespace Picoin

open Json Outcome Run

variable {σ : Type}

/-! ## Approvals -/

/-- What the validators were asked to validate under the id of a job. -/
structure JobSubject where
  taskId : String
  minerId : String
  rangeStart : ℤ
  rangeEnd : ℤ
  algorithm : String
  resultHash : String

/-- The job is about the block: its task, its miner, its range and its result. -/
structure JobSubject.IsFor (job : JobSubject) (block : Value) : Prop where
  task : Client.item block "task_id" = .ok (.str job.taskId)
  miner : Client.item block "miner_id" = .ok (.str job.minerId)
  start : Client.item block "range_start" = .ok (.int job.rangeStart)
  stop : Client.item block "range_end" = .ok (.int job.rangeEnd)
  algorithm : Client.item block "algorithm" = .ok (.str job.algorithm)
  result : Client.item block "result_hash" = .ok (.str job.resultHash)

/-- What a vote signs is an approval of a job about the block. -/
def ApprovesBlock (asked : String → Option JobSubject) (block payload : Value) : Prop :=
  Client.get payload "approved" = .ok (.bool true) ∧
    ∃ jobId job, Client.get payload "job_id" = .ok (.str jobId) ∧ asked jobId = some job ∧
      job.IsFor block

/-- What the vote signs approves the block in the validator's name, and the key verifies it. -/
def SignedApproval (ic : ImportConfig σ) (asked : String → Option JobSubject) (block : Value)
    (taskId : String) (vote : Value) (validatorId key : String) : Prop :=
  ∃ payload signature votedTask task voter,
    fieldOr vote "signature_payload" (.obj []) = .ok payload ∧ ApprovesBlock asked block payload ∧
    Client.get payload "task_id" = .ok votedTask ∧ Client.sameValue votedTask task = true ∧
    Client.toText ic.toClientConfig task = taskId ∧
    Client.get payload "validator_id" = .ok voter ∧
    Client.sameValue voter (.str validatorId) = true ∧
    Client.get vote "signature" = .ok (.str signature) ∧
    ic.verifyPayloadSignature key payload signature = true

/-- The stored certificate holds an approval of the block that the registered key of the validator
verifies. -/
def CertifiedBy (ic : ImportConfig σ) (asked : String → Option JobSubject) (n : ImportNode σ)
    (block : Value) (b : ChainBlockRow) (validatorId : String) : Prop :=
  ∃ row key, n.certificates.find? b.height = some row ∧ row.blockHash = b.blockHash ∧
    n.validatorKeys.find? validatorId = some key ∧
    ∃ vote ∈ row.votes, SignedApproval ic asked block b.taskId vote validatorId key

/-- A recorded vote approves the block, and the registered key of the validator verifies it. -/
def VotedBy (ic : ImportConfig σ) (n : ImportNode σ) (blockHash : String) (height : ℤ)
    (validatorId : String) : Prop :=
  ∃ vote ∈ n.votes, vote.blockHash = blockHash ∧ vote.validatorId = validatorId ∧
    vote.approved = true ∧ ∃ key, n.validatorKeys.find? validatorId = some key ∧
      ic.verifyPayloadSignature key (consensusVotePayload vote height) vote.signature = true

/-- Enough distinct registered validators have signed for the block with this hash. -/
def ApprovedByQuorum (ic : ImportConfig σ) (asked : String → Option JobSubject)
    (n : ImportNode σ) (b : ChainBlockRow) : Prop :=
  ∃ block, ic.validateBlockHash block = .ok () ∧ textItem block "block_hash" = .ok b.blockHash ∧
    ∃ validatorIds : List String, validatorIds.Nodup ∧
      ic.requiredValidatorApprovals ≤ validatorIds.length ∧
      ∀ id ∈ validatorIds, CertifiedBy ic asked n block b id ∨ VotedBy ic n b.blockHash b.height id

/-- The blocks that were not there at the start are approved. -/
def ImportsApproved (ic : ImportConfig σ) (asked : String → Option JobSubject)
    (start n : ImportNode σ) : Prop :=
  ∀ b ∈ n.blocks, b ∈ start.blocks ∨ ApprovedByQuorum ic asked n b

/-! ## The condition -/

/-- A vote of the block's certificate signs an approval of a job about the block, and names the
validator with its registered key. -/
def NamedBy (asked : String → Option JobSubject) (n : ImportNode σ) (block : Value)
    (validatorId : String) : Prop :=
  ∃ certificate votes vote key payload,
    Client.get block "finality_certificate" = .ok certificate ∧
    fieldOr certificate "votes" (.arr []) = .ok (.arr votes) ∧ vote ∈ votes ∧
    fieldOr vote "signature_payload" (.obj []) = .ok payload ∧ ApprovesBlock asked block payload ∧
    Client.get vote "validator_id" = .ok (.str validatorId) ∧
    Client.get vote "validator_public_key" = .ok (.str key) ∧
    n.validatorKeys.find? validatorId = some key

/-- The validator has voted for the block. -/
def VotedFor (ic : ImportConfig σ) (n : ImportNode σ) (block : Value) (validatorId : String) :
    Prop :=
  ∃ blockHash height heightValue, textItem block "block_hash" = .ok blockHash ∧
    Client.item block "height" = .ok heightValue ∧
    heightUnits heightValue = .ok (height * 10 ^ 8) ∧ VotedBy ic n blockHash height validatorId

/-- Enough distinct registered validators are named with their keys, or have voted. -/
def Backed (ic : ImportConfig σ) (asked : String → Option JobSubject) (n : ImportNode σ)
    (block : Value) : Prop :=
  ∃ validatorIds : List String, validatorIds.Nodup ∧
    ic.requiredValidatorApprovals ≤ validatorIds.length ∧
    ∀ id ∈ validatorIds, NamedBy asked n block id ∨ VotedFor ic n block id

/-- A block whose hash is not its own is never imported. -/
def BackedIfValid (ic : ImportConfig σ) (asked : String → Option JobSubject) (n : ImportNode σ)
    (block : Value) : Prop :=
  ic.validateBlockHash block = .ok () → Backed ic asked n block

/-- The blocks that the call may import are backed: the finalized proposals and the queued headers,
or the two blocks of the branch. -/
def Backing (ic : ImportConfig σ) (asked : String → Option JobSubject) (n : ImportNode σ)
    (call : String × ImportCall) : Prop :=
  match call.2 with
  | .receive _ => True
  | .replay _ =>
    (∀ blockHash row, n.proposals.find? blockHash = some row → row.status = .finalized →
      row.finalization ≠ some true → BackedIfValid ic asked n row.payload) ∧
    ∀ blockHash row, n.headers.find? blockHash = some row → row.status.waits = true →
      BackedIfValid ic asked n (replayPayload n blockHash row.payload)
  | .reorg limit maxDepth => ∀ plan, planOrphanReorg ic n limit maxDepth = some plan →
    ∀ blockHash ∈ [plan.parentHash, plan.childHash], ∀ queued,
      findQueuedBlock ic.toClientConfig n blockHash = some queued →
        BackedIfValid ic asked n queued.block

/-! ## What stays -/

variable {asked : String → Option JobSubject}

/-- The recorded votes and the registered keys stay. -/
structure KeepsRegistry (n n' : ImportNode σ) : Prop where
  votes : n'.votes = n.votes
  keys : ∀ id key, n.validatorKeys.find? id = some key → n'.validatorKeys.find? id = some key

theorem KeepsRegistry.refl (n : ImportNode σ) : KeepsRegistry n n := ⟨rfl, fun _ _ h => h⟩

theorem KeepsRegistry.trans {n n' n'' : ImportNode σ} (h : KeepsRegistry n n')
    (h' : KeepsRegistry n' n'') : KeepsRegistry n n'' :=
  ⟨h'.votes.trans h.votes, fun id key hkey => h'.keys id key (h.keys id key hkey)⟩

theorem VotedBy.mono {ic : ImportConfig σ} {n n' : ImportNode σ} {blockHash : String} {height : ℤ}
    {validatorId : String} (hkeeps : KeepsRegistry n n')
    (h : VotedBy ic n blockHash height validatorId) :
    VotedBy ic n' blockHash height validatorId := by
  obtain ⟨vote, hvote, hhash, hid, happroved, key, hkey, hverifies⟩ := h
  refine ⟨vote, ?_, hhash, hid, happroved, key, hkeeps.keys _ _ hkey, hverifies⟩
  rw [hkeeps.votes]
  exact hvote

theorem Backed.mono {ic : ImportConfig σ} {n n' : ImportNode σ} {block : Value}
    (hkeeps : KeepsRegistry n n') (h : Backed ic asked n block) : Backed ic asked n' block := by
  obtain ⟨ids, hnodup, hlength, hids⟩ := h
  refine ⟨ids, hnodup, hlength, fun id hid => ?_⟩
  rcases hids id hid with hnamed | hvoted
  · obtain ⟨certificate, votes, vote, key, payload, hcertificate, hvotes, hvote, hpayload,
      happroves, hvoter, hpublic, hkey⟩ := hnamed
    exact .inl ⟨certificate, votes, vote, key, payload, hcertificate, hvotes, hvote, hpayload,
      happroves, hvoter, hpublic, hkeeps.keys _ _ hkey⟩
  · obtain ⟨blockHash, height, value, hhash, hvalue, hheight, hvoted⟩ := hvoted
    exact .inr ⟨blockHash, height, value, hhash, hvalue, hheight, hvoted.mono hkeeps⟩

/-- A block stays approved with its certificate. -/
theorem ApprovedByQuorum.mono {ic : ImportConfig σ} {n n' : ImportNode σ} {b : ChainBlockRow}
    (hkeeps : KeepsRegistry n n')
    (hcertificate : ∀ row, n.certificates.find? b.height = some row → row.blockHash = b.blockHash →
      n'.certificates.find? b.height = some row)
    (h : ApprovedByQuorum ic asked n b) : ApprovedByQuorum ic asked n' b := by
  obtain ⟨block, hvalid, hname, ids, hnodup, hlength, hids⟩ := h
  refine ⟨block, hvalid, hname, ids, hnodup, hlength, fun id hid => ?_⟩
  rcases hids id hid with hcertified | hvoted
  · obtain ⟨row, key, hrow, hhash, hkey, hvote⟩ := hcertified
    exact .inl ⟨row, key, hcertificate row hrow hhash, hhash, hkeeps.keys _ _ hkey, hvote⟩
  · exact .inr (hvoted.mono hkeeps)

/-- The chain stays, with its certificates and the registry. -/
structure SameImports (n n' : ImportNode σ) : Prop where
  blocks : n'.blocks = n.blocks
  certificates : n'.certificates = n.certificates
  votes : n'.votes = n.votes
  keys : n'.validatorKeys = n.validatorKeys

theorem SameImports.registry {n n' : ImportNode σ} (h : SameImports n n') : KeepsRegistry n n' := by
  refine ⟨h.votes, fun id key hkey => ?_⟩
  rw [h.keys]
  exact hkey

theorem ImportsApproved.sameImports {ic : ImportConfig σ} {start n n' : ImportNode σ}
    (hsame : SameImports n n') (h : ImportsApproved ic asked start n) :
    ImportsApproved ic asked start n' := by
  intro b hb
  rw [hsame.blocks] at hb
  refine (h b hb).imp_right fun happroved => happroved.mono hsame.registry fun row hrow _ => ?_
  rw [hsame.certificates]
  exact hrow

/-! ## One import -/

theorem python_eq_ok {α : Type} {x : Except Client.PyError α} {a : α} :
    python x = .ok a ↔ x = .ok a := mapError_eq_ok

/-- The latest block is as high as every block that has been looked at. -/
theorem le_foldl_higherBlock :
    ∀ (blocks : List ChainBlockRow) (latest : Option ChainBlockRow) (b : ChainBlockRow),
      b ∈ blocks ∨ latest = some b →
        ∃ best, blocks.foldl higherBlock latest = some best ∧ b.height ≤ best.height
  | [], latest, b, h => by
    rcases h with hmem | hlatest
    · cases hmem
    · exact ⟨b, hlatest, le_rfl⟩
  | block :: blocks, latest, b, h => by
    have hnext : ∃ next, higherBlock latest block = some next ∧ block.height ≤ next.height ∧
        ∀ best, latest = some best → best.height ≤ next.height := by
      cases latest with
      | none => exact ⟨block, rfl, le_rfl, fun best hbest => nomatch hbest⟩
      | some best =>
        by_cases hhigher : best.height < block.height
        · refine ⟨block, if_pos hhigher, le_rfl, fun other hother => ?_⟩
          cases hother
          omega
        · refine ⟨best, if_neg hhigher, by omega, fun other hother => ?_⟩
          cases hother
          exact le_rfl
    obtain ⟨next, hsome, hblock, hbest⟩ := hnext
    have hrest := le_foldl_higherBlock blocks (higherBlock latest block)
    show ∃ best, blocks.foldl higherBlock (higherBlock latest block) = some best ∧ _
    rcases h with hmem | hlatest
    · rcases List.mem_cons.mp hmem with heq | htail
      · obtain ⟨best, hfold, hle⟩ := hrest next (.inr hsome)
        rw [heq]
        exact ⟨best, hfold, hblock.trans hle⟩
      · exact hrest b (.inl htail)
    · obtain ⟨best, hfold, hle⟩ := hrest next (.inr hsome)
      exact ⟨best, hfold, (hbest b hlatest).trans hle⟩

/-- No block is above the tip. -/
theorem height_le_latestTip (cfg : Config) {n : ImportNode σ} {b : ChainBlockRow}
    (hb : b ∈ n.blocks) : b.height ≤ (latestTip cfg n).height := by
  obtain ⟨best, hlatest, hle⟩ := le_foldl_higherBlock n.blocks none b (.inl hb)
  have hbest : latestBlock n = some best := hlatest
  unfold latestTip
  rw [hbest]
  exact hle

/-- A block is imported right above the tip. -/
theorem placeOnTip_eq_some {ic : ImportConfig σ} {n : ImportNode σ} {block : Value} {height : ℤ}
    {blockHash : String} (h : placeOnTip ic n block = .ok (some (height, blockHash))) :
    height = (latestTip ic.toConfig n).height + 1 ∧ textItem block "block_hash" = .ok blockHash ∧
      ∃ value, Client.item block "height" = .ok value ∧
        heightUnits value = .ok (height * 10 ^ 8) := by
  obtain ⟨hash, hhash, h⟩ := bind_eq_ok.mp h
  obtain ⟨units, hunits, h⟩ := bind_eq_ok.mp h
  obtain ⟨value, hvalue, hunits⟩ := bind_eq_ok.mp (python_eq_ok.mp hunits)
  have hhash := python_eq_ok.mp hhash
  split at h
  · split at h
    · cases h
    · cases h
  · split at h
    · cases h
    · next hnext =>
      rw [ne_eq, Decidable.not_not] at hnext
      obtain ⟨previous, -, h⟩ := bind_eq_ok.mp h
      dsimp only at h
      split at h
      · cases h
        rw [hnext] at hunits
        exact ⟨rfl, hhash, value, hvalue, hunits⟩
      · cases h

/-- A vote that has passed is signed with the key that it names. -/
theorem signedApproval_of_valid {ic : ImportConfig σ} {certificate taskId vote : Value}
    {validatorId key : String}
    (h : validateCertificateVote ic certificate taskId vote = .ok ())
    (hvoter : Client.get vote "validator_id" = .ok (.str validatorId))
    (hkey : Client.get vote "validator_public_key" = .ok (.str key)) {block signed : Value}
    (hsigned : fieldOr vote "signature_payload" (.obj []) = .ok signed)
    (happroves : ApprovesBlock asked block signed) :
    SignedApproval ic asked block (Client.toText ic.toClientConfig taskId) vote validatorId
      key := by
  unfold validateCertificateVote at h
  split at h
  · obtain ⟨payload, hpayload, h⟩ := bind_eq_ok.mp h
    rw [python_eq_ok, hsigned] at hpayload
    cases hpayload
    obtain ⟨approved, -, h⟩ := bind_eq_ok.mp h
    split at h
    · cases h
    obtain ⟨jobId, -, h⟩ := bind_eq_ok.mp h
    obtain ⟨votedTask, htask, h⟩ := bind_eq_ok.mp h
    obtain ⟨voter, hnamed, h⟩ := bind_eq_ok.mp h
    obtain ⟨_, -, h⟩ := bind_eq_ok.mp h
    obtain ⟨named, hvoter', h⟩ := bind_eq_ok.mp h
    rw [python_eq_ok, hvoter] at hvoter'
    cases hvoter'
    split at h
    · cases h
    next hsame =>
    obtain ⟨publicKey, hkey', h⟩ := bind_eq_ok.mp h
    obtain ⟨signature, hsignature, h⟩ := bind_eq_ok.mp h
    rw [python_eq_ok, hkey] at hkey'
    cases hkey'
    split at h
    · cases h
    next hverified =>
    simp only [Bool.or_eq_true, Bool.not_eq_true', not_or, Bool.not_eq_false] at hsame hverified
    -- only a text can have been verified
    have hverify := hverified.2
    cases signature with
    | str text =>
      exact ⟨signed, text, votedTask, taskId, voter, hsigned, happroves, python_eq_ok.mp htask,
        hsame.1.2, rfl, python_eq_ok.mp hnamed,
        hsame.2, python_eq_ok.mp hsignature, hverify⟩
    | null => cases hverify
    | bool b => cases hverify
    | int i => cases hverify
    | float x => cases hverify
    | arr items => cases hverify
    | obj fields => cases hverify
  · cases h

/-- Every vote of a certificate that has passed has passed. -/
theorem votes_of_validCertificate {ic : ImportConfig σ} {block taskId certificate : Value}
    {votes : List Value} (h : validateFinalityCertificate ic block taskId = .ok ())
    (hcertificate : Client.get block "finality_certificate" = .ok certificate)
    (hvotes : fieldOr certificate "votes" (.arr []) = .ok (.arr votes)) :
    ∀ vote ∈ votes, validateCertificateVote ic certificate taskId vote = .ok () := by
  obtain ⟨certificate', hcertificate', h⟩ := bind_eq_ok.mp h
  rw [python_eq_ok, hcertificate] at hcertificate'
  cases hcertificate'
  split at h
  · -- nothing has votes
    cases hvotes
  · obtain ⟨payload, -, h⟩ := bind_eq_ok.mp h
    obtain ⟨votes', hvotes', h⟩ := bind_eq_ok.mp h
    have hsame : Value.arr votes = votes' :=
      Except.ok.inj (hvotes.symm.trans (python_eq_ok.mp hvotes'))
    rw [← hsame] at h
    cases payload with
    | obj fields =>
      obtain ⟨_, -, h⟩ := bind_eq_ok.mp h
      exact of_forM_eq_ok h
    | null => cases h
    | bool b => cases h
    | int i => cases h
    | float x => cases h
    | str text => cases h
    | arr items => cases h
  · cases h

/-- What is stored with a certificate. -/
theorem storeFinalityCertificate_eq_ok {ic : ImportConfig σ} {n n' : ImportNode σ}
    {block taskId : Value} {height : ℤ} {blockHash : String}
    (h : storeFinalityCertificate ic n block taskId height blockHash = .ok n') :
    n'.blocks = n.blocks ∧ n'.headers = n.headers ∧ n'.proposals = n.proposals ∧
      n'.votes = n.votes ∧ n'.validatorKeys = n.validatorKeys ∧
      (∀ h, h ≠ height → n'.certificates.find? h = n.certificates.find? h) ∧
      ∀ certificate votes, Client.get block "finality_certificate" = .ok certificate →
        fieldOr certificate "votes" (.arr []) = .ok (.arr votes) →
          ∃ row, n'.certificates.find? height = some row ∧ row.blockHash = blockHash ∧
            row.votes = votes := by
  obtain ⟨certificate, hcertificate, h⟩ := bind_eq_ok.mp h
  have hcertificate := python_eq_ok.mp hcertificate
  split at h
  · -- no certificate comes with the block, and nothing is stored
    cases h
    refine ⟨rfl, rfl, rfl, rfl, rfl, fun _ _ => rfl, fun certificate' votes hget hvotes => ?_⟩
    rw [hcertificate] at hget
    cases hget
    cases hvotes
  · obtain ⟨_, -, h⟩ := bind_eq_ok.mp h
    obtain ⟨row, hrow, h⟩ := bind_eq_ok.mp h
    obtain ⟨services, -, h⟩ := bind_eq_ok.mp h
    split at h
    · cases h
    cases h
    refine ⟨rfl, rfl, rfl, rfl, rfl, fun h hne => Sql.Table.find?_upsert_ne _ _ hne,
      fun certificate' votes hget hvotes => ?_⟩
    rw [hcertificate] at hget
    cases hget
    obtain ⟨payload, -, hrow⟩ := bind_eq_ok.mp (python_eq_ok.mp hrow)
    obtain ⟨value, hvalue, hrow⟩ := bind_eq_ok.mp hrow
    rw [hvotes] at hvalue
    cases hvalue
    -- the votes are stored as they came; the other columns do not matter here
    obtain ⟨list, hlist, hrow⟩ := bind_eq_ok.mp hrow
    cases hlist
    obtain ⟨_, -, hrow⟩ := bind_eq_ok.mp hrow
    obtain ⟨_, -, hrow⟩ := bind_eq_ok.mp hrow
    obtain ⟨_, -, hrow⟩ := bind_eq_ok.mp hrow
    obtain ⟨_, -, hrow⟩ := bind_eq_ok.mp hrow
    obtain ⟨_, -, hrow⟩ := bind_eq_ok.mp hrow
    obtain ⟨_, -, hrow⟩ := bind_eq_ok.mp hrow
    cases hrow
    exact ⟨_, Sql.Table.find?_upsert_self _ _ _, rfl, rfl⟩

/-- A backed block whose certificate has passed and is stored is approved. -/
theorem Backed.approved {ic : ImportConfig σ} {n : ImportNode σ} {block taskId : Value}
    {b : ChainBlockRow} (h : Backed ic asked n block)
    (hblock : ic.validateBlockHash block = .ok ())
    (hvalid : validateFinalityCertificate ic block taskId = .ok ())
    (htask : b.taskId = Client.toText ic.toClientConfig taskId)
    (hhash : textItem block "block_hash" = .ok b.blockHash)
    (hheight : ∃ value, Client.item block "height" = .ok value ∧
      heightUnits value = .ok (b.height * 10 ^ 8))
    (hstored : ∀ certificate votes, Client.get block "finality_certificate" = .ok certificate →
      fieldOr certificate "votes" (.arr []) = .ok (.arr votes) →
        ∃ row, n.certificates.find? b.height = some row ∧ row.blockHash = b.blockHash ∧
          row.votes = votes) : ApprovedByQuorum ic asked n b := by
  obtain ⟨ids, hnodup, hlength, hids⟩ := h
  refine ⟨block, hblock, hhash, ids, hnodup, hlength, fun id hid => ?_⟩
  rcases hids id hid with hnamed | hvoted
  · obtain ⟨certificate, votes, vote, key, payload, hcertificate, hvotes, hvote, hpayload, happroves,
      hvoter, hpublic, hkey⟩ := hnamed
    obtain ⟨row, hrow, hrowHash, hrowVotes⟩ := hstored certificate votes hcertificate hvotes
    have hpassed := votes_of_validCertificate hvalid hcertificate hvotes vote hvote
    have hsigned := signedApproval_of_valid hpassed hvoter hpublic hpayload happroves
    rw [← htask] at hsigned
    refine .inl ⟨row, key, hrow, hrowHash, hkey, vote, ?_, hsigned⟩
    rw [hrowVotes]
    exact hvote
  · obtain ⟨blockHash, height, value, hhash', hvalue, hunits, hvoted⟩ := hvoted
    obtain ⟨value', hvalue', hunits'⟩ := hheight
    rw [hvalue] at hvalue'
    cases hvalue'
    have hsameHash : blockHash = b.blockHash := Except.ok.inj (hhash'.symm.trans hhash)
    have hsameUnits : height * 10 ^ 8 = b.height * 10 ^ 8 :=
      Except.ok.inj (hunits.symm.trans hunits')
    have hsameHeight : height = b.height := by omega
    rw [hsameHash, hsameHeight] at hvoted
    exact .inr hvoted

/-- An import of a backed block keeps every imported block approved, and leaves the registry and
the queue alone. -/
theorem ImportsApproved.import {ic : ImportConfig σ} {start n n' : ImportNode σ} {block : Value}
    {sourceId : String} {imported : Bool} (happroved : ImportsApproved ic asked start n)
    (hbacked : BackedIfValid ic asked n block)
    (h : importFinalizedBlock ic n block sourceId = .ok (n', imported)) :
    ImportsApproved ic asked start n' ∧ KeepsRegistry n n' ∧ n'.headers = n.headers ∧
      n'.proposals = n.proposals := by
  obtain ⟨_, hvalid, h⟩ := bind_eq_ok.mp h
  obtain ⟨place, hplace, h⟩ := bind_eq_ok.mp h
  cases place with
  | none =>
    cases h
    exact ⟨happroved, .refl n, rfl, rfl⟩
  | some place =>
    obtain ⟨height, blockHash⟩ := place
    obtain ⟨htip, hhash, hheight⟩ := placeOnTip_eq_some hplace
    obtain ⟨resultHash, -, h⟩ := bind_eq_ok.mp h
    dsimp only at h
    split at h
    · cases h
    obtain ⟨services, -, h⟩ := bind_eq_ok.mp h
    obtain ⟨taskId, -, h⟩ := bind_eq_ok.mp h
    obtain ⟨_, hcertificate, h⟩ := bind_eq_ok.mp h
    split at h
    · cases h
    obtain ⟨settled, hsettled, h⟩ := bind_eq_ok.mp h
    obtain ⟨n₁, hstore, h⟩ := bind_eq_ok.mp h
    cases h
    obtain ⟨hblocks, hheaders, hproposals, hvotes, hkeys, hothers, hstored⟩ :=
      storeFinalityCertificate_eq_ok hstore
    have hregistry : KeepsRegistry n n' := by
      refine ⟨hvotes, fun id key hkey => ?_⟩
      rw [hkeys]
      exact ic.settle_keeps _ _ _ _ hsettled id key hkey
    refine ⟨fun b hb => ?_, hregistry, hheaders, hproposals⟩
    rw [hblocks] at hb
    rcases List.mem_append.mp hb with hold | hnew
    -- the certificate of an older block is at another height
    · refine (happroved b hold).imp_right fun hb => hb.mono hregistry fun row hrow _ => ?_
      have hbelow := height_le_latestTip ic.toConfig hold
      rw [hothers b.height (by omega)]
      exact hrow
    · rw [List.mem_singleton.mp hnew]
      have hbacked := (hbacked hvalid).mono hregistry
      exact .inr (hbacked.approved hvalid hcertificate rfl hhash hheight hstored)

/-! ## The routes -/

/-- What decides which payload a header is replayed with. -/
def ProposalRow.merging (row : ProposalRow) : Value × Bool := (row.payload, row.status = .rejected)

/-- What the loops of a replay keep. -/
structure ReplayKeeps (ic : ImportConfig σ) (asked : String → Option JobSubject)
    (start n m : ImportNode σ) : Prop where
  approved : ImportsApproved ic asked start m
  registry : KeepsRegistry n m
  merging : ∀ blockHash, (m.proposals.find? blockHash).map ProposalRow.merging =
    (n.proposals.find? blockHash).map ProposalRow.merging

/-- A header keeps its payload. -/
theorem replayPayload_congr {n m : ImportNode σ} {blockHash : String}
    (h : (m.proposals.find? blockHash).map ProposalRow.merging =
      (n.proposals.find? blockHash).map ProposalRow.merging) (payload : Value) :
    replayPayload m blockHash payload = replayPayload n blockHash payload := by
  unfold replayPayload
  cases hm : m.proposals.find? blockHash with
  | none =>
    rw [hm, Option.map_none] at h
    rw [Option.map_eq_none_iff.mp h.symm]
  | some row =>
    rw [hm, Option.map_some] at h
    obtain ⟨old, hold, hsame⟩ := Option.map_eq_some_iff.mp h.symm
    obtain ⟨hpayload, hstatus⟩ := Prod.mk.inj hsame
    rw [hold]
    dsimp only
    rw [hpayload]
    have hrejected : (row.status ≠ .rejected) = (old.status ≠ .rejected) := by
      rw [ne_eq, ne_eq, ← decide_eq_decide.mp hstatus]
    simp only [hrejected]

/-- An update of a proposal that is not rejected. -/
theorem merging_modify {proposals : Sql.Table String ProposalRow} {blockHash : String}
    {f : ProposalRow → ProposalRow}
    (hf : ∀ row, proposals.find? blockHash = some row → (f row).merging = row.merging)
    (other : String) : ((proposals.modify blockHash f).find? other).map ProposalRow.merging =
      (proposals.find? other).map ProposalRow.merging := by
  rw [Sql.Table.find?_modify]
  split
  · next heq =>
    rw [heq]
    cases hfind : proposals.find? blockHash with
    | none => rfl
    | some row => exact congrArg some (hf row hfind)
  · rfl

theorem merging_promote (cfg : Config) (now : String) (n : ImportNode σ) (blockHash : String) :
    ((promoteReadyProposals cfg now n).proposals.find? blockHash).map ProposalRow.merging =
      (n.proposals.find? blockHash).map ProposalRow.merging := by
  refine Sql.Table.map_find?_mapRows n.proposals (fun _ row => ?_) blockHash
  split
  · next hpending =>
    unfold ProposalRow.merging
    rw [hpending.1]
    rfl
  · rfl

theorem merging_markExisting (now : String) (n : ImportNode σ) (blockHash : String) :
    ((markExistingProposalsImported now n).proposals.find? blockHash).map ProposalRow.merging =
      (n.proposals.find? blockHash).map ProposalRow.merging := by
  refine Sql.Table.map_find?_mapRows n.proposals (fun _ row => ?_) blockHash
  split
  · next hopen =>
    unfold ProposalRow.merging
    rw [decide_eq_false hopen.2.1]
    rfl
  · rfl

theorem ReplayKeeps.sameImports {ic : ImportConfig σ} {start n m m' : ImportNode σ}
    (h : ReplayKeeps ic asked start n m) (hsame : SameImports m m')
    (hmerging : ∀ blockHash, (m'.proposals.find? blockHash).map ProposalRow.merging =
      (m.proposals.find? blockHash).map ProposalRow.merging) : ReplayKeeps ic asked start n m' :=
  ⟨h.approved.sameImports hsame, h.registry.trans hsame.registry,
    fun blockHash => (hmerging blockHash).trans (h.merging blockHash)⟩

/-- An import in the loop. -/
theorem ReplayKeeps.import {ic : ImportConfig σ} {start n m m' : ImportNode σ} {block : Value}
    {sourceId : String} {imported : Bool} (h : ReplayKeeps ic asked start n m)
    (hbacked : BackedIfValid ic asked n block)
    (himport : importFinalizedBlock ic m block sourceId = .ok (m', imported)) :
    ReplayKeeps ic asked start n m' ∧ m'.headers = m.headers := by
  have hbacked' : BackedIfValid ic asked m block := fun hvalid => (hbacked hvalid).mono h.registry
  obtain ⟨happroved, hregistry, hheaders, hproposals⟩ := h.approved.import hbacked' himport
  refine ⟨⟨happroved, h.registry.trans hregistry, fun blockHash => ?_⟩, hheaders⟩
  rw [hproposals]
  exact h.merging blockHash

/-- A proposal that was open at the start is not rejected in the meantime. -/
theorem ReplayKeeps.not_rejected {ic : ImportConfig σ} {start n m : ImportNode σ}
    (h : ReplayKeeps ic asked start n m) {blockHash : String} {row row' : ProposalRow}
    (hrow : n.proposals.find? blockHash = some row) (hopen : row.status ≠ .rejected)
    (hrow' : m.proposals.find? blockHash = some row') : row'.status ≠ .rejected := by
  have hsame := h.merging blockHash
  rw [hrow, hrow', Option.map_some, Option.map_some] at hsame
  have hstatus := (Prod.mk.inj (Option.some.inj hsame)).2
  rw [decide_eq_false hopen] at hstatus
  exact of_decide_eq_false hstatus

/-- One finalized proposal. -/
theorem ReplayKeeps.proposal {ic : ImportConfig σ} {start n m : ImportNode σ}
    (h : ReplayKeeps ic asked start n m) (now : String) {r : String × ProposalRow}
    (hrow : n.proposals.find? r.1 = some r.2) (hstatus : r.2.status = .finalized)
    (hbacked : BackedIfValid ic asked n r.2.payload) :
    ReplayKeeps ic asked start n (replayProposal ic now m r) ∧
      (replayProposal ic now m r).headers = m.headers := by
  have hopen : r.2.status ≠ .rejected := by
    rw [hstatus]
    decide
  unfold replayProposal
  split
  · refine ⟨h.sameImports ⟨rfl, rfl, rfl, rfl⟩ (merging_modify fun row hfind => ?_), rfl⟩
    have hrow' := h.not_rejected hrow hopen hfind
    unfold ProposalRow.merging
    dsimp only
    rw [decide_eq_false hrow']
    split
    · rfl
    · rw [decide_eq_false hrow']
  · next m₁ himport =>
    obtain ⟨h₁, hheaders⟩ := h.import hbacked himport
    have h₂ : ReplayKeeps ic asked start n (promoteReadyProposals ic.toConfig now m₁) :=
      h₁.sameImports ⟨rfl, rfl, rfl, rfl⟩ (merging_promote ic.toConfig now m₁)
    refine ⟨h₂.sameImports ⟨rfl, rfl, rfl, rfl⟩ (merging_modify fun row hfind => ?_), hheaders⟩
    have hrow' := h₂.not_rejected hrow hopen hfind
    unfold ProposalRow.merging
    rw [decide_eq_false hrow']
    rfl
  · next m₁ himport => exact h.import hbacked himport

/-- One queued header. -/
theorem ReplayKeeps.header {ic : ImportConfig σ} {start n m : ImportNode σ}
    (h : ReplayKeeps ic asked start n m) (now : String) {r : String × HeaderRow}
    (hbacked : BackedIfValid ic asked n (replayPayload n r.1 r.2.payload)) :
    ReplayKeeps ic asked start n (replayHeader ic now m r) := by
  rw [← replayPayload_congr (h.merging r.1)] at hbacked
  unfold replayHeader
  dsimp only
  split
  · exact h.sameImports ⟨rfl, rfl, rfl, rfl⟩ fun _ => rfl
  · next m₁ himport =>
    have h₂ : ReplayKeeps ic asked start n (promoteReadyProposals ic.toConfig now m₁) :=
      (h.import hbacked himport).1.sameImports ⟨rfl, rfl, rfl, rfl⟩
        (merging_promote ic.toConfig now m₁)
    refine h₂.sameImports ⟨rfl, rfl, rfl, rfl⟩ (merging_modify fun row _ => ?_)
    split
    · next hopen =>
      unfold ProposalRow.merging
      rw [decide_eq_false hopen.2]
      rfl
    · rfl
  · next m₁ himport =>
    exact (h.import hbacked himport).1.sameImports ⟨rfl, rfl, rfl, rfl⟩ fun _ => rfl

/-- The tables with which the loops of a replay begin. -/
theorem replayKeeps_start {ic : ImportConfig σ} {start n : ImportNode σ}
    (h : ImportsApproved ic asked start n) (now : String) :
    ReplayKeeps ic asked start n
      (quarantinePreSnapshotHeaders (markExistingProposalsImported now n)) := by
  have hn : ReplayKeeps ic asked start n n := ⟨h, .refl n, fun _ => rfl⟩
  have hmarked : ReplayKeeps ic asked start n (markExistingProposalsImported now n) :=
    hn.sameImports ⟨rfl, rfl, rfl, rfl⟩ (merging_markExisting now n)
  unfold quarantinePreSnapshotHeaders
  split
  · exact hmarked.sameImports ⟨rfl, rfl, rfl, rfl⟩ fun _ => rfl
  · exact hmarked

/-- A proposal that is finalized after the marking was finalized before. -/
theorem find?_of_mem_finalizedProposals {now : String} {n : ImportNode σ}
    {r : String × ProposalRow}
    (hr : r ∈ finalizedProposals
      (quarantinePreSnapshotHeaders (markExistingProposalsImported now n))) :
    n.proposals.find? r.1 = some r.2 ∧ r.2.status = .finalized ∧
      r.2.finalization ≠ some true := by
  obtain ⟨hmem, hkept⟩ := List.mem_filter.mp (List.mem_mergeSort.mp hr)
  rw [Bool.and_eq_true, decide_eq_true_eq, decide_eq_true_eq] at hkept
  have hfind := Sql.Table.find?_eq_some_iff.mpr hmem
  have hmarked : (quarantinePreSnapshotHeaders (markExistingProposalsImported now n)).proposals =
      (markExistingProposalsImported now n).proposals := by
    unfold quarantinePreSnapshotHeaders
    split <;> rfl
  rw [hmarked] at hfind
  unfold markExistingProposalsImported at hfind
  rw [Sql.Table.find?_mapRows] at hfind
  obtain ⟨row, hrow, hsame⟩ := Option.map_eq_some_iff.mp hfind
  refine ⟨?_, hkept⟩
  split at hsame
  · rw [← hsame] at hkept
    cases hkept.1
  · rw [hrow, hsame]

/-- A header that waits after the quarantine waited before. -/
theorem find?_of_mem_queuedHeaders {now : String} {n m : ImportNode σ} {r : String × HeaderRow}
    (hheaders : m.headers =
      (quarantinePreSnapshotHeaders (markExistingProposalsImported now n)).headers)
    (hr : r ∈ queuedHeaders m) :
    n.headers.find? r.1 = some r.2 ∧ r.2.status.waits = true := by
  obtain ⟨hmem, hkept⟩ := List.mem_filter.mp (List.mem_mergeSort.mp hr)
  rw [Bool.and_eq_true] at hkept
  have hfind := Sql.Table.find?_eq_some_iff.mpr hmem
  rw [hheaders] at hfind
  refine ⟨?_, hkept.1⟩
  unfold quarantinePreSnapshotHeaders at hfind
  split at hfind
  · rw [Sql.Table.find?_mapRows] at hfind
    obtain ⟨row, hrow, hsame⟩ := Option.map_eq_some_iff.mp hfind
    split at hsame
    · rw [← hsame] at hkept
      cases hkept.1
    · rw [← hsame]
      exact hrow
  · exact hfind

/-- A replay of backed blocks. -/
theorem ImportsApproved.replay {ic : ImportConfig σ} {start n : ImportNode σ} {now : String}
    {limit : ℤ} (h : ImportsApproved ic asked start n)
    (hbacking : Backing ic asked n (now, .replay limit)) :
    ImportsApproved ic asked start (replayFinalizedBlocks ic now limit n) := by
  let n₀ := quarantinePreSnapshotHeaders (markExistingProposalsImported now n)
  let proposals := (finalizedProposals n₀).take (max 1 (min limit 200)).toNat
  have hproposals : ReplayKeeps ic asked start n (proposals.foldl (replayProposal ic now) n₀) ∧
      (proposals.foldl (replayProposal ic now) n₀).headers = n₀.headers := by
    refine List.foldlRecOn proposals (replayProposal ic now)
      (motive := fun m => ReplayKeeps ic asked start n m ∧ m.headers = n₀.headers)
      ⟨replayKeeps_start h now, rfl⟩ fun m hm r hr => ?_
    obtain ⟨hrow, hstatus, hopen⟩ := find?_of_mem_finalizedProposals (List.mem_of_mem_take hr)
    obtain ⟨hkeeps, hheaders⟩ :=
      hm.1.proposal now hrow hstatus (hbacking.1 r.1 r.2 hrow hstatus hopen)
    exact ⟨hkeeps, hheaders.trans hm.2⟩
  have hheaders : ∀ headers : List (String × HeaderRow),
      (∀ r ∈ headers, r ∈ queuedHeaders (proposals.foldl (replayProposal ic now) n₀)) →
        ReplayKeeps ic asked start n
          (headers.foldl (replayHeader ic now) (proposals.foldl (replayProposal ic now) n₀)) := by
    intro headers hqueued
    refine List.foldlRecOn headers (replayHeader ic now)
      (motive := fun m => ReplayKeeps ic asked start n m) hproposals.1 fun m hm r hr => ?_
    obtain ⟨hrow, hwaits⟩ := find?_of_mem_queuedHeaders hproposals.2 (hqueued r hr)
    exact hm.header now (hbacking.2 r.1 r.2 hrow hwaits)
  exact (hheaders _ fun r hr => List.mem_of_mem_take hr).approved

/-- The local tip is removed with its certificate. -/
theorem ImportsApproved.removeLocalTip {ic : ImportConfig σ} {start n n' : ImportNode σ}
    {now blockHash : String} {height : ℤ} (h : ImportsApproved ic asked start n)
    (hremove : removeLocalTip ic now n height blockHash = .ok n') :
    ImportsApproved ic asked start n' ∧ KeepsRegistry n n' := by
  unfold Picoin.removeLocalTip at hremove
  split at hremove
  · cases hremove
  obtain ⟨services, -, hremove⟩ := bind_eq_ok.mp hremove
  cases hremove
  refine ⟨fun b hb => ?_, ⟨rfl, fun _ _ hkey => hkey⟩⟩
  obtain ⟨hmem, hkept⟩ := List.mem_filter.mp hb
  refine (h b hmem).imp_right fun happroved => ?_
  refine ApprovedByQuorum.mono (n := n) ⟨rfl, fun _ _ hkey => hkey⟩ (fun row hrow hhash => ?_)
    happroved
  refine Sql.Table.find?_filterRows_of hrow ?_
  rw [hhash]
  exact hkept

/-- One block of a branch. -/
theorem ImportsApproved.importBranchBlock {ic : ImportConfig σ} {start n n' : ImportNode σ}
    {now : String} {queued : QueuedBlock} (h : ImportsApproved ic asked start n)
    (hbacked : BackedIfValid ic asked n queued.block)
    (himport : importBranchBlock ic now n queued = .ok n') :
    ImportsApproved ic asked start n' ∧ KeepsRegistry n n' := by
  obtain ⟨⟨n₁, imported⟩, himported, himport⟩ := bind_eq_ok.mp himport
  obtain ⟨blockHash, -, himport⟩ := bind_eq_ok.mp himport
  cases himport
  obtain ⟨happroved, hregistry, -, -⟩ := h.import hbacked himported
  have hsame : SameImports n₁ { markReorgSourceImported now n₁ blockHash with
      services := ic.acceptTask n₁.services queued.block } := ⟨rfl, rfl, rfl, rfl⟩
  exact ⟨happroved.sameImports hsame, hregistry.trans hsame.registry⟩

/-- A reorganisation to a backed branch. -/
theorem ImportsApproved.reorg {ic : ImportConfig σ} {start n n' : ImportNode σ} {now : String}
    {limit maxDepth : ℤ} (h : ImportsApproved ic asked start n)
    (hbacking : Backing ic asked n (now, .reorg limit maxDepth))
    (hreorg : applyOrphanReorg ic now limit maxDepth n = .ok n') :
    ImportsApproved ic asked start n' := by
  unfold applyOrphanReorg at hreorg
  split at hreorg
  · cases hreorg
    exact h
  next plan hplan =>
  split at hreorg
  · cases hreorg
    exact h
  unfold applySelectedReorg at hreorg
  split at hreorg
  · cases hreorg
  split at hreorg
  · next parent child hparent hchild =>
    obtain ⟨n₁, hremove, hreorg⟩ := bind_eq_ok.mp hreorg
    obtain ⟨n₂, himportParent, hreorg⟩ := bind_eq_ok.mp hreorg
    obtain ⟨n₃, himportChild, hreorg⟩ := bind_eq_ok.mp hreorg
    -- both blocks of the branch have their approval in their proposal
    have hparentBacked := hbacking plan hplan _ List.mem_cons_self parent hparent
    have hchildBacked :=
      hbacking plan hplan _ (List.mem_cons_of_mem _ (List.mem_singleton_self _)) child hchild
    obtain ⟨h₁, hkeeps₁⟩ := h.removeLocalTip hremove
    obtain ⟨h₂, hkeeps₂⟩ :=
      h₁.importBranchBlock (fun hvalid => (hparentBacked hvalid).mono hkeeps₁) himportParent
    -- the approval of the child outlives the import of its parent
    have hkeeps := hkeeps₁.trans hkeeps₂
    obtain ⟨h₃, -⟩ :=
      h₂.importBranchBlock (fun hvalid => (hchildBacked hvalid).mono hkeeps) himportChild
    obtain ⟨_, -, hreorg⟩ := bind_eq_ok.mp hreorg
    obtain ⟨_, -, hreorg⟩ := bind_eq_ok.mp hreorg
    split at hreorg
    · cases hreorg
    · cases hreorg
      exact h₃.sameImports ⟨rfl, rfl, rfl, rfl⟩
  · cases hreorg

/-- A header is queued. -/
theorem ImportsApproved.receive {ic : ImportConfig σ} {start n n' : ImportNode σ} {now : String}
    {block : Value} (h : ImportsApproved ic asked start n)
    (hreceive : receiveBlockHeader ic now n block = .ok n') :
    ImportsApproved ic asked start n' := by
  unfold receiveBlockHeader at hreceive
  dsimp only at hreceive
  split at hreceive
  · cases hreceive
  obtain ⟨height, -, hreceive⟩ := bind_eq_ok.mp hreceive
  split at hreceive
  · cases hreceive
  obtain ⟨blockHash, -, hreceive⟩ := bind_eq_ok.mp hreceive
  obtain ⟨previousHash, -, hreceive⟩ := bind_eq_ok.mp hreceive
  split at hreceive
  · cases hreceive
    exact h.sameImports ⟨rfl, rfl, rfl, rfl⟩
  · obtain ⟨status, -, hreceive⟩ := bind_eq_ok.mp hreceive
    cases hreceive
    exact h.sameImports ⟨rfl, rfl, rfl, rfl⟩

/-- One call. -/
theorem ImportsApproved.step {ic : ImportConfig σ} {start n : ImportNode σ}
    {call : String × ImportCall} (h : ImportsApproved ic asked start n)
    (hbacking : Backing ic asked n call) :
    ImportsApproved ic asked start (ImportCall.step ic n call) := by
  obtain ⟨now, call⟩ := call
  cases call with
  | receive block => exact attempt_of h fun _ hreceive => h.receive hreceive
  | replay limit => exact h.replay hbacking
  | reorg limit maxDepth => exact attempt_of h fun _ hreorg => h.reorg hbacking hreorg

/-- A run that imports only backed blocks imports only approved blocks. -/
theorem approved_of_run (ic : ImportConfig σ) (asked : String → Option JobSubject)
    (start : ImportNode σ) (calls : List (String × ImportCall))
    (h : EachStep (ImportCall.step ic) (Backing ic asked) start calls) :
    ∀ n ∈ states (ImportCall.step ic) start calls, ∀ b ∈ n.blocks,
      b ∈ start.blocks ∨ ApprovedByQuorum ic asked n b := by
  have hstep : ∀ n call, ImportsApproved ic asked start n → Backing ic asked n call →
      ImportsApproved ic asked start (ImportCall.step ic n call) :=
    fun n call h hbacking => h.step hbacking
  exact invariant_of_eachStep hstep calls start (fun b hb => .inl hb) h

/-! ## Two blocks -/

/-- The digest of the only certificate. -/
def localDigest : String := String.ofList (List.replicate 64 'c')

/-- The local network, with two approvals for a block; a block that has all its fields has its hash,
and nothing else is written. -/
def localImports : ImportConfig Unit :=
  { Client.localClient with
    sha256Text := fun _ => localDigest
    requiredValidatorApprovals := 2
    validateBlockHash := fun block =>
      if ["height", "previous_hash", "miner_id", "range_start", "range_end", "algorithm",
          "result_hash", "samples", "timestamp", "block_hash", "reward"].all fun key =>
            (Client.item block key).toOption.isSome then .ok ()
      else refuse 422 "missing block fields"
    ensureRows := fun s _ => .ok s
    settle := fun n _ _ => .ok (n.validatorKeys, n.services)
    settle_keeps := by
      intro n block sourceId settled h id key hkey
      cases h
      exact hkey
    storeJob := fun s _ => .ok s
    removeTip := fun s _ => .ok s
    acceptTask := fun s _ => s
    applyBlocked := fun _ _ => false }

def localBlockHash : String := String.ofList (List.replicate 64 'a')

/-- The first block, with a certificate or without. -/
def localImportBlock (certificate : Value) : Value :=
  .obj [("height", .int 1), ("previous_hash", .str legacyZeroGenesisHash),
    ("miner_id", .str "miner-1"), ("range_start", .int 1), ("range_end", .int 64),
    ("algorithm", .str "bbp_hex_v1"), ("result_hash", .str "result-1"), ("samples", .arr []),
    ("timestamp", .str "2026-05-10T00:00:00+00:00"), ("block_hash", .str localBlockHash),
    ("reward", .float 314160000), ("task_id", .str "task-1"), ("finality_certificate", certificate)]

/-- An approval that carries its validator's key. -/
def localCertificateVote (validatorId key : String) : Value :=
  .obj [("approved", .bool true), ("signature", .str "signed"),
    ("signature_payload", .obj [("approved", .bool true), ("job_id", .str "job-1"),
      ("task_id", .str "task-1"), ("validator_id", .str validatorId)]),
    ("validator_id", .str validatorId), ("validator_public_key", .str key)]

/-- The validators were asked about the result of the block. -/
def localAsked (jobId : String) : Option JobSubject :=
  if jobId = "job-1" then some ⟨"task-1", "miner-1", 1, 64, "bbp_hex_v1", "result-1"⟩ else none

def localCertificateVotes : List Value :=
  [localCertificateVote "validator-1" aliceKey, localCertificateVote "validator-2" bobKey]

def localCertificatePayload : Value :=
  .obj [("block", .obj [("block_hash", .str localBlockHash), ("task_id", .str "task-1")]),
    ("validation", .obj [("approval_count", .int 2), ("job_id", .str "job-1"),
      ("required_approvals", .int 2)])]

def localCertificate : Value :=
  .obj [("approval_count", .int 2), ("block_hash", .str localBlockHash), ("block_height", .int 1),
    ("certificate_hash", .str localDigest), ("job_id", .str "job-1"),
    ("miner_id", .str "miner-1"), ("payload", localCertificatePayload),
    ("required_approvals", .int 2), ("task_id", .str "task-1"),
    ("votes", .arr localCertificateVotes)]

/-- A node without blocks that knows two validators. -/
def localImportNode (headers : Sql.Table String HeaderRow) : ImportNode Unit where
  blocks := []
  certificates := .empty
  headers := headers
  proposals := .empty
  votes := []
  validatorKeys := (Sql.Table.empty.upsert "validator-1" aliceKey).upsert "validator-2" bobKey
  base := none
  services := ()

/-- A queued header with the certified block. -/
def localQueue : Sql.Table String HeaderRow :=
  .upsert .empty localBlockHash
    ⟨1, legacyZeroGenesisHash, .pendingReplay, localImportBlock localCertificate,
      "2026-05-10T00:00:00+00:00"⟩

theorem get_localImportBlock (certificate : Value) :
    Client.get (localImportBlock certificate) "finality_certificate" = .ok certificate := by
  simp [Client.get, localImportBlock, List.lookup_cons]

theorem votes_localCertificate :
    fieldOr localCertificate "votes" (.arr []) = .ok (.arr localCertificateVotes) := by
  simp [fieldOr, Client.get, localCertificate, List.lookup_cons, Client.orElse, Client.truthy,
    localCertificateVotes]

/-- The signed payload approves the job about the block. -/
theorem approves_localImportBlock (validatorId key : String) (certificate : Value) :
    ∃ payload, fieldOr (localCertificateVote validatorId key) "signature_payload" (.obj []) =
        .ok payload ∧ ApprovesBlock localAsked (localImportBlock certificate) payload := by
  refine ⟨.obj [("approved", .bool true), ("job_id", .str "job-1"), ("task_id", .str "task-1"),
      ("validator_id", .str validatorId)], ?_, ?_⟩
  · simp [fieldOr, Client.get, localCertificateVote, List.lookup_cons, Client.orElse,
      Client.truthy]
  · refine ⟨by simp [Client.get], "job-1",
      ⟨"task-1", "miner-1", 1, 64, "bbp_hex_v1", "result-1"⟩,
      by simp [Client.get, List.lookup_cons], if_pos rfl, ?_⟩
    constructor <;> simp [Client.item, localImportBlock, List.lookup_cons]

theorem voter_localCertificateVote (validatorId key : String) :
    Client.get (localCertificateVote validatorId key) "validator_id" = .ok (.str validatorId) ∧
      Client.get (localCertificateVote validatorId key) "validator_public_key" =
        .ok (.str key) := by
  simp [Client.get, localCertificateVote, List.lookup_cons]

/-- The certificate names both validators with their keys. -/
theorem backed_localImportBlock :
    Backed localImports localAsked (localImportNode localQueue)
      (localImportBlock localCertificate) := by
  have hnamed : ∀ id key, (localImportNode localQueue).validatorKeys.find? id = some key →
      localCertificateVote id key ∈ localCertificateVotes →
        NamedBy localAsked (localImportNode localQueue) (localImportBlock localCertificate) id := by
    intro id key hkey hvote
    obtain ⟨payload, hpayload, happroves⟩ := approves_localImportBlock id key localCertificate
    exact ⟨localCertificate, localCertificateVotes, localCertificateVote id key, key, payload,
      get_localImportBlock _, votes_localCertificate, hvote, hpayload, happroves,
      (voter_localCertificateVote id key).1, (voter_localCertificateVote id key).2, hkey⟩
  have hlength : localImports.requiredValidatorApprovals ≤
      ["validator-1", "validator-2"].length := by
    decide +kernel
  refine ⟨["validator-1", "validator-2"], by decide +kernel, hlength, fun id hid => .inl ?_⟩
  rcases List.mem_cons.mp hid with hfirst | hsecond
  · rw [hfirst]
    refine hnamed "validator-1" aliceKey (by decide +kernel) ?_
    exact List.mem_cons_self
  · rw [List.mem_singleton.mp hsecond]
    refine hnamed "validator-2" bobKey (by decide +kernel) ?_
    exact List.mem_cons_of_mem _ (List.mem_singleton_self _)

/-- The certified block is imported with its approvals. -/
theorem approved_import :
    ∃ n ∈ states (ImportCall.step localImports) (localImportNode localQueue)
        [("2026-05-10T00:00:00+00:00", .replay 100)],
      ∃ b ∈ n.blocks, ApprovedByQuorum localImports localAsked n b := by
  have hblocks : (ImportCall.step localImports (localImportNode localQueue)
      ("2026-05-10T00:00:00+00:00", .replay 100)).blocks =
        [⟨1, localBlockHash, "result-1", "task-1"⟩] := by
    decide +kernel
  have hbacking : Backing localImports localAsked (localImportNode localQueue)
      ("2026-05-10T00:00:00+00:00", .replay 100) := by
    refine ⟨fun blockHash row hrow => (nomatch hrow), fun blockHash row hrow _ _ => ?_⟩
    change (Sql.Table.empty.upsert localBlockHash _).find? blockHash = some row at hrow
    rw [Sql.Table.find?_upsert] at hrow
    split at hrow
    · rw [← Option.some.inj hrow]
      exact backed_localImportBlock
    · cases hrow
  have hmember : (⟨1, localBlockHash, "result-1", "task-1"⟩ : ChainBlockRow) ∈
      (ImportCall.step localImports (localImportNode localQueue)
        ("2026-05-10T00:00:00+00:00", .replay 100)).blocks := by
    rw [hblocks]
    exact List.mem_singleton_self _
  have happroved := approved_of_run localImports localAsked (localImportNode localQueue)
    [("2026-05-10T00:00:00+00:00", .replay 100)] ⟨hbacking, trivial⟩ _ (foldl_mem_states _ _ _) _
    hmember
  exact ⟨_, foldl_mem_states _ _ _, _, hmember, happroved.resolve_left List.not_mem_nil⟩

/-- Without a certificate and without votes there is no approval. -/
theorem not_approved {ic : ImportConfig σ} {n : ImportNode σ} {b : ChainBlockRow}
    (hrequired : 0 < ic.requiredValidatorApprovals) (hnone : n.certificates.find? b.height = none)
    (hvotes : n.votes = []) : ¬ApprovedByQuorum ic asked n b := by
  rintro ⟨_, -, -, ids, -, hlength, hids⟩
  cases ids with
  | nil => exact absurd hlength (Nat.not_le.mpr hrequired)
  | cons id rest =>
    rcases hids id List.mem_cons_self with hcertified | hvoted
    · obtain ⟨row, key, hrow, -⟩ := hcertified
      rw [hnone] at hrow
      cases hrow
    · obtain ⟨vote, hvote, -⟩ := hvoted
      rw [hvotes] at hvote
      cases hvote

/-- The node after a peer has sent the block without a certificate, and a replay. -/
def unapprovedRun : ImportNode Unit :=
  [("2026-05-10T00:00:00+00:00", ImportCall.receive (localImportBlock .null)),
    ("2026-05-10T00:00:00+00:00", ImportCall.replay 100)].foldl (ImportCall.step localImports)
      (localImportNode .empty)

/-- A peer sends the block without a certificate, and the replay imports it. -/
theorem unapproved_import :
    ∃ n ∈ states (ImportCall.step localImports) (localImportNode .empty)
        [("2026-05-10T00:00:00+00:00", .receive (localImportBlock .null)),
          ("2026-05-10T00:00:00+00:00", .replay 100)],
      ∃ b ∈ n.blocks, b ∉ (localImportNode .empty).blocks ∧
        ∀ asked, ¬ApprovedByQuorum localImports asked n b := by
  have hblocks : (unapprovedRun.blocks = [⟨1, localBlockHash, "result-1", "task-1"⟩]) := by
    decide +kernel
  have hcertificate : (unapprovedRun.certificates.find? 1).isNone = true := by
    decide +kernel
  have hvotes : unapprovedRun.votes.isEmpty = true := by
    decide +kernel
  refine ⟨unapprovedRun, foldl_mem_states _ _ _, ⟨1, localBlockHash, "result-1", "task-1"⟩, ?_,
    List.not_mem_nil, ?_⟩
  · rw [hblocks]
    exact List.mem_singleton_self _
  · exact fun asked => not_approved (by decide) (Option.isNone_iff_eq_none.mp hcertificate)
      (List.isEmpty_iff.mp hvotes)

end Picoin
