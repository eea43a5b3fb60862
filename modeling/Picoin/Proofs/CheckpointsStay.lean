import Picoin.Services.Checkpoints
import Picoin.Services.LocalMining

/-!
# Checkpoints that stay verifiable

A checkpoint of a height commits to balances and pending rewards of that height, and to nonces,
validators, protocol parameters and retarget events that its verification reads as they are later
on. It verifies for as long as nobody writes into these.

* **`currentCheckpoint`** — the checkpoint that the tables make now;
* **`Stands`** — it is the one that is stored, and then it verifies (`verifyCheckpoint_of_stands`);
* **`TableWrite.Harmless`** — the writes that change nothing of what the checkpoint is made of;
* **`checkpoint_stays_valid`** — through such writes a checkpoint stays verifiable;
* **`checkpoint_goes_stale`** — the next vote of a validator, or the next confirmed transaction, and
  it is reported invalid.
-/

namespace Picoin

open Outcome Run

/-! ## The checkpoint that the tables make -/

/-- The checkpoint of a height as the tables are now, with the recomputed state root. -/
def currentCheckpoint (cfg : Config) (s : NodeState) (height : ℤ) :
    Except SnapshotError Checkpoint :=
  match s.chain.blocks.find? height with
  | none => .error (.state 404 "block not found for checkpoint")
  | some block => do
    let rows ← snapshotRows cfg s height block.timestamp
    let stateRoot ← calculateStateRoot cfg s.ledger height (some block.timestamp)
    return exportCheckpoint cfg s height block stateRoot rows

/-- The stored checkpoint is the one that the tables make. -/
def Stands (cfg : Config) (height : ℤ) (n : CheckpointedNode) : Prop :=
  ∃ cp, n.canonicalCheckpoints.find? height = some cp ∧
    currentCheckpoint cfg n.node height = .ok cp

/-- The state root that the block's row holds, if it holds one, is that of the ledger. -/
def RecordedRootHolds (cfg : Config) (s : NodeState) (height : ℤ) : Prop :=
  ∀ block, s.chain.blocks.find? height = some block →
    blockStateRoot cfg s.ledger height block =
      calculateStateRoot cfg s.ledger height (some block.timestamp)

theorem isSet_hashJson {cfg : Config} (hsha : ∀ fields, cfg.hashJson (.obj fields) ≠ "")
    (height : ℤ) (name : String) (rows : List Json.Value) :
    isSet (some (sectionHash cfg height name rows)) = true :=
  decide_eq_true (hsha _)

/-- A section of a checkpoint that was made of the rows has no issues. -/
theorem Section.issues_commitTo (cfg : Config) (height : ℤ) (name : String)
    (rows : List Json.Value) (otherHash : Option String) (count : ℕ) (hcount : rows.length = count) :
    Section.issues ⟨name, commitTo cfg height name rows, sectionHash cfg height name rows,
      otherHash, count⟩ = [] := by
  have hmatches : Section.matchesHash ⟨name, commitTo cfg height name rows,
      sectionHash cfg height name rows, otherHash, count⟩ = true := by
    unfold Section.matchesHash commitTo
    dsimp only
    rw [decide_eq_true rfl]
    rfl
  have hcounted : (commitTo cfg height name rows).count = some (count : ℤ) :=
    congrArg (fun k : ℕ => some (k : ℤ)) hcount
  unfold Section.issues
  simp only [hmatches, hcounted, if_true, List.append_nil, ite_self]

/-- What is computed for the rows of a checkpoint confirms it. -/
theorem checkpointIssues_exportCheckpoint {cfg : Config}
    (hsha : ∀ fields, cfg.hashJson (.obj fields) ≠ "") (s : NodeState) (height : ℤ)
    (block : BlockRow) (stateRoot : String) (rows : NormalizedSnapshot) :
    checkpointIssues cfg (exportCheckpoint cfg s height block stateRoot rows)
      (unhashedCheckpoint cfg s height block stateRoot rows) rows = [] := by
  let cp := exportCheckpoint cfg s height block stateRoot rows
  have hsections : committedSections cfg cp height rows = rows.sections cfg cp none := by
    refine List.filter_eq_self.mpr fun item hitem => ?_
    have hset := isSet_hashJson hsha height
    unfold NormalizedSnapshot.sections at hitem
    simp only [List.mem_cons, List.not_mem_nil, or_false] at hitem
    rcases hitem with rfl | rfl | rfl | rfl | rfl <;> exact hset _ _
  have hissues : (rows.sections cfg cp none).flatMap Section.issues = [] := by
    refine List.flatMap_eq_nil_iff.mpr fun item hitem => ?_
    unfold NormalizedSnapshot.sections at hitem
    simp only [List.mem_cons, List.not_mem_nil, or_false] at hitem
    rcases hitem with rfl | rfl | rfl | rfl | rfl <;>
      exact Section.issues_commitTo cfg height _ _ _ _ (List.length_map _)
  have htotal : cp.storedTotalUnits = rows.totalBalanceUnits := by
    show (if rows.totalBalanceUnits ≠ 0 then rows.totalBalanceUnits
      else toUnits (canonicalDec rows.totalBalanceUnits)) = rows.totalBalanceUnits
    rw [toUnits_canonicalDec, ite_self]
  have hheight : (unhashedCheckpoint cfg s height block stateRoot rows).height = height := rfl
  unfold checkpointIssues
  dsimp only
  rw [hheight, hsections, hissues]
  simp only [List.append_eq_nil_iff, SnapshotDocument.issueUnless_eq_nil, decide_eq_true_eq]
  exact ⟨⟨⟨⟨⟨⟨⟨⟨rfl, rfl⟩, rfl⟩, rfl⟩, rfl⟩, rfl⟩, htotal⟩, trivial⟩, rfl⟩

/-- A checkpoint that stands is reported valid. -/
theorem verifyCheckpoint_of_stands {cfg : Config}
    (hsha : ∀ fields, cfg.hashJson (.obj fields) ≠ "") {height : ℤ} {n : CheckpointedNode}
    (h : Stands cfg height n) :
    ∃ report, verifyCheckpoint cfg n height = .ok report ∧ report.valid = true := by
  obtain ⟨cp, hstored, hcurrent⟩ := h
  unfold currentCheckpoint at hcurrent
  cases hblock : n.node.chain.blocks.find? height with
  | none =>
    rw [hblock] at hcurrent
    cases hcurrent
  | some block =>
    rw [hblock] at hcurrent
    obtain ⟨rows, hrows, hcurrent⟩ := bind_eq_ok.mp hcurrent
    obtain ⟨stateRoot, hroot, hcurrent⟩ := bind_eq_ok.mp hcurrent
    cases hcurrent
    unfold verifyCheckpoint
    rw [hstored]
    dsimp only
    rw [hblock]
    dsimp only
    rw [hrows, hroot]
    refine ⟨_, rfl, ?_⟩
    unfold CheckpointReport.valid
    dsimp only
    rw [checkpointIssues_exportCheckpoint hsha]
    rfl

/-- A checkpoint that has been made stands. -/
theorem stands_of_created {cfg : Config} {n n' : CheckpointedNode} {height : ℤ}
    (h : createCanonicalCheckpoint cfg n height = .ok n')
    (hroot : RecordedRootHolds cfg n.node height) : Stands cfg height n' := by
  unfold createCanonicalCheckpoint at h
  split at h
  · cases h
  split at h
  · cases h
  next block hblock =>
  obtain ⟨stateRoot, hstateRoot, h⟩ := bind_eq_ok.mp h
  obtain ⟨rows, hrows, h⟩ := bind_eq_ok.mp h
  cases h
  rw [hroot block hblock] at hstateRoot
  refine ⟨_, Sql.Table.find?_upsert_self _ _ _, ?_⟩
  unfold currentCheckpoint
  dsimp only
  rw [Sql.Table.find?_modify, if_pos rfl, hblock, Option.map_some]
  dsimp only
  -- only the state root of the block's row has been written, which no row list reads
  have hrows' : snapshotRows cfg
      { n.node with chain := { n.node.chain with
          blocks := n.node.chain.blocks.modify height fun b =>
            { b with stateRoot := some stateRoot } } } height block.timestamp = .ok rows := hrows
  rw [hrows', hstateRoot]
  rfl

/-! ## What a checkpoint is made of -/

/-- The tables hold the same of what a checkpoint of the height is made of. -/
structure SameReads (cfg : Config) (height : ℤ) (s s' : NodeState) : Prop where
  block : ∀ block, s.chain.blocks.find? height = some block →
    ∃ block', s'.chain.blocks.find? height = some block' ∧ block'.blockHash = block.blockHash ∧
      block'.previousHash = block.previousHash ∧ block'.timestamp = block.timestamp
  entries : ∀ block, s.chain.blocks.find? height = some block →
    s'.ledger.includedEntries height (some block.timestamp) =
      s.ledger.includedEntries height (some block.timestamp)
  nonces : accountNonceSnapshot s'.accountNonces = accountNonceSnapshot s.accountNonces
  validators : validatorSnapshot cfg s'.validators = validatorSnapshot cfg s.validators
  protocolParams : protocolParamsSnapshot cfg s'.chain.protocolParams =
    protocolParamsSnapshot cfg s.chain.protocolParams
  retargetEvents : retargetEventsSnapshot s'.chain.retargetEvents =
    retargetEventsSnapshot s.chain.retargetEvents
  pendingRewards : pendingRewardsSnapshot s'.chain.rewards height =
    pendingRewardsSnapshot s.chain.rewards height

theorem SameReads.refl (cfg : Config) (height : ℤ) (s : NodeState) : SameReads cfg height s s :=
  ⟨fun block h => ⟨block, h, rfl, rfl, rfl⟩, fun _ _ => rfl, rfl, rfl, rfl, rfl, rfl⟩

theorem SameReads.currentCheckpoint {cfg : Config} {height : ℤ} {s s' : NodeState}
    (h : SameReads cfg height s s') {cp : Checkpoint}
    (hcp : Picoin.currentCheckpoint cfg s height = .ok cp) :
    Picoin.currentCheckpoint cfg s' height = .ok cp := by
  unfold Picoin.currentCheckpoint at hcp ⊢
  split at hcp
  · cases hcp
  next block hblock =>
  obtain ⟨block', hblock', hhash, hprevious, htimestamp⟩ := h.block block hblock
  have hentries := h.entries block hblock
  obtain ⟨rows, hrows, hcp⟩ := bind_eq_ok.mp hcp
  obtain ⟨stateRoot, hroot, hcp⟩ := bind_eq_ok.mp hcp
  have hbalances : canonicalBalanceSnapshot s'.ledger height (some block.timestamp) =
      canonicalBalanceSnapshot s.ledger height (some block.timestamp) := by
    unfold canonicalBalanceSnapshot
    rw [hentries]
  -- every section of the snapshot reads the same tables
  have hrows' : snapshotRows cfg s' height block.timestamp = .ok rows := by
    rw [← hrows]
    unfold snapshotRows
    rw [hbalances, h.nonces, h.validators, h.protocolParams, h.retargetEvents, h.pendingRewards]
  have hroot' : calculateStateRoot cfg s'.ledger height (some block.timestamp) =
      .ok stateRoot := by
    rw [← hroot]
    unfold calculateStateRoot
    rw [hbalances]
  have hsame : exportCheckpoint cfg s' height block' stateRoot rows =
      exportCheckpoint cfg s height block stateRoot rows := by
    unfold exportCheckpoint unhashedCheckpoint
    rw [hhash, hprevious, htimestamp, hentries]
  rw [hblock']
  dsimp only
  rw [htimestamp, hrows', hroot']
  show Except.ok (exportCheckpoint cfg s' height block' stateRoot rows) = _
  rw [hsame]
  exact hcp

/-- A checkpoint that stands does so while the tables hold the same. -/
theorem Stands.of_sameReads {cfg : Config} {height : ℤ} {n n' : CheckpointedNode}
    (h : Stands cfg height n) (hreads : SameReads cfg height n.node n'.node)
    (hstored : n'.canonicalCheckpoints.find? height = n.canonicalCheckpoints.find? height) :
    Stands cfg height n' := by
  obtain ⟨cp, hcp, hcurrent⟩ := h
  exact ⟨cp, hstored.trans hcp, hreads.currentCheckpoint hcurrent⟩

/-! ## Writes that a checkpoint survives -/

/-- The columns of a reward that a checkpoint of the height hashes, if the reward is pending. -/
def pendingColumns (height : ℤ) (row : Option RewardRow) : Option RewardRow :=
  (row.filter fun row => row.pendingAt height).map fun row => { row with mature := false }

/-- The write changes nothing that the checkpoint of the height is made of: a ledger entry of a
later block, or of no block and made after the checkpoint's; a nonce that is no larger than the
stored one; a row whose hashed columns are those of the stored one. -/
def TableWrite.Harmless (cfg : Config) (height : ℤ) (n : CheckpointedNode) : TableWrite → Prop
  | .ledgerEntry entry => ∀ block, n.node.chain.blocks.find? height = some block →
    entry.includedAt height (some block.timestamp) = false
  | .confirmedNonce sender nonce => nonce ≤ (n.node.accountNonces.find? sender).getD 0
  | .validator validatorId row =>
    (n.node.validators.find? validatorId).map (fun old =>
        normalizeValidatorSnapshotRow cfg (old.toRaw validatorId)) =
      some (normalizeValidatorSnapshotRow cfg (row.toRaw validatorId))
  | .removeValidator validatorId => n.node.validators.find? validatorId = none
  | .protocolParams id row =>
    (n.node.chain.protocolParams.find? id).map (fun old =>
        normalizeProtocolParamsSnapshotRow cfg (old.toRaw id)) =
      some (normalizeProtocolParamsSnapshotRow cfg (row.toRaw id))
  | .retargetEvent id row =>
    (n.node.chain.retargetEvents.find? id).map (fun old =>
        normalizeRetargetEventSnapshotRow (old.toRaw id)) =
      some (normalizeRetargetEventSnapshotRow (row.toRaw id))
  | .reward id row =>
    pendingColumns height (n.node.chain.rewards.find? id) = pendingColumns height (some row)
  | .block k row => k = height → ∀ block, n.node.chain.blocks.find? height = some block →
    row.blockHash = block.blockHash ∧ row.previousHash = block.previousHash ∧
      row.timestamp = block.timestamp
  | .checkpoint k => k = height → RecordedRootHolds cfg n.node height
  | .other _ _ _ _ => True

/-- A row that reads like the one it replaces changes no reading. -/
theorem find?_upsert_map {κ ρ β : Type*} [DecidableEq κ] {t : Sql.Table κ ρ} {k : κ} {x : ρ}
    {f : κ → ρ → β} (h : (t.find? k).map (f k) = some (f k x)) (k' : κ) :
    ((t.upsert k x).find? k').map (f k') = (t.find? k').map (f k') := by
  rw [Sql.Table.find?_upsert]
  split
  · next heq =>
    rw [heq, Option.map_some, h]
  · rfl

theorem validatorSnapshot_upsert {cfg : Config} {validators : Sql.Table String ValidatorRow}
    {validatorId : String} {row : ValidatorRow}
    (h : (validators.find? validatorId).map (fun old =>
        normalizeValidatorSnapshotRow cfg (old.toRaw validatorId)) =
      some (normalizeValidatorSnapshotRow cfg (row.toRaw validatorId))) :
    validatorSnapshot cfg (validators.upsert validatorId row) = validatorSnapshot cfg validators := by
  let f := fun (id : String) (row : ValidatorRow) => normalizeValidatorSnapshotRow cfg (row.toRaw id)
  exact Sql.Table.mapM_sorted_congr (f := f) (find?_upsert_map (f := f) h)

theorem protocolParamsSnapshot_upsert {cfg : Config} {params : Sql.Table ℤ ProtocolParamsRow}
    {id : ℤ} {row : ProtocolParamsRow}
    (h : (params.find? id).map (fun old =>
        normalizeProtocolParamsSnapshotRow cfg (old.toRaw id)) =
      some (normalizeProtocolParamsSnapshotRow cfg (row.toRaw id))) :
    protocolParamsSnapshot cfg (params.upsert id row) = protocolParamsSnapshot cfg params := by
  let f := fun (id : ℤ) (row : ProtocolParamsRow) =>
    normalizeProtocolParamsSnapshotRow cfg (row.toRaw id)
  exact Sql.Table.mapM_sorted_congr (f := f) (find?_upsert_map (f := f) h)

theorem retargetEventsSnapshot_upsert {events : Sql.Table ℤ RetargetEventRow} {id : ℤ}
    {row : RetargetEventRow}
    (h : (events.find? id).map (fun old => normalizeRetargetEventSnapshotRow (old.toRaw id)) =
      some (normalizeRetargetEventSnapshotRow (row.toRaw id))) :
    retargetEventsSnapshot (events.upsert id row) = retargetEventsSnapshot events := by
  let f := fun (id : ℤ) (row : RetargetEventRow) => normalizeRetargetEventSnapshotRow (row.toRaw id)
  exact Sql.Table.mapM_sorted_congr (f := f) (find?_upsert_map (f := f) h)

/-- The nonces of a checkpoint after a nonce that is no larger than the stored one. -/
theorem accountNonceSnapshot_recordConfirmedNonce {nonces : Sql.Table String ℤ} {sender : String}
    {nonce : ℤ} (h : nonce ≤ (nonces.find? sender).getD 0) :
    accountNonceSnapshot (recordConfirmedNonce nonces sender nonce) =
      accountNonceSnapshot nonces := by
  have hkeys : ∀ t : Sql.Table String ℤ, Sql.KeysIncrease (accountNonceSnapshot t) :=
    fun t => t.sorted_pairwise.sublist List.filter_sublist
  have hmem : ∀ (t : Sql.Table String ℤ) (r : String × ℤ),
      r ∈ accountNonceSnapshot t ↔ t.find? r.1 = some r.2 ∧ 0 < r.2 := by
    intro t r
    unfold accountNonceSnapshot
    rw [List.mem_filter, Sql.Table.mem_sorted, decide_eq_true_eq]
  refine (hkeys _).eq_of_mem_iff (hkeys _) fun r => ?_
  rw [hmem, hmem]
  unfold recordConfirmedNonce
  rw [Sql.Table.find?_upsert]
  split
  · next hsender =>
    rw [hsender]
    cases hstored : nonces.find? sender with
    | some stored =>
      rw [hstored, Option.getD_some] at h
      rw [Option.elim_some, max_eq_right h]
    | none =>
      rw [hstored, Option.getD_none] at h
      rw [Option.elim_none]
      constructor
      · rintro ⟨hnonce, hpos⟩
        have heq := Option.some.inj hnonce
        omega
      · rintro ⟨hnone, -⟩
        cases hnone
  · rfl

/-- The pending rewards of a checkpoint after a write that keeps the hashed columns. -/
theorem pendingRewardsSnapshot_upsert {rewards : Sql.Table ℤ RewardRow} {height id : ℤ}
    {row : RewardRow}
    (h : pendingColumns height (rewards.find? id) = pendingColumns height (some row)) :
    pendingRewardsSnapshot (rewards.upsert id row) height =
      pendingRewardsSnapshot rewards height := by
  let columns := fun r : ℤ × RewardRow => (r.1, { r.2 with mature := false })
  have hsnapshot : ∀ t : Sql.Table ℤ RewardRow, pendingRewardsSnapshot t height =
      (((t.rows.filter fun r => r.2.pendingAt height).map columns).insertionSort fun a b =>
        a.2.maturesAtHeight.getD 0 < b.2.maturesAtHeight.getD 0 ∨
          (a.2.maturesAtHeight.getD 0 = b.2.maturesAtHeight.getD 0 ∧ a.1 ≤ b.1)).mapM
        fun r => normalizePendingRewardSnapshotRow (r.2.toRaw r.1) := by
    intro t
    unfold pendingRewardsSnapshot orderedPendingRewards
    rw [← List.map_insertionSort (fun a b : ℤ × RewardRow =>
      a.2.maturesAtHeight.getD 0 < b.2.maturesAtHeight.getD 0 ∨
        (a.2.maturesAtHeight.getD 0 = b.2.maturesAtHeight.getD 0 ∧ a.1 ≤ b.1)) _ columns _
      fun _ _ _ _ => Iff.rfl, List.mapM_map]
    rfl
  have hrows : ((rewards.upsert id row).rows.filter fun r => r.2.pendingAt height).map columns =
      (rewards.rows.filter fun r => r.2.pendingAt height).map columns := by
    refine Sql.Table.map_filter_upsertRows ?_
    have hpair := congrArg (Option.map fun row : RewardRow => (id, row)) h
    unfold pendingColumns at hpair
    rw [Option.map_map, Option.map_map] at hpair
    exact hpair
  rw [hsnapshot, hsnapshot, hrows]

/-- A row that is not there cannot be deleted. -/
theorem filterRows_of_absent {validators : Sql.Table String ValidatorRow} {validatorId : String}
    (h : validators.find? validatorId = none) :
    (validators.filterRows fun id _ => id ≠ validatorId) = validators := by
  refine Sql.Table.ext (List.filter_eq_self.mpr fun r hr => decide_eq_true fun hid => ?_)
  rw [← hid, Sql.Table.find?_eq_some_iff.mpr hr] at h
  cases h

/-- A harmless write leaves what the checkpoint is made of. -/
theorem TableWrite.Harmless.stands {cfg : Config} {height : ℤ} {n : CheckpointedNode}
    (h : Stands cfg height n) {write : TableWrite} (hwrite : write.Harmless cfg height n) :
    Stands cfg height (write.apply cfg n) := by
  have hrefl := SameReads.refl cfg height n.node
  cases write with
  | ledgerEntry entry =>
    refine h.of_sameReads { hrefl with entries := fun block hblock => ?_ } rfl
    have hout := hwrite block hblock
    show (n.node.ledger.entries ++ [entry]).filter _ = n.node.ledger.entries.filter _
    rw [List.filter_append, List.filter_cons_of_neg (by rw [hout]; exact Bool.false_ne_true),
      List.filter_nil, List.append_nil]
  | confirmedNonce sender nonce =>
    exact h.of_sameReads
      { hrefl with nonces := accountNonceSnapshot_recordConfirmedNonce hwrite } rfl
  | validator validatorId row =>
    exact h.of_sameReads { hrefl with validators := validatorSnapshot_upsert hwrite } rfl
  | removeValidator validatorId =>
    exact h.of_sameReads { hrefl with
      validators := congrArg (validatorSnapshot cfg) (filterRows_of_absent hwrite) } rfl
  | protocolParams id row =>
    exact h.of_sameReads { hrefl with protocolParams := protocolParamsSnapshot_upsert hwrite } rfl
  | retargetEvent id row =>
    exact h.of_sameReads { hrefl with retargetEvents := retargetEventsSnapshot_upsert hwrite } rfl
  | reward id row =>
    exact h.of_sameReads { hrefl with pendingRewards := pendingRewardsSnapshot_upsert hwrite } rfl
  | block k row =>
    refine h.of_sameReads { hrefl with block := fun block hblock => ?_ } rfl
    show ∃ block', (n.node.chain.blocks.upsert k row).find? height = some block' ∧ _
    rw [Sql.Table.find?_upsert]
    split
    · next heq => exact ⟨row, rfl, hwrite heq.symm block hblock⟩
    · exact ⟨block, hblock, rfl, rfl, rfl⟩
  | checkpoint k =>
    refine attempt_of (P := fun n' => Stands cfg height n') h fun n' hcreated => ?_
    -- created again at this height, or at another one
    by_cases hk : k = height
    · rw [hk] at hcreated
      exact stands_of_created hcreated (hwrite hk)
    · unfold createCanonicalCheckpoint at hcreated
      split at hcreated
      · cases hcreated
      split at hcreated
      · cases hcreated
      obtain ⟨stateRoot, -, hcreated⟩ := bind_eq_ok.mp hcreated
      obtain ⟨rows, -, hcreated⟩ := bind_eq_ok.mp hcreated
      cases hcreated
      refine h.of_sameReads { hrefl with block := fun block hblock => ?_ }
        (Sql.Table.find?_upsert_ne _ _ (Ne.symm hk))
      show ∃ block', (n.node.chain.blocks.modify k _).find? height = some block' ∧ _
      rw [Sql.Table.find?_modify_ne _ _ (Ne.symm hk)]
      exact ⟨block, hblock, rfl, rfl, rfl⟩
  | other balances mempool science treasury =>
    exact h.of_sameReads { hrefl with } rfl

/-! ## Every run -/

/-- A checkpoint that has been made for a mined height verifies after every run of harmless
writes. Digests are not empty. -/
theorem checkpoint_stays_valid (cfg : Config) (hsha : ∀ fields, cfg.hashJson (.obj fields) ≠ "")
    (height : ℤ) (n₀ n : CheckpointedNode) (writes : List TableWrite)
    (hcreated : createCanonicalCheckpoint cfg n₀ height = .ok n)
    (hroot : RecordedRootHolds cfg n₀.node height)
    (h : EachStep (TableWrite.apply cfg) (fun n write => write.Harmless cfg height n) n writes) :
    ∀ n' ∈ states (TableWrite.apply cfg) n writes,
      ∃ report, verifyCheckpoint cfg n' height = .ok report ∧ report.valid = true := by
  intro n' hn'
  have hstep : ∀ (n : CheckpointedNode) (write : TableWrite), Stands cfg height n →
      write.Harmless cfg height n → Stands cfg height (write.apply cfg n) := by
    intro n write hstands hwrite
    exact TableWrite.Harmless.stands hstands hwrite
  have hstands := invariant_of_eachStep hstep writes n (stands_of_created hcreated hroot) h n' hn'
  exact verifyCheckpoint_of_stands hsha hstands

/-! ## Checkpoints that go stale -/

/-- How many nonces and validators there are. -/
def sectionCounts (s : NodeState) : ℕ × ℕ :=
  ((accountNonceSnapshot s.accountNonces).length, s.validators.rows.length)

/-- The counts of the rows of a snapshot. -/
theorem snapshotRows_counts {cfg : Config} {s : NodeState} {height : ℤ} {timestamp : String}
    {rows : NormalizedSnapshot} (h : snapshotRows cfg s height timestamp = .ok rows) :
    sectionCounts s = (rows.nonces.length, rows.validators.length) := by
  obtain ⟨balances, -, h⟩ := bind_eq_ok.mp h
  obtain ⟨validators, hvalidators, h⟩ := bind_eq_ok.mp h
  obtain ⟨protocolParams, -, h⟩ := bind_eq_ok.mp h
  obtain ⟨retargetEvents, -, h⟩ := bind_eq_ok.mp h
  obtain ⟨pendingRewards, -, h⟩ := bind_eq_ok.mp h
  cases h
  have hlength : validators.length = s.validators.rows.length := by
    cases hsnapshot : validatorSnapshot cfg s.validators with
    | error e =>
      rw [hsnapshot] at hvalidators
      cases hvalidators
    | ok listed =>
      rw [hsnapshot] at hvalidators
      cases hvalidators
      rw [length_of_mapM hsnapshot]
      exact List.length_insertionSort _ _
  unfold sectionCounts
  rw [hlength]

/-- A checkpoint that stood is reported invalid as soon as there are more or fewer nonces or
validators. -/
theorem invalid_of_sectionCounts {cfg : Config} (hsha : ∀ fields, cfg.hashJson (.obj fields) ≠ "")
    {height : ℤ} {n n' : CheckpointedNode} (h : Stands cfg height n)
    (hstored : n'.canonicalCheckpoints = n.canonicalCheckpoints)
    (hcounts : sectionCounts n'.node ≠ sectionCounts n.node) {report : CheckpointReport}
    (hverify : verifyCheckpoint cfg n' height = .ok report) : report.valid = false := by
  obtain ⟨cp, hcp, hcurrent⟩ := h
  unfold currentCheckpoint at hcurrent
  split at hcurrent
  · cases hcurrent
  next block hblock =>
  obtain ⟨rows, hrows, hcurrent⟩ := bind_eq_ok.mp hcurrent
  obtain ⟨stateRoot, -, hcurrent⟩ := bind_eq_ok.mp hcurrent
  cases hcurrent
  unfold verifyCheckpoint at hverify
  rw [hstored, hcp] at hverify
  dsimp only at hverify
  split at hverify
  · cases hverify
  next block' hblock' =>
  obtain ⟨rows', hrows', hverify⟩ := bind_eq_ok.mp hverify
  obtain ⟨stateRoot', -, hverify⟩ := bind_eq_ok.mp hverify
  cases hverify
  rw [snapshotRows_counts hrows, snapshotRows_counts hrows'] at hcounts
  let stored := exportCheckpoint cfg n.node height block stateRoot rows
  -- a section whose count is another one has an issue
  have hsection : ∀ item ∈ rows'.sections cfg stored none, isSet item.stored.hash = true →
      item.stored.count ≠ some (item.count : ℤ) →
        (committedSections cfg stored height rows').flatMap Section.issues ≠ [] := by
    intro item hitem hset hcount hnone
    have hissues := List.flatMap_eq_nil_iff.mp hnone item (List.mem_filter.mpr ⟨hitem, hset⟩)
    unfold Section.issues at hissues
    rw [if_pos hset, if_neg hcount] at hissues
    exact absurd (List.append_eq_nil_iff.mp hissues).2 (List.cons_ne_nil _ _)
  have hnonempty : (committedSections cfg stored height rows').flatMap Section.issues ≠ [] := by
    have hset := isSet_hashJson hsha height
    by_cases hnonces : rows.nonces.length = rows'.nonces.length
    · have hvalidators : rows.validators.length ≠ rows'.validators.length := by
        intro heq
        rw [hnonces, heq] at hcounts
        exact hcounts rfl
      refine hsection _ (List.mem_cons_of_mem _ List.mem_cons_self) (hset _ _) ?_
      show some (((rows.validators.map validatorJson).length : ℕ) : ℤ) ≠
        some (rows'.validators.length : ℤ)
      rw [List.length_map]
      intro heq
      have hnat := Option.some.inj heq
      omega
    · refine hsection _ List.mem_cons_self (hset _ _) ?_
      show some (((rows.nonces.map nonceJson).length : ℕ) : ℤ) ≠ some (rows'.nonces.length : ℤ)
      rw [List.length_map]
      intro heq
      have hnat := Option.some.inj heq
      omega
  unfold CheckpointReport.valid
  refine Bool.eq_false_iff.mpr fun hempty => ?_
  have hnil := List.isEmpty_iff.mp hempty
  unfold checkpointIssues at hnil
  simp only [List.append_eq_nil_iff] at hnil
  exact hnonempty hnil.1.2

/-! ## A checkpoint of the first block -/

/-- A node with one block, a wallet and a validator. -/
def localFirstBlock : CheckpointedNode where
  node :=
    { localNode [(aliceAddress, 5000000)] with
      validators := .upsert .empty "validator-2" (localValidator bobKey)
      chain :=
        { blocks := .upsert .empty 1
            ⟨"block-1", localConfig.genesisHash, "2026-05-10T00:00:00+00:00", none⟩
          rewards := .empty
          protocolParams := .empty
          retargetEvents := .empty } }
  canonicalCheckpoints := .empty

/-- The node after it has made a checkpoint of the block. -/
def localCheckpointed : CheckpointedNode :=
  attempt (createCanonicalCheckpoint localConfig localFirstBlock 1) localFirstBlock

theorem createCanonicalCheckpoint_local :
    createCanonicalCheckpoint localConfig localFirstBlock 1 = .ok localCheckpointed := by
  have hok : (createCanonicalCheckpoint localConfig localFirstBlock 1).isOk = true := by
    decide +kernel
  unfold localCheckpointed
  cases hcreated : createCanonicalCheckpoint localConfig localFirstBlock 1 with
  | ok n => rfl
  | error e =>
    rw [hcreated] at hok
    cases hok

theorem localConfig_hashJson_ne_empty (fields : List (String × Json.Value)) :
    localConfig.hashJson (.obj fields) ≠ "" := by
  have htext : Json.canonicalJson (.obj fields) ≠ "" := by
    intro h
    have hlist := congrArg String.toList h
    unfold Json.canonicalJson Json.render Json.renderFields at hlist
    rw [String.toList_ofList] at hlist
    cases hlist
  show localSha256Text (Json.canonicalJson (.obj fields)) ≠ ""
  unfold localSha256Text
  split
  · decide
  · split
    · decide
    · exact htext

/-- The second block, with a payment. -/
def localSecondBlock : List TableWrite :=
  [.block 2 ⟨"block-2", "block-1", "2026-05-10T00:01:00+00:00", none⟩,
    .ledgerEntry
      { accountId := bobAddress
        accountType := "wallet"
        amountUnits := 7
        entryType := "transaction_credit"
        blockHeight := some 2
        relatedId := none
        description := none
        createdAt := "2026-05-10T00:01:00+00:00"
        balanceAfterUnits := 7 }]

theorem recordedRootHolds_local : RecordedRootHolds localConfig localFirstBlock.node 1 := by
  intro block hblock
  have hrow : localFirstBlock.node.chain.blocks.find? 1 =
      some ⟨"block-1", localConfig.genesisHash, "2026-05-10T00:00:00+00:00", none⟩ := rfl
  rw [hrow] at hblock
  cases hblock
  rfl

theorem checkpoint_stays_valid_local :
    ∃ report, verifyCheckpoint localConfig
        (localSecondBlock.foldl (TableWrite.apply localConfig) localCheckpointed) 1 = .ok report ∧
      report.valid = true := by
  refine checkpoint_stays_valid localConfig localConfig_hashJson_ne_empty 1 localFirstBlock
    localCheckpointed localSecondBlock createCanonicalCheckpoint_local recordedRootHolds_local
    ⟨fun htwo => absurd htwo (by decide), fun block hblock => rfl, trivial⟩ _ (foldl_mem_states _ _ _)

/-- A second validator registers. -/
def localRegistration : TableWrite := .validator "validator-1" (localValidator aliceKey)

/-- The first transaction of the wallet is confirmed. -/
def localConfirmation : TableWrite := .confirmedNonce aliceAddress 1

/-- The checkpoint verifies when it has been made. It is reported invalid after another validator
has registered, and after the wallet's first transaction has been confirmed. -/
theorem checkpoint_goes_stale :
    createCanonicalCheckpoint localConfig localFirstBlock 1 = .ok localCheckpointed ∧
    (∃ report, verifyCheckpoint localConfig localCheckpointed 1 = .ok report ∧
      report.valid = true) ∧
    (∃ report, verifyCheckpoint localConfig (localRegistration.apply localConfig localCheckpointed) 1
      = .ok report ∧ report.valid = false) ∧
    ∃ report, verifyCheckpoint localConfig (localConfirmation.apply localConfig localCheckpointed) 1
      = .ok report ∧ report.valid = false := by
  have hstands : Stands localConfig 1 localCheckpointed :=
    stands_of_created createCanonicalCheckpoint_local recordedRootHolds_local
  have hsha := localConfig_hashJson_ne_empty
  have hinvalid : ∀ write : TableWrite,
      (verifyCheckpoint localConfig (write.apply localConfig localCheckpointed) 1).isOk = true →
      (write.apply localConfig localCheckpointed).canonicalCheckpoints =
        localCheckpointed.canonicalCheckpoints →
      sectionCounts (write.apply localConfig localCheckpointed).node ≠
        sectionCounts localCheckpointed.node →
      ∃ report, verifyCheckpoint localConfig (write.apply localConfig localCheckpointed) 1 =
        .ok report ∧ report.valid = false := by
    intro write hok hstored hcounts
    cases hverify : verifyCheckpoint localConfig (write.apply localConfig localCheckpointed) 1 with
    | ok report => exact ⟨report, rfl, invalid_of_sectionCounts hsha hstands hstored hcounts hverify⟩
    | error e =>
      rw [hverify] at hok
      cases hok
  refine ⟨createCanonicalCheckpoint_local, verifyCheckpoint_of_stands hsha hstands,
    hinvalid localRegistration ?_ rfl ?_, hinvalid localConfirmation ?_ rfl ?_⟩ <;> decide +kernel

end Picoin
