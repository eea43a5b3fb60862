import Picoin.Proofs.DoubleEntry
import Picoin.Proofs.Replay
import Picoin.Proofs.RewardMaturation

/-!
# A removed tip

The removal of an orphaned tip rebuilds the balances and the nonces from what is left, and deletes
by height. Nothing of it looks at what the block did. It is an undo nevertheless, on a node whose
tables are in step with its height:

* **`InSync`** — nothing is stamped with the height yet, no reward is overdue, and balances and
  nonces are what a rebuild would make of them;
* **`accept_transactions_safe`** — the checks before the removal say that the block had only
  transfers and faucet payments;
* **`rollback_apply`**, **`params_restored`** — a retarget behind the block is taken back, but for a
  row that stays inactive;
* **`removeLocalOrphanTip_restores`** — the node is as it was, and the block's transactions wait
  again;
* **`InSync.accept`**, **`tip_removal_undoes_block`** — blocks keep a node in step, so this holds
  wherever a run of blocks has come to.
-/

namespace Picoin

open Outcome Sql

/-- A row is found after a deletion if it is not one of the deleted. -/
theorem find?_filterRows {κ ρ : Type} [DecidableEq κ] (t : Table κ ρ) (p : κ → ρ → Bool) (k : κ) :
    (t.filterRows p).find? k = (t.find? k).filter (p k) := by
  cases hfind : t.find? k with
  | none =>
    rw [Option.filter_none, Table.find?_eq_none_iff]
    rw [Table.find?_eq_none_iff] at hfind
    intro hmem
    obtain ⟨r, hr, hkey⟩ := List.mem_map.mp hmem
    exact hfind (List.mem_map.mpr ⟨r, (List.mem_filter.mp hr).1, hkey⟩)
  | some x =>
    by_cases hp : p k x = true
    · rw [Option.filter_some, if_pos hp]
      exact Table.find?_filterRows_of hfind hp
    · rw [Option.filter_some, if_neg hp, Table.find?_eq_none_iff]
      intro hmem
      obtain ⟨r, hr, rfl⟩ := List.mem_map.mp hmem
      obtain ⟨hrow, hkept⟩ := List.mem_filter.mp hr
      rw [Table.find?_eq_some_iff.mpr hrow] at hfind
      exact hp (Option.some.inj hfind ▸ hkept)

/-! ## Nonces -/

/-- The numbers of an account. -/
def numbersOf (recorded : Set (String × ℤ)) (a : String) : Set ℤ := {n | (a, n) ∈ recorded}

/-- The table has the largest number of every account. -/
def Records (nonces : Table String ℤ) (recorded : Set (String × ℤ)) : Prop :=
  ∀ a, (nonces.find? a).elim (numbersOf recorded a = ∅) (IsGreatest (numbersOf recorded a))

/-- The recorded numbers determine the table. -/
theorem Records.unique {nonces nonces' : Table String ℤ} {recorded : Set (String × ℤ)}
    (h : Records nonces recorded) (h' : Records nonces' recorded) (a : String) :
    nonces.find? a = nonces'.find? a := by
  have ha := h a
  have ha' := h' a
  cases hfind : nonces.find? a <;> cases hfind' : nonces'.find? a <;> rw [hfind] at ha <;>
    rw [hfind'] at ha'
  case none.some m => exact absurd (ha ▸ ha'.1) (Set.notMem_empty m)
  case some.none m => exact absurd (ha' ▸ ha.1) (Set.notMem_empty m)
  case some.some m m' => rw [IsGreatest.unique ha ha']

/-- A number is recorded for its own account. -/
theorem numbersOf_insert (r : String × ℤ) (recorded : Set (String × ℤ)) (a : String) :
    numbersOf (insert r recorded) a =
      if a = r.1 then insert r.2 (numbersOf recorded a) else numbersOf recorded a := by
  ext n
  split
  · next ha => simp [numbersOf, Prod.ext_iff, ha]
  · next ha => simp [numbersOf, Prod.ext_iff, ha]

/-- Recording a number once more changes nothing else. -/
theorem Records.record {nonces : Table String ℤ} {recorded : Set (String × ℤ)}
    (h : Records nonces recorded) (r : String × ℤ) :
    Records (recordConfirmedNonce nonces r.1 r.2) (insert r recorded) := by
  intro a
  have ha := h a
  unfold recordConfirmedNonce
  rw [Table.find?_upsert, numbersOf_insert]
  by_cases heq : a = r.1
  · rw [if_pos heq, if_pos heq, ← heq]
    cases hold : nonces.find? a with
    | none =>
      rw [hold] at ha
      rw [show numbersOf recorded a = ∅ from ha]
      simp
    | some old =>
      rw [hold] at ha
      exact IsGreatest.insert r.2 ha
  · rw [if_neg heq, if_neg heq]
    exact ha

/-- So it is with several numbers. -/
theorem records_foldl (rs : List (String × ℤ)) {nonces : Table String ℤ}
    {recorded : Set (String × ℤ)} (h : Records nonces recorded) :
    Records (rs.foldl (fun nonces r => recordConfirmedNonce nonces r.1 r.2) nonces)
      (recorded ∪ {r | r ∈ rs}) := by
  induction rs generalizing nonces recorded with
  | nil => simpa using h
  | cons r rest ih =>
    have hset : recorded ∪ {r' | r' ∈ r :: rest} = insert r recorded ∪ {r' | r' ∈ rest} := by
      ext r'
      simp only [Set.mem_union, Set.mem_ofPred_eq, List.mem_cons, Set.mem_insert_iff]
      tauto
    rw [hset]
    exact ih (h.record r)

/-- A rebuild makes the table of the confirmed transactions, where these have positive nonces. -/
theorem records_rebuilt {mempool : Table String MempoolRow}
    (hpositive : ∀ r ∈ confirmedNonces mempool, 0 < r.2) :
    Records (rebuildAccountNonces mempool) {r | r ∈ confirmedNonces mempool} := by
  have hempty : Records .empty ∅ := fun a => Set.eq_empty_iff_forall_notMem.mpr fun _ => id
  have hall := records_foldl (confirmedNonces mempool) hempty
  rw [Set.empty_union] at hall
  intro a
  have ha := hall a
  unfold rebuildAccountNonces
  rw [find?_filterRows]
  cases hfind : ((confirmedNonces mempool).foldl
      (fun nonces r => recordConfirmedNonce nonces r.1 r.2) .empty).find? a with
  | none =>
    rw [hfind] at ha
    exact ha
  | some m =>
    rw [hfind] at ha
    have hm : 0 < m := hpositive (a, m) ha.1
    rw [Option.filter_some, if_pos (decide_eq_true hm)]
    exact ha

/-- The tables are in step with the height of the next block. -/
structure InSync (height : ℤ) (s : NodeState) : Prop where
  doubleEntry : s.ledger.DoubleEntry
  entries : ∀ e ∈ s.ledger.entries, stampedFrom height e.blockHeight = false
  confirmed : ∀ r ∈ s.mempool.rows, r.2.status = .confirmed →
    stampedFrom height r.2.blockHeight = false
  nonces : Records s.accountNonces {r | r ∈ confirmedNonces s.mempool}
  positive : ∀ r ∈ confirmedNonces s.mempool, 0 < r.2
  rewards : ∀ r ∈ s.chain.rewards.rows, r.2.blockHeight < height
  matured : ∀ r ∈ s.chain.rewards.rows, r.2.mature = true →
    stampedFrom height r.2.maturesAtHeight = false
  due : ∀ r ∈ s.chain.rewards.rows, r.2.maturesBy (height - 1) = false
  retarget : ∀ r ∈ s.chain.retargetEvents.rows, r.2.epochEndHeight < height
  active : ∃ id, ∀ r ∈ s.chain.protocolParams.rows, r.2.active = true → r.1 = id

/-- The block's transactions come from rows of the mempool that wait for a block. -/
def RewardedBlock.FromMempool (b : RewardedBlock) (s : NodeState) : Prop :=
  ∀ tx ∈ b.rows, ∃ row, s.mempool.find? tx.txHash = some row ∧ row.tx = tx ∧
    row.status ≠ .confirmed

/-- Two writes to all rows are one. -/
theorem mapRows_mapRows {κ ρ : Type} [DecidableEq κ] (t : Table κ ρ) (f g : κ → ρ → ρ) :
    (t.mapRows f).mapRows g = t.mapRows fun k x => g k (f k x) :=
  Table.ext List.map_map

/-- Writes that agree on the rows agree. -/
theorem mapRows_congr {κ ρ : Type} [DecidableEq κ] {t : Table κ ρ} {f g : κ → ρ → ρ}
    (h : ∀ r ∈ t.rows, f r.1 r.2 = g r.1 r.2) : t.mapRows f = t.mapRows g :=
  Table.ext (List.map_congr_left fun r hr => by rw [h r hr])

/-! ## The mempool -/

/-- The row of a transaction of the block. -/
def MempoolRow.confirm (height : ℤ) (row : MempoolRow) : MempoolRow :=
  { row with status := .confirmed, blockHeight := some height, failureReason := none }

/-- The mempool after a block with these transactions. -/
def confirmRows (height : ℤ) (hashes : List String) (mempool : Table String MempoolRow) :
    Table String MempoolRow :=
  mempool.mapRows fun hash row => if hash ∈ hashes then row.confirm height else row

/-- The transactions of a block leave the mempool. -/
theorem applyBlockTransactions_mempool {cfg : Config} {now : Instant} {ctx : BlockContext}
    {s s' : NodeState} {transactions : List Tx}
    (h : applyBlockTransactions cfg now ctx s transactions = .ok s') :
    s'.mempool = confirmRows ctx.blockHeight (transactions.map Tx.txHash) s.mempool := by
  have hloop : ∀ (transactions : List Tx) (b b' : BlockProgress),
      transactions.foldlM (applyBlockTransaction cfg now ctx) b = .ok b' →
        b'.state.mempool =
          confirmRows ctx.blockHeight (transactions.map Tx.txHash) b.state.mempool := by
    intro transactions
    induction transactions with
    | nil =>
      intro b b' h
      cases h
      exact Table.ext (by simp [confirmRows, Table.mapRows])
    | cons tx rest ih =>
      intro b b' h
      rw [List.foldlM_cons] at h
      obtain ⟨b₁, hstep, hrest⟩ := bind_eq_ok.mp h
      obtain ⟨-, s₁, hexecute, hsettle, -⟩ := applyBlockTransaction_eq_ok hstep
      obtain ⟨l, -, hok⟩ := bind_eq_ok.mp hsettle
      have hone : b₁.state.mempool =
          b.state.mempool.modify tx.txHash (MempoolRow.confirm ctx.blockHeight) := by
        rw [← pure_eq_ok.mp hok, ← (executeTransaction_frame hexecute).2.1]
        rfl
      rw [ih b₁ b' hrest, hone]
      unfold confirmRows Table.modify
      rw [mapRows_mapRows]
      refine mapRows_congr fun r _ => ?_
      by_cases hfirst : r.1 = tx.txHash <;> by_cases hlater : r.1 ∈ rest.map Tx.txHash <;>
        simp [hfirst, hlater, MempoolRow.confirm]
  obtain ⟨b, hfold, rfl⟩ := applyBlockTransactions_eq_ok.mp h
  exact hloop transactions _ b hfold

/-! ## What the checks say -/

section

variable {o : OrphanRemoval} {b : RewardedBlock} {s s' : NodeState}

/-- The checks on the removed block let only transfers and faucet payments through. -/
theorem accept_transactions_safe (ho : o.height = b.height) (hfrom : b.FromMempool s)
    (hmempool : s'.mempool = confirmRows b.height (b.rows.map Tx.txHash) s.mempool)
    (hclear : removalBlockers o s' b.rows.length = []) :
    ∀ tx ∈ b.rows, tx.txType ∈ reorgSafeTxTypes := by
  intro tx htx
  obtain ⟨row, hrow, rfl, -⟩ := hfrom tx htx
  have hlocal := (List.append_eq_nil_iff.mp hclear).1
  have hcount : b.rows.length ≠ 0 := (List.length_pos_of_mem htx).ne'
  unfold reorgSafeLocalTransactionBlockers at hlocal
  rw [if_neg hcount] at hlocal
  have hsafe := List.map_eq_nil_iff.mp (List.append_eq_nil_iff.mp hlocal).2
  rw [List.filter_eq_nil_iff] at hsafe
  -- the row of the transaction is among the rows that are looked at
  have hconfirmed : s'.mempool.find? row.tx.txHash = some (row.confirm b.height) := by
    rw [hmempool, confirmRows, Table.find?_mapRows, hrow, Option.map_some,
      if_pos (List.mem_map_of_mem htx)]
  have hmem : (row.tx.txHash, row.confirm b.height) ∈ s'.mempool.rows.filter fun r =>
      stampedFrom o.height r.2.blockHeight && r.2.status = .confirmed :=
    List.mem_filter.mpr ⟨Table.find?_eq_some_iff.mp hconfirmed, by
      simp [MempoolRow.confirm, stampedFrom, ho]⟩
  have hsupported := hsafe _ hmem
  rw [decide_eq_true_eq, not_not] at hsupported
  exact hsupported

/-- These write their entries at the block's height. -/
theorem transactionPostings_stamped {cfg : Config} {now : Instant} {ctx : BlockContext}
    (s : NodeState) {tx : Tx} (htx : tx.txType ∈ reorgSafeTxTypes) :
    ∀ p ∈ transactionPostings cfg now ctx s tx, p.blockHeight = some ctx.blockHeight := by
  intro p hp
  have htypes : tx.txType = .transfer ∨ tx.txType = .faucet := by
    simpa [reorgSafeTxTypes] using htx
  rcases List.mem_append.mp hp with hkind | hfee
  · unfold kindPostings at hkind
    rcases htypes with htype | htype <;> rw [htype] at hkind <;>
      rcases List.mem_pair.mp hkind with rfl | rfl <;> rfl
  · unfold feeRewardPostings at hfee
    split at hfee
    · cases hfee
    · rw [List.mem_singleton.mp hfee]
      rfl

/-- They leave the validators and the science tables alone. -/
theorem applyBlockTransactions_safe_frame {cfg : Config} {now : Instant} {ctx : BlockContext}
    {transactions : List Tx} (hsafe : ∀ tx ∈ transactions, tx.txType ∈ reorgSafeTxTypes)
    (h : applyBlockTransactions cfg now ctx s transactions = .ok s') :
    s'.validators = s.validators ∧ s'.science = s.science := by
  obtain ⟨b, hloop, rfl⟩ := applyBlockTransactions_eq_ok.mp h
  refine foldlM_relates (fun b b' : BlockProgress =>
      b'.state.validators = b.state.validators ∧ b'.state.science = b.state.science)
    (fun b => ⟨rfl, rfl⟩) (fun h h' => ⟨h'.1.trans h.1, h'.2.trans h.2⟩)
    (fun tx htx b b' hstep => ?_) hloop
  obtain ⟨-, s₁, hexecute, hsettle, -⟩ := applyBlockTransaction_eq_ok hstep
  obtain ⟨l, -, hok⟩ := bind_eq_ok.mp hsettle
  rw [← pure_eq_ok.mp hok]
  have htypes : tx.txType = .transfer ∨ tx.txType = .faucet := by
    simpa [reorgSafeTxTypes] using hsafe tx htx
  unfold executeTransaction at hexecute
  rcases htypes with htype | htype <;> rw [htype] at hexecute <;>
  · obtain ⟨ledger, -, h⟩ := bind_eq_ok.mp hexecute
    rw [← pure_eq_ok.mp h]
    exact ⟨rfl, rfl⟩

/-! ## The effect of a block -/

/-- What the acceptance of such a block does to the tables that the removal restores. -/
structure BlockEffect (rc : RewardConfig) (b : RewardedBlock) (s s' : NodeState) : Prop where
  ledger : Appends (· = some b.height) s.ledger s'.ledger
  mempool : s'.mempool = confirmRows b.height (b.rows.map Tx.txHash) s.mempool
  rewards : ∀ id, s'.chain.rewards.find? id =
    (if id = nextId s.chain.rewards then some ((b.minerReward rc).row rc)
      else s.chain.rewards.find? id).map fun row =>
        if row.maturesBy b.height then { row with mature := true } else row
  protocolParams : s'.chain.protocolParams = s.chain.protocolParams
  retargetEvents : s'.chain.retargetEvents = s.chain.retargetEvents
  validators : s'.validators = s.validators
  science : s'.science.stakeAccounts = s.science.stakeAccounts ∧
    s'.science.jobs = s.science.jobs ∧ s'.science.reserveGovernance = s.science.reserveGovernance

/-- The rewards that mature change ledger and rewards only. -/
theorem matureBlockRewards_frame (height : ℤ) (timestamp : String) (s : NodeState) :
    let s' := matureBlockRewards height timestamp s
    s'.mempool = s.mempool ∧ s'.validators = s.validators ∧ s'.science = s.science ∧
      s'.accountNonces = s.accountNonces ∧
        s'.chain = { s.chain with rewards := s'.chain.rewards } := by
  unfold matureBlockRewards
  generalize maturingRewards s.chain.rewards height = rs
  induction rs generalizing s with
  | nil => exact ⟨rfl, rfl, rfl, rfl, rfl⟩
  | cons r rest ih =>
    obtain ⟨hmempool, hvalidators, hscience, hnonces, hchain⟩ :=
      ih (matureReward height timestamp s r)
    exact ⟨hmempool, hvalidators, hscience, hnonces, hchain⟩

/-- The accrual of the reserve leaves stakes, jobs and governance. -/
theorem recordScienceReserveForBlock_frame {mc : MarketConfig} {now : Instant} {l l' : Ledger}
    {sci sci' : ScienceTables} {height blockReward : ℤ}
    (h : recordScienceReserveForBlock mc now l sci height blockReward = .ok (l', sci')) :
    sci'.stakeAccounts = sci.stakeAccounts ∧ sci'.jobs = sci.jobs ∧
      sci'.reserveGovernance = sci.reserveGovernance := by
  unfold recordScienceReserveForBlock at h
  dsimp only at h
  split at h
  · cases h
    exact ⟨rfl, rfl, rfl⟩
  · obtain ⟨l₁, -, h⟩ := bind_eq_ok.mp h
    cases h
    exact ⟨rfl, rfl, rfl⟩

/-- A block confirms its transactions and leaves all others. -/
theorem payAcceptedBlock_mempool {rc : RewardConfig} (h : payAcceptedBlock rc s b = .ok s') :
    s'.mempool = confirmRows b.height (b.rows.map Tx.txHash) s.mempool := by
  obtain ⟨s₁, hblock, h⟩ := bind_eq_ok.mp h
  obtain ⟨⟨l₂, science⟩, -, h⟩ := bind_eq_ok.mp h
  obtain ⟨⟨treasury, l₃⟩, -, h⟩ := bind_eq_ok.mp h
  rw [← pure_eq_ok.mp h]
  refine (matureBlockRewards_frame b.height b.timestamp.text _).1.trans ?_
  have hmempool := applyBlockTransactions_mempool hblock
  rw [List.map_map] at hmempool
  exact hmempool

/-- It adds the reward of its miner, lets rewards mature, and leaves parameters and retargets. -/
theorem payAcceptedBlock_chain {rc : RewardConfig} (h : payAcceptedBlock rc s b = .ok s') :
    (∀ id, s'.chain.rewards.find? id =
      (if id = nextId s.chain.rewards then some ((b.minerReward rc).row rc)
        else s.chain.rewards.find? id).map fun row =>
          if row.maturesBy b.height then { row with mature := true } else row) ∧
      s'.chain.protocolParams = s.chain.protocolParams ∧
        s'.chain.retargetEvents = s.chain.retargetEvents := by
  obtain ⟨s₁, hblock, h⟩ := bind_eq_ok.mp h
  obtain ⟨⟨l₂, science⟩, -, h⟩ := bind_eq_ok.mp h
  obtain ⟨⟨treasury, l₃⟩, -, h⟩ := bind_eq_ok.mp h
  rw [← pure_eq_ok.mp h]
  have hchain : s₁.chain = (recordMinerBlockReward rc s (b.minerReward rc)).chain :=
    (applyBlockTransactions_mints hblock).2
  obtain ⟨-, -, -, -, hchain'⟩ := matureBlockRewards_frame b.height b.timestamp.text
    { s₁ with
      ledger := b.jobId.elim l₃ fun jobId =>
        applyValidatorRewards rc b.now l₃ s₁.validators b.votes jobId b.height b.params
      science, treasury }
  refine ⟨fun id => ?_, ?_, ?_⟩
  · rw [find?_matureBlockRewards, ← find?_recordMinerBlockReward, ← hchain]
  · rw [hchain']
    show s₁.chain.protocolParams = _
    rw [hchain]
    rfl
  · rw [hchain']
    show s₁.chain.retargetEvents = _
    rw [hchain]
    rfl

/-- What a block of safe transactions does to the node. -/
theorem payAcceptedBlock_effect {rc : RewardConfig}
    (hsafe : ∀ tx ∈ b.rows, tx.txType ∈ reorgSafeTxTypes)
    (h : payAcceptedBlock rc s b = .ok s') : BlockEffect rc b s s' := by
  have hmempool := payAcceptedBlock_mempool h
  obtain ⟨hrewards, hparams, hevents⟩ := payAcceptedBlock_chain h
  have hdecoded : ∀ tx ∈ b.rows.map decodeMempoolTransaction, tx.txType ∈ reorgSafeTxTypes := by
    intro tx htx
    obtain ⟨row, hrow, rfl⟩ := List.mem_map.mp htx
    exact hsafe row hrow
  have hledger := payAcceptedBlock_appends (P := (· = some b.height)) rfl
    (fun s tx htx => transactionPostings_stamped s (hdecoded tx htx)) h
  obtain ⟨s₁, hblock, h⟩ := bind_eq_ok.mp h
  obtain ⟨⟨l₂, science⟩, hscience, h⟩ := bind_eq_ok.mp h
  obtain ⟨⟨treasury, l₃⟩, -, h⟩ := bind_eq_ok.mp h
  rw [← pure_eq_ok.mp h] at hmempool hledger hrewards hparams hevents ⊢
  obtain ⟨hvalidators, hsci⟩ := applyBlockTransactions_safe_frame hdecoded hblock
  have hreserve := recordScienceReserveForBlock_frame hscience
  rw [hsci] at hreserve
  obtain ⟨-, hvalidators', hscience', -⟩ :=
    matureBlockRewards_frame b.height b.timestamp.text
      { s₁ with
        ledger := b.jobId.elim l₃ fun jobId =>
          applyValidatorRewards rc b.now l₃ s₁.validators b.votes jobId b.height b.params
        science, treasury }
  exact ⟨hledger, hmempool, hrewards, hparams, hevents, hvalidators'.trans hvalidators,
    hscience' ▸ hreserve⟩

/-! ## The retarget behind a block -/

section Retarget

variable {plan : RetargetPlan} {c : ChainTables}

/-- A retarget leaves the parameters as they are, or deactivates them behind a new row. -/
theorem find?_params (params : Table ℤ ProtocolParamsRow) (id : ℤ) :
    (plan.params params).1.find? id = plan.newParams.elim (params.find? id) fun row =>
      if id = nextId params then
        some { row with previousProtocolParamsId := some plan.previousId, active := true }
      else (params.find? id).map fun old => { old with active := false } := by
  unfold RetargetPlan.params
  cases plan.newParams with
  | none => rfl
  | some row =>
    rw [Option.elim_some, Table.find?_upsert, Table.find?_mapRows]

/-- The event of the retarget is the only one of its height, so that its rollback removes it and
makes the parameters active that were so before. -/
theorem rollback_apply
    (hevents : ∀ r ∈ c.retargetEvents.rows, r.2.epochEndHeight < o.height)
    (hepoch : plan.event.epochEndHeight = o.height) :
    rollbackReorgRetargetEvents o (plan.apply c) = { c with
      protocolParams := (plan.params c.protocolParams).1.mapRows fun id row =>
        { row with active := id = plan.previousId } } := by
  set event : RetargetEventRow := { plan.event with
    previousProtocolParamsId := some plan.previousId
    newProtocolParamsId := some (plan.params c.protocolParams).2 } with hevent
  have hheight : event.epochEndHeight = o.height := hepoch
  have hrows : (plan.apply c).retargetEvents.rows =
      c.retargetEvents.rows ++ [(nextId c.retargetEvents, event)] :=
    Table.upsertRows_of_none (find?_nextId c.retargetEvents)
  have hnew : (plan.apply c).retargetEvents.rows.filter (fun r => o.height ≤ r.2.epochEndHeight) =
      [(nextId c.retargetEvents, event)] := by
    rw [hrows, List.filter_append, List.filter_eq_nil_iff.mpr, List.nil_append,
      List.filter_cons_of_pos (by simp [hheight]), List.filter_nil]
    intro r hr
    simpa using hevents r hr
  have hold : (plan.apply c).retargetEvents.filterRows
      (fun _ row => row.epochEndHeight < o.height) = c.retargetEvents := by
    refine Table.ext ?_
    unfold Table.filterRows
    dsimp only
    rw [hrows, List.filter_append, List.filter_eq_self.mpr,
      List.filter_cons_of_neg (by simp [hheight]), List.filter_nil, List.append_nil]
    exact fun r hr => decide_eq_true (hevents r hr)
  unfold rollbackReorgRetargetEvents
  dsimp only
  rw [hnew, hold, List.mergeSort_singleton]
  dsimp only
  rw [hevent, Option.elim_some, mapRows_mapRows]
  have hparams : ∀ f : ℤ → ProtocolParamsRow → ProtocolParamsRow,
      (∀ id row, { f id row with active := decide (id = plan.previousId) } =
        { row with active := decide (id = plan.previousId) }) →
      (plan.apply c).protocolParams.mapRows (fun id row =>
        { f id row with active := decide (id = plan.previousId) }) =
          (plan.params c.protocolParams).1.mapRows fun id row =>
            { row with active := decide (id = plan.previousId) } :=
    fun f hf => mapRows_congr fun r _ => hf r.1 r.2
  rw [hparams]
  · rfl
  · intro id row
    split <;> rfl

/-- Of at most one active row, the rollback makes exactly this one active again; a row that the
retarget has added stays inactive. -/
theorem params_restored
    (hactive : (c.protocolParams.find? plan.previousId).any ProtocolParamsRow.active = true)
    (hone : ∃ id, ∀ r ∈ c.protocolParams.rows, r.2.active = true → r.1 = id) :
    let restored := (plan.params c.protocolParams).1.mapRows fun id row =>
      { row with active := decide (id = plan.previousId) }
    (∀ id row, c.protocolParams.find? id = some row → restored.find? id = some row) ∧
      ∀ id row, restored.find? id = some row → c.protocolParams.find? id = none →
        row.active = false := by
  intro restored
  obtain ⟨previous, hprevious, hwas⟩ := (Option.any_eq_true _ _).mp hactive
  obtain ⟨one, hone⟩ := hone
  -- the row that the rollback switches on was the active one
  have honly : plan.previousId = one := hone _ (Table.find?_eq_some_iff.mp hprevious) hwas
  have hflag : ∀ id row, c.protocolParams.find? id = some row →
      decide (id = plan.previousId) = row.active := by
    intro id row hrow
    by_cases hid : id = plan.previousId
    · rw [hid, hprevious] at hrow
      rw [decide_eq_true hid, ← Option.some.inj hrow, hwas]
    · rw [decide_eq_false hid]
      by_contra hne
      exact hid ((hone _ (Table.find?_eq_some_iff.mp hrow) (by simpa using hne)).trans honly.symm)
  have hfind : ∀ id, restored.find? id = ((plan.params c.protocolParams).1.find? id).map fun row =>
      { row with active := decide (id = plan.previousId) } := fun id => Table.find?_mapRows _ _ id
  constructor
  · intro id row hrow
    have hne : id ≠ nextId c.protocolParams := by
      rintro rfl
      rw [find?_nextId] at hrow
      cases hrow
    rw [hfind, find?_params, hrow]
    cases plan.newParams with
    | none => rw [Option.elim_none, Option.map_some, hflag id row hrow]
    | some new =>
      rw [Option.elim_some, if_neg hne, Option.map_some, Option.map_some, hflag id row hrow]
  · -- the row of the retarget stays, switched off
    intro id row hrow hnone
    rw [hfind, find?_params, hnone] at hrow
    cases hnew : plan.newParams with
    | none =>
      rw [hnew] at hrow
      cases hrow
    | some new =>
      rw [hnew, Option.elim_some] at hrow
      split at hrow
      · next hid =>
        cases hrow
        refine decide_eq_false fun heq => ?_
        rw [← heq, hid, find?_nextId] at hprevious
        cases hprevious
      · cases hrow

/-- A retarget changes the tables of the parameters and of its events. -/
theorem maybeRetargetAfterBlock_eq_ok {tc : TipConfig}
    (h : maybeRetargetAfterBlock tc s = .ok s') :
    s' = s ∨ ∃ plan, tc.retarget s = .ok (some plan) ∧
      s' = { s with chain := plan.apply s.chain } := by
  obtain ⟨proposed, hproposed, h⟩ := bind_eq_ok.mp h
  cases proposed with
  | none => exact .inl (pure_eq_ok.mp h).symm
  | some plan => exact .inr ⟨plan, hproposed, (pure_eq_ok.mp h).symm⟩

end Retarget

/-- The accepted block without the audit behind it. -/
def PaidTip (tc : TipConfig) (b : RewardedBlock) (s s₁ s₂ : NodeState) : Prop :=
  payAcceptedBlock tc.toRewardConfig s b = .ok s₁ ∧ maybeRetargetAfterBlock tc s₁ = .ok s₂

/-- A retarget behind the block ends its epoch with it, and the audit that the block triggers
punishes nobody. -/
structure UndisturbedTip (tc : TipConfig) (b : RewardedBlock) (s : NodeState) : Prop where
  epoch : ∀ s₁ plan, payAcceptedBlock tc.toRewardConfig s b = .ok s₁ →
    tc.retarget s₁ = .ok (some plan) → plan.event.epochEndHeight = b.height
  audit : ∀ s₁ s₂, PaidTip tc b s s₁ s₂ → tc.audit b.height s₂ = s₂

/-- A block that is accepted undisturbed is paid, and may be followed by a retarget. -/
theorem acceptTip_eq_ok {tc : TipConfig} (hquiet : UndisturbedTip tc b s)
    (h : acceptTip tc s b = .ok s') : ∃ s₁, PaidTip tc b s s₁ s' := by
  obtain ⟨s₁, hpaid, h⟩ := bind_eq_ok.mp h
  obtain ⟨s₂, hretarget, h⟩ := bind_eq_ok.mp h
  have htip : PaidTip tc b s s₁ s₂ := ⟨hpaid, hretarget⟩
  rw [← pure_eq_ok.mp h, hquiet.audit s₁ s₂ htip]
  exact ⟨s₁, htip⟩

/-! ## The removal -/

/-- What is left of the ledger is what was there before. -/
theorem entries_removed (ho : o.height = b.height)
    (hold : ∀ e ∈ s.ledger.entries, stampedFrom b.height e.blockHeight = false)
    (h : Appends (· = some b.height) s.ledger s'.ledger) :
    (removeLedgerEntries o s'.ledger).entries = s.ledger.entries := by
  obtain ⟨es, hentries, hstamp, -⟩ := h
  show s'.ledger.entries.filter (fun e => !stampedFrom o.height e.blockHeight) = _
  have hkept : s.ledger.entries.filter (fun e => !stampedFrom o.height e.blockHeight) =
      s.ledger.entries :=
    List.filter_eq_self.mpr fun e he => by rw [ho, hold e he, Bool.not_false]
  have hgone : es.filter (fun e => !stampedFrom o.height e.blockHeight) = [] := by
    refine List.filter_eq_nil_iff.mpr fun e he => ?_
    rw [hstamp e he]
    simp [stampedFrom, ho]
  rw [hentries, List.filter_append, hkept, hgone, List.append_nil]

/-- The balances are again the sums of the entries that are left. -/
theorem balanceUnits_removed (hentry : s.ledger.DoubleEntry)
    (hentries : (removeLedgerEntries o s'.ledger).entries = s.ledger.entries) (a : String) :
    (removeLedgerEntries o s'.ledger).balanceUnits a = s.ledger.balanceUnits a := by
  rw [doubleEntry_removeLedgerEntries o s'.ledger a, hentry a, Ledger.accountSum,
    Ledger.accountSum, hentries]

/-- The mempool after the removal: the block's transactions are released. -/
theorem mempool_removed (ho : o.height = b.height)
    (hold : ∀ r ∈ s.mempool.rows, r.2.status = .confirmed →
      stampedFrom b.height r.2.blockHeight = false)
    (hmempool : s'.mempool = confirmRows b.height (b.rows.map Tx.txHash) s.mempool) :
    releaseOrphanedBlockTransactions o s'.mempool = s.mempool.mapRows fun hash row =>
      if hash ∈ b.rows.map Tx.txHash then (row.confirm b.height).release o hash else row := by
  unfold releaseOrphanedBlockTransactions
  rw [hmempool, confirmRows, mapRows_mapRows]
  refine mapRows_congr fun r hr => ?_
  by_cases hmem : r.1 ∈ b.rows.map Tx.txHash
  · have hstamped : stampedFrom o.height (r.2.confirm b.height).blockHeight = true ∧
        (r.2.confirm b.height).status = .confirmed := by
      simp [MempoolRow.confirm, stampedFrom, ho]
    rw [if_pos hmem, if_pos hstamped, if_pos hmem]
  · rw [if_neg hmem, if_neg hmem]
    refine if_neg fun hboth => ?_
    rw [ho, hold r hr hboth.2] at hboth
    exact Bool.false_ne_true hboth.1

/-- A released transaction is not confirmed. -/
theorem MempoolRow.release_status (hash : String) (row : MempoolRow) :
    (row.release o hash).status ≠ .confirmed := by
  unfold MempoolRow.release
  dsimp only
  split <;> exact MempoolStatus.noConfusion

/-- The released transactions were no confirmed ones before the block either. -/
theorem confirmedNonces_released (hfrom : b.FromMempool s) :
    confirmedNonces (s.mempool.mapRows fun hash row =>
      if hash ∈ b.rows.map Tx.txHash then (row.confirm b.height).release o hash else row) =
        confirmedNonces s.mempool := by
  have hrow : ∀ r ∈ s.mempool.rows, r.1 ∈ b.rows.map Tx.txHash → r.2.status ≠ .confirmed := by
    intro r hr hmem
    obtain ⟨tx, htx, heq⟩ := List.mem_map.mp hmem
    obtain ⟨row, hfind, -, hstatus⟩ := hfrom tx htx
    rw [heq, Table.find?_eq_some_iff.mpr hr] at hfind
    rwa [Option.some.inj hfind]
  unfold confirmedNonces Table.mapRows
  dsimp only
  generalize s.mempool.rows = rows at hrow
  induction rows with
  | nil => rfl
  | cons r rest ih =>
    have hrest := ih fun r' hr' => hrow r' (List.mem_cons_of_mem _ hr')
    by_cases hmem : r.1 ∈ b.rows.map Tx.txHash
    · have hold := hrow r List.mem_cons_self hmem
      have hnew := MempoolRow.release_status (o := o) r.1 (r.2.confirm b.height)
      rw [List.map_cons, List.filter_cons_of_neg (by simpa [hmem] using hnew), hrest,
        List.filter_cons_of_neg (by simpa using hold)]
    · by_cases hstatus : r.2.status = .confirmed
      · rw [List.map_cons, List.filter_cons_of_pos (by simpa [hmem] using hstatus), List.map_cons,
          hrest, List.filter_cons_of_pos (by simpa using hstatus), List.map_cons, if_neg hmem]
      · rw [List.map_cons, List.filter_cons_of_neg (by simpa [hmem] using hstatus), hrest,
          List.filter_cons_of_neg (by simpa using hstatus)]

/-- A reward that matures with the block is stamped with its height. -/
theorem RewardRow.maturesBy_pred {row : RewardRow} {height : ℤ}
    (h : row.maturesBy (height - 1) = false) (hmature : row.maturesBy height = true) :
    stampedFrom height row.maturesAtHeight = true := by
  unfold RewardRow.maturesBy at h hmature
  unfold stampedFrom
  cases hat : row.maturesAtHeight with
  | none => simp [hat] at hmature
  | some at' =>
    rw [hat] at h hmature
    simp only [Option.any_some, Bool.and_eq_true, Bool.not_eq_true', decide_eq_true_eq,
      Bool.and_eq_false_iff, Bool.not_eq_false', decide_eq_false_iff_not] at h hmature ⊢
    rcases h with h | h
    · rw [hmature.1] at h
      cases h
    · omega

/-- The reward of the block is gone, and what it made mature is immature again. -/
theorem rewards_removed {rc : RewardConfig} (ho : o.height = b.height) (hs : InSync b.height s)
    (hrewards : ∀ id, s'.chain.rewards.find? id =
      (if id = nextId s.chain.rewards then some ((b.minerReward rc).row rc)
        else s.chain.rewards.find? id).map fun row =>
          if row.maturesBy b.height then { row with mature := true } else row) (id : ℤ) :
    (removeRewards o s'.chain.rewards).find? id = s.chain.rewards.find? id := by
  unfold removeRewards
  rw [find?_filterRows, Table.find?_mapRows, hrewards, ho]
  split
  · next hnew =>
    rw [hnew, find?_nextId, Option.map_some, Option.map_some, Option.filter_some]
    have hheight : ∀ row : RewardRow, row.blockHeight = b.height →
        decide (row.blockHeight < b.height) = false := by
      intro row hrow
      simp [hrow]
    rw [if_neg]
    rw [hheight _ (by split <;> split <;> rfl)]
    exact Bool.false_ne_true
  · cases hrow : s.chain.rewards.find? id with
    | none => rfl
    | some row =>
      have hmem := Table.find?_eq_some_iff.mp hrow
      have hbelow : row.blockHeight < b.height := hs.rewards _ hmem
      have hmatured : row.mature = true → stampedFrom b.height row.maturesAtHeight = false :=
        hs.matured _ hmem
      have hdue : row.maturesBy (b.height - 1) = false := hs.due _ hmem
      rw [Option.map_some, Option.map_some]
      by_cases hmature : row.maturesBy b.height = true
      · -- the block made it mature, and the removal takes that back
        have hstamped := RewardRow.maturesBy_pred hdue hmature
        have himmature : row.mature = false := by
          unfold RewardRow.maturesBy at hmature
          simpa using (Bool.and_eq_true_iff.mp hmature).1
        rw [if_pos hmature, if_pos ⟨rfl, hstamped, hbelow⟩, Option.filter_some,
          if_pos (decide_eq_true hbelow), ← himmature]
      · rw [if_neg hmature, if_neg, Option.filter_some, if_pos (decide_eq_true hbelow)]
        rintro ⟨hm, hstamped, -⟩
        rw [hmatured hm] at hstamped
        cases hstamped

/-- The tables as a removal has to leave them, for the transactions that the block had. -/
structure Restores (o : OrphanRemoval) (b : RewardedBlock) (s s' : NodeState) : Prop where
  entries : s'.ledger.entries = s.ledger.entries
  balances : ∀ a, s'.ledger.balanceUnits a = s.ledger.balanceUnits a
  nonces : ∀ a, s'.accountNonces.find? a = s.accountNonces.find? a
  rewards : ∀ id, s'.chain.rewards.find? id = s.chain.rewards.find? id
  params : ∀ id row, s.chain.protocolParams.find? id = some row →
    s'.chain.protocolParams.find? id = some row
  added : ∀ id row, s'.chain.protocolParams.find? id = some row →
    s.chain.protocolParams.find? id = none → row.active = false
  retargetEvents : s'.chain.retargetEvents = s.chain.retargetEvents
  validators : s'.validators = s.validators
  science : s'.science.stakeAccounts = s.science.stakeAccounts ∧
    s'.science.jobs = s.science.jobs ∧ s'.science.reserveGovernance = s.science.reserveGovernance
  mempool : ∀ hash, s'.mempool.find? hash = (s.mempool.find? hash).map fun row =>
    if hash ∈ b.rows.map Tx.txHash then (row.confirm b.height).release o hash else row

/-- The tables of the chain as a rollback of retargets has to leave them. -/
structure ChainRestored (c c' : ChainTables) : Prop where
  params : ∀ id row, c.protocolParams.find? id = some row →
    c'.protocolParams.find? id = some row
  added : ∀ id row, c'.protocolParams.find? id = some row → c.protocolParams.find? id = none →
    row.active = false
  retargetEvents : c'.retargetEvents = c.retargetEvents
  rewards : c'.rewards = c.rewards

/-- Whether a retarget followed the block or not, its rollback restores the parameters. -/
theorem rollback_restored {tc : TipConfig} {s₁ s₂ : NodeState} (ho : o.height = b.height)
    (hs : InSync b.height s) (hquiet : UndisturbedTip tc b s) (htip : PaidTip tc b s s₁ s₂)
    (blocks : Table ℤ BlockRow) (rewards : Table ℤ RewardRow) :
    ChainRestored { s.chain with blocks, rewards }
      (rollbackReorgRetargetEvents o { s₂.chain with blocks, rewards }) := by
  obtain ⟨hpaid, hretarget⟩ := htip
  obtain ⟨-, hparams, hevents⟩ := payAcceptedBlock_chain hpaid
  have hbelow : ∀ r ∈ s₁.chain.retargetEvents.rows, r.2.epochEndHeight < o.height := by
    rw [hevents, ho]
    exact hs.retarget
  rcases maybeRetargetAfterBlock_eq_ok hretarget with rfl | ⟨plan, hplan, rfl⟩
  · -- without events of the height nothing is rolled back
    have hnone : s₂.chain.retargetEvents.rows.filter (fun r => o.height ≤ r.2.epochEndHeight) =
        [] := List.filter_eq_nil_iff.mpr fun r hr => by simpa using hbelow r hr
    have hkept : rollbackReorgRetargetEvents o { s₂.chain with blocks, rewards } =
        { s₂.chain with blocks, rewards } := by
      unfold rollbackReorgRetargetEvents
      dsimp only
      rw [hnone, List.mergeSort_nil]
    rw [hkept]
    refine ⟨fun id row hrow => ?_, fun id row hrow hnew => ?_, hevents, rfl⟩
    · show s₂.chain.protocolParams.find? id = some row
      rw [hparams]
      exact hrow
    · change s₂.chain.protocolParams.find? id = some row at hrow
      rw [hparams] at hrow
      rw [show s.chain.protocolParams.find? id = none from hnew] at hrow
      cases hrow
  · let c : ChainTables := { s₁.chain with blocks, rewards }
    have hback := rollback_apply (o := o) (c := c) hbelow
      ((hquiet.epoch s₁ plan hpaid hplan).trans ho.symm)
    have hone : ∃ id, ∀ r ∈ c.protocolParams.rows, r.2.active = true → r.1 = id := by
      show ∃ id, ∀ r ∈ s₁.chain.protocolParams.rows, r.2.active = true → r.1 = id
      rw [hparams]
      exact hs.active
    obtain ⟨hold, hnew⟩ := params_restored (c := c) (tc.retarget_active s₁ plan hplan) hone
    have hsame : ∀ id, c.protocolParams.find? id = s.chain.protocolParams.find? id := by
      intro id
      show s₁.chain.protocolParams.find? id = _
      rw [hparams]
    show ChainRestored _ (rollbackReorgRetargetEvents o (plan.apply c))
    rw [hback]
    exact ⟨fun id row hrow => hold id row ((hsame id).trans hrow),
      fun id row hrow hnone => hnew id row hrow ((hsame id).trans hnone), hevents, rfl⟩

/-- **The removal of a tip undoes the block**: on a node in step with the height of an accepted
block, whose transactions came from the mempool, a removal that the checks let through leaves the
ledger, the balances, the nonces, the rewards, the active parameters, the validators and the science
accounts as they were before the block, and releases the block's transactions. -/
theorem removeLocalOrphanTip_restores {tc : TipConfig} (ho : o.height = b.height)
    (hs : InSync b.height s) (hfrom : b.FromMempool s) (hquiet : UndisturbedTip tc b s)
    (h : acceptTip tc s b = .ok s') (hclear : removalBlockers o s' b.rows.length = []) :
    Restores o b s (removeLocalOrphanTip o s') := by
  obtain ⟨s₁, htip⟩ := acceptTip_eq_ok hquiet h
  have hrest : s' = { s₁ with chain := s'.chain } ∧ s'.chain.rewards = s₁.chain.rewards := by
    rcases maybeRetargetAfterBlock_eq_ok htip.2 with rfl | ⟨plan, -, rfl⟩
    · exact ⟨rfl, rfl⟩
    · exact ⟨rfl, rfl⟩
  have hchain := rollback_restored ho hs hquiet htip
    (s'.chain.blocks.filterRows fun height _ => height ≠ o.height)
    (removeRewards o s'.chain.rewards)
  -- the checks and the tables besides the chain are those of the paid block
  have hpaid : removeLocalOrphanTip o s' = { removeLocalOrphanTip o s₁ with
      chain := (removeLocalOrphanTip o s').chain } := by
    conv_lhs => rw [hrest.1]
    conv_rhs => rw [hrest.1]
    rfl
  rw [show removalBlockers o s' b.rows.length = removalBlockers o s₁ b.rows.length by
    rw [hrest.1]
    rfl] at hclear
  have hsafe := accept_transactions_safe ho hfrom (payAcceptedBlock_mempool htip.1) hclear
  have heffect := payAcceptedBlock_effect hsafe htip.1
  have hentries := entries_removed ho hs.entries heffect.ledger
  have hmempool := mempool_removed ho hs.confirmed heffect.mempool
  have hrewards : ∀ id, (removeRewards o s'.chain.rewards).find? id =
      s.chain.rewards.find? id := by
    rw [hrest.2]
    exact rewards_removed ho hs heffect.rewards
  rw [hpaid]
  refine ⟨hentries, balanceUnits_removed hs.doubleEntry hentries, fun a => ?_, fun id => ?_,
    hchain.params, hchain.added, hchain.retargetEvents, heffect.validators, heffect.science,
    fun hash => ?_⟩
  on_goal 2 =>
    show (rollbackReorgRetargetEvents o _).rewards.find? id = _
    rw [hchain.rewards]
    exact hrewards id
  · show (rebuildAccountNonces (releaseOrphanedBlockTransactions o s₁.mempool)).find? a = _
    have hrebuilt := (records_rebuilt hs.positive).unique hs.nonces a
    unfold rebuildAccountNonces at hrebuilt ⊢
    rw [hmempool, confirmedNonces_released hfrom]
    exact hrebuilt
  · show (releaseOrphanedBlockTransactions o s₁.mempool).find? hash = _
    rw [hmempool, Table.find?_mapRows]

/-! ## Staying in step -/

/-- No transaction writes at another height; a claim of the treasury writes at none. -/
theorem transactionPostings_height {cfg : Config} {now : Instant} {ctx : BlockContext}
    (s : NodeState) (tx : Tx) : ∀ p ∈ transactionPostings cfg now ctx s tx,
      p.blockHeight = none ∨ p.blockHeight = some ctx.blockHeight := by
  intro p hp
  have hdebit : ∀ fee entryType description,
      p ∈ feeDebitPostings ctx tx fee entryType description →
        p.blockHeight = none ∨ p.blockHeight = some ctx.blockHeight := by
    intro fee entryType description hmem
    unfold feeDebitPostings at hmem
    split at hmem
    · rw [List.mem_singleton.mp hmem]
      exact .inr rfl
    · cases hmem
  rcases List.mem_append.mp hp with hkind | hfee
  · unfold kindPostings at hkind
    split at hkind
    · rcases List.mem_pair.mp hkind with rfl | rfl <;> exact .inr rfl
    · split at hkind <;> rcases List.mem_pair.mp hkind with rfl | rfl <;> exact .inr rfl
    · split at hkind <;>
      · rcases List.mem_append.mp hkind with hfee | hlegs
        · exact hdebit _ _ _ hfee
        · rcases List.mem_pair.mp hlegs with rfl | rfl <;> exact .inr rfl
    · exact hdebit _ _ _ hkind
    · exact hdebit _ _ _ hkind
    · rcases List.mem_append.mp hkind with hfee | hlegs
      · exact hdebit _ _ _ hfee
      · rcases List.mem_pair.mp hlegs with rfl | rfl <;> exact .inl rfl
    · rcases List.mem_pair.mp hkind with rfl | rfl <;> exact .inr rfl
    · cases hkind
  · unfold feeRewardPostings at hfee
    split at hfee
    · cases hfee
    · rw [List.mem_singleton.mp hfee]
      exact .inr rfl

/-- The nonces of a block's transactions are recorded, and they are positive. -/
theorem applyBlockTransactions_nonces {cfg : Config} {now : Instant} {ctx : BlockContext}
    {transactions : List Tx} (hstored : ∀ a, 0 ≤ (s.accountNonces.find? a).getD 0)
    (h : applyBlockTransactions cfg now ctx s transactions = .ok s') :
    s'.accountNonces = (transactions.map fun tx => (tx.sender, tx.nonce)).foldl
        (fun nonces r => recordConfirmedNonce nonces r.1 r.2) s.accountNonces ∧
      ∀ tx ∈ transactions, 0 < tx.nonce := by
  -- along the loop stored nonces stay non-negative and expected ones positive
  have hloop : ∀ (transactions : List Tx) (b b' : BlockProgress),
      transactions.foldlM (applyBlockTransaction cfg now ctx) b = .ok b' →
        (∀ a, 0 ≤ (b.state.accountNonces.find? a).getD 0) →
          (∀ a n, b.expected a = some n → 0 < n) →
            b'.state.accountNonces = (transactions.map fun tx => (tx.sender, tx.nonce)).foldl
              (fun nonces r => recordConfirmedNonce nonces r.1 r.2) b.state.accountNonces ∧
                ∀ tx ∈ transactions, 0 < tx.nonce := by
    intro transactions
    induction transactions with
    | nil =>
      intro b b' h _ _
      cases h
      exact ⟨rfl, fun tx htx => absurd htx List.not_mem_nil⟩
    | cons tx rest ih =>
      intro b b' h hstored hexpected
      rw [List.foldlM_cons] at h
      obtain ⟨b₁, hstep, hrest⟩ := bind_eq_ok.mp h
      obtain ⟨hpass, s₁, hexecute, hsettle, hnext⟩ := applyBlockTransaction_eq_ok hstep
      have hrecorded : b₁.state.accountNonces =
          recordConfirmedNonce b.state.accountNonces tx.sender tx.nonce := by
        rw [(settleTransaction_eq_ok hsettle).2, (executeTransaction_frame hexecute).1]
      have hpositive : 0 < tx.nonce := by
        -- the least nonce that passes is the one after the confirmed nonce
        have hleast : 0 < expectedNonce b.state b.expected tx.sender := by
          unfold expectedNonce nextSelectableNonce
          cases hfound : b.expected tx.sender with
          | some n => exact hexpected _ n hfound
          | none =>
            have hconfirmed := stored_le_confirmedNonce b.state tx.sender
            have hnonneg := hstored tx.sender
            rw [Option.getD_none]
            omega
        obtain ⟨-, -, -, hnonce, -⟩ := transactionRejectionReason_eq_none.mp hpass
        omega
      have hstored₁ : ∀ a, 0 ≤ (b₁.state.accountNonces.find? a).getD 0 := by
        intro a
        rw [hrecorded, recordConfirmedNonce, Table.find?_upsert]
        split
        · cases b.state.accountNonces.find? tx.sender with
          | none => exact hpositive.le
          | some old => exact hpositive.le.trans (le_max_left _ _)
        · exact hstored a
      have hexpected₁ : ∀ a n, b₁.expected a = some n → 0 < n := by
        intro a n hn
        rw [hnext, ExpectedNonces.set] at hn
        split at hn
        · cases hn
          omega
        · exact hexpected a n hn
      obtain ⟨hnonces, hall⟩ := ih b₁ b' hrest hstored₁ hexpected₁
      refine ⟨?_, List.forall_mem_cons.mpr ⟨hpositive, hall⟩⟩
      rw [hnonces, hrecorded, List.map_cons, List.foldl_cons]
  obtain ⟨b, hfold, rfl⟩ := applyBlockTransactions_eq_ok.mp h
  exact hloop transactions _ b hfold hstored fun a n hn => absurd hn (Option.some_ne_none n).symm

/-- A block records the nonces of its transactions. -/
theorem payAcceptedBlock_nonces {rc : RewardConfig}
    (hstored : ∀ a, 0 ≤ (s.accountNonces.find? a).getD 0) (h : payAcceptedBlock rc s b = .ok s') :
    s'.accountNonces = (b.rows.map fun tx => (tx.sender, tx.nonce)).foldl
        (fun nonces r => recordConfirmedNonce nonces r.1 r.2) s.accountNonces ∧
      ∀ tx ∈ b.rows, 0 < tx.nonce := by
  obtain ⟨s₁, hblock, h⟩ := bind_eq_ok.mp h
  obtain ⟨⟨l₂, science⟩, -, h⟩ := bind_eq_ok.mp h
  obtain ⟨⟨treasury, l₃⟩, -, h⟩ := bind_eq_ok.mp h
  rw [← pure_eq_ok.mp h]
  obtain ⟨hnonces, hpositive⟩ := applyBlockTransactions_nonces
    (s := recordMinerBlockReward rc s (b.minerReward rc)) hstored hblock
  rw [List.map_map] at hnonces
  exact ⟨(matureBlockRewards_frame b.height b.timestamp.text _).2.2.2.1.trans hnonces,
    fun tx htx => hpositive (decodeMempoolTransaction tx) (List.mem_map_of_mem htx)⟩

/-- The confirmed transactions after a block are those before it, and the block's. -/
theorem mem_confirmedNonces_confirmRows (hfrom : b.FromMempool s) (r : String × ℤ) :
    r ∈ confirmedNonces (confirmRows b.height (b.rows.map Tx.txHash) s.mempool) ↔
      r ∈ confirmedNonces s.mempool ∨ r ∈ b.rows.map fun tx => (tx.sender, tx.nonce) := by
  have hmem : ∀ mempool : Table String MempoolRow, r ∈ confirmedNonces mempool ↔
      ∃ hash row, mempool.find? hash = some row ∧ row.status = .confirmed ∧
        (row.tx.sender, row.tx.nonce) = r := by
    intro mempool
    simp only [confirmedNonces, List.mem_map, List.mem_filter, Prod.exists,
      Table.find?_eq_some_iff, decide_eq_true_eq, and_assoc]
  rw [hmem, hmem]
  constructor
  · rintro ⟨hash, row, hrow, hstatus, hr⟩
    rw [confirmRows, Table.find?_mapRows] at hrow
    obtain ⟨old, hold, rfl⟩ := Option.map_eq_some_iff.mp hrow
    by_cases hblock : hash ∈ b.rows.map Tx.txHash
    · obtain ⟨tx, htx, rfl⟩ := List.mem_map.mp hblock
      obtain ⟨row, hfind, rfl, -⟩ := hfrom tx htx
      rw [hold] at hfind
      rw [if_pos hblock, Option.some.inj hfind] at hr
      exact .inr (List.mem_map.mpr ⟨row.tx, htx, hr⟩)
    · rw [if_neg hblock] at hstatus hr
      exact .inl ⟨hash, old, hold, hstatus, hr⟩
  · rintro (⟨hash, row, hrow, hstatus, hr⟩ | hr)
    · refine ⟨hash, if hash ∈ b.rows.map Tx.txHash then row.confirm b.height else row, ?_, ?_, ?_⟩
      · rw [confirmRows, Table.find?_mapRows, hrow, Option.map_some]
      · split
        · rfl
        · exact hstatus
      · split <;> exact hr
    · obtain ⟨tx, htx, rfl⟩ := List.mem_map.mp hr
      obtain ⟨row, hfind, rfl, -⟩ := hfrom tx htx
      refine ⟨row.tx.txHash, row.confirm b.height, ?_, rfl, rfl⟩
      rw [confirmRows, Table.find?_mapRows, hfind, Option.map_some,
        if_pos (List.mem_map_of_mem htx)]

/-- In step, no stored nonce is negative. -/
theorem InSync.stored_nonneg {height : ℤ} (hs : InSync height s) (a : String) :
    0 ≤ (s.accountNonces.find? a).getD 0 := by
  have ha := hs.nonces a
  cases hfind : s.accountNonces.find? a with
  | none => exact le_rfl
  | some m =>
    rw [hfind] at ha
    exact (hs.positive (a, m) ha.1).le

/-- What is stamped below a height is stamped below the next. -/
theorem stampedFrom_succ {height : ℤ} {blockHeight : Option ℤ}
    (h : stampedFrom height blockHeight = false) : stampedFrom (height + 1) blockHeight = false := by
  cases blockHeight with
  | none => rfl
  | some at' =>
    simp only [stampedFrom, Option.any_some, decide_eq_false_iff_not] at h ⊢
    omega

/-- A reward of the block, or an earlier one, as the block leaves it. -/
theorem rewards_accepted {rc : RewardConfig} (h : payAcceptedBlock rc s b = .ok s')
    {r : ℤ × RewardRow} (hr : r ∈ s'.chain.rewards.rows) :
    ∃ row, (row = (b.minerReward rc).row rc ∨ (r.1, row) ∈ s.chain.rewards.rows) ∧
      r.2 = if row.maturesBy b.height then { row with mature := true } else row := by
  have hfind := (payAcceptedBlock_chain h).1 r.1
  rw [Table.find?_eq_some_iff.mpr hr] at hfind
  obtain ⟨row, hrow, heq⟩ := Option.map_eq_some_iff.mp hfind.symm
  refine ⟨row, ?_, heq.symm⟩
  split at hrow
  · exact .inl (Option.some.inj hrow).symm
  · exact .inr (Table.find?_eq_some_iff.mp hrow)

/-- The coins of a block keep a node in step. -/
theorem InSync.pay {rc : RewardConfig} (hs : InSync b.height s) (hfrom : b.FromMempool s)
    (h : payAcceptedBlock rc s b = .ok s') : InSync (b.height + 1) s' := by
  have hmempool := payAcceptedBlock_mempool h
  obtain ⟨hnonces, hpositive⟩ := payAcceptedBlock_nonces hs.stored_nonneg h
  have hconfirmed : {r | r ∈ confirmedNonces s'.mempool} = {r | r ∈ confirmedNonces s.mempool} ∪
      {r | r ∈ b.rows.map fun tx => (tx.sender, tx.nonce)} := by
    ext r
    rw [hmempool]
    exact mem_confirmedNonces_confirmRows hfrom r
  have hat : stampedFrom (b.height + 1) (some b.height) = false := by simp [stampedFrom]
  have hledger := payAcceptedBlock_appends
    (P := fun height => stampedFrom (b.height + 1) height = false) hat
    (fun s tx _ p hp => by
      rcases transactionPostings_height s tx p hp with hheight | hheight <;> rw [hheight]
      · rfl
      · exact hat) h
  refine ⟨hledger.doubleEntry hs.doubleEntry, ?_, ?_, ?_, ?_, ?_, ?_, ?_, ?_, ?_⟩
  · -- the entries: the old ones are below the block, the new ones bear its height
    obtain ⟨es, hentries, hstamp, -⟩ := hledger
    intro e he
    rw [hentries] at he
    rcases List.mem_append.mp he with hold | hnew
    · exact stampedFrom_succ (hs.entries e hold)
    · exact hstamp e hnew
  · -- the rows of the mempool: those of the block bear its height as well
    intro r hr hstatus
    rw [hmempool] at hr
    obtain ⟨old, hold, rfl⟩ := List.mem_map.mp hr
    dsimp only at hstatus ⊢
    by_cases hblock : old.1 ∈ b.rows.map Tx.txHash
    · rw [if_pos hblock]
      exact hat
    · rw [if_neg hblock] at hstatus ⊢
      exact stampedFrom_succ (hs.confirmed old hold hstatus)
  · -- the nonces: the block records the same pairs that its rows confirm
    rw [hconfirmed, hnonces]
    exact records_foldl _ hs.nonces
  · -- a nonce is positive, as the block checks that of each transaction
    intro r hr
    have hr : r ∈ {r | r ∈ confirmedNonces s'.mempool} := hr
    rw [hconfirmed] at hr
    rcases hr with hold | hnew
    · exact hs.positive r hold
    · obtain ⟨tx, htx, rfl⟩ := List.mem_map.mp hnew
      exact hpositive tx htx
  · -- no reward is of a block above this one
    intro r hr
    obtain ⟨row, hrow, heq⟩ := rewards_accepted h hr
    have hheight : r.2.blockHeight = row.blockHeight := by
      rw [heq]
      split <;> rfl
    rw [hheight]
    rcases hrow with rfl | hold
    · exact lt_add_one b.height
    · exact (hs.rewards _ hold).trans (lt_add_one _)
  · -- a mature reward matured at this block or before it
    intro r hr hmature
    obtain ⟨row, hrow, heq⟩ := rewards_accepted h hr
    rw [heq] at hmature ⊢
    by_cases hmatures : row.maturesBy b.height = true
    · rw [if_pos hmatures]
      have hreached := (RewardRow.maturesBy_iff.mp hmatures).2
      cases hat' : row.maturesAtHeight with
      | none => rfl
      | some height =>
        rw [hat', Option.any_some, decide_eq_true_eq] at hreached
        simp only [stampedFrom, Option.any_some, decide_eq_false_iff_not]
        omega
    · rw [if_neg hmatures] at hmature ⊢
      rcases hrow with rfl | hold
      · -- without a depth the reward is mature from the start
        have hdepth : rc.blockMaturityDepth = 0 := of_decide_eq_true hmature
        simp [MinerReward.row, RewardedBlock.minerReward, stampedFrom, hdepth]
      · exact stampedFrom_succ (hs.matured _ hold hmature)
  · intro r hr
    obtain ⟨row, -, heq⟩ := rewards_accepted h hr
    rw [heq, add_sub_cancel_right]
    by_cases hmatures : row.maturesBy b.height = true
    · rw [if_pos hmatures]
      rfl
    · rw [if_neg hmatures]
      exact Bool.not_eq_true _ ▸ hmatures
  · intro r hr
    rw [(payAcceptedBlock_chain h).2.2] at hr
    exact (hs.retarget r hr).trans (lt_add_one _)
  · rw [(payAcceptedBlock_chain h).2.1]
    exact hs.active

/-- After a retarget one row of the parameters is active. -/
theorem one_active {plan : RetargetPlan} {params : Table ℤ ProtocolParamsRow}
    (hone : ∃ id, ∀ r ∈ params.rows, r.2.active = true → r.1 = id) :
    ∃ id, ∀ r ∈ (plan.params params).1.rows, r.2.active = true → r.1 = id := by
  cases hnew : plan.newParams with
  | none =>
    rwa [show (plan.params params).1 = params by unfold RetargetPlan.params; rw [hnew]]
  | some row =>
    refine ⟨nextId params, fun r hr hactive => ?_⟩
    have hfind := Table.find?_eq_some_iff.mpr hr
    rw [find?_params, hnew, Option.elim_some] at hfind
    split at hfind
    · next hid => exact hid
    · obtain ⟨old, -, heq⟩ := Option.map_eq_some_iff.mp hfind
      rw [← heq] at hactive
      cases hactive

/-- **Staying in step**: a node in step with a block's height is in step with the next height after
the block. -/
theorem InSync.accept {tc : TipConfig} (hs : InSync b.height s) (hfrom : b.FromMempool s)
    (hquiet : UndisturbedTip tc b s) (h : acceptTip tc s b = .ok s') :
    InSync (b.height + 1) s' := by
  obtain ⟨s₁, hpaid, hretarget⟩ := acceptTip_eq_ok hquiet h
  have hs₁ := hs.pay hfrom hpaid
  rcases maybeRetargetAfterBlock_eq_ok hretarget with rfl | ⟨plan, hplan, rfl⟩
  · exact hs₁
  · refine { hs₁ with retarget := fun r hr => ?_, active := one_active hs₁.active }
    have hfind := Table.find?_eq_some_iff.mpr hr
    rw [show ({ s₁ with chain := plan.apply s₁.chain } : NodeState).chain.retargetEvents =
      (plan.apply s₁.chain).retargetEvents from rfl, RetargetPlan.apply,
      Table.find?_upsert] at hfind
    split at hfind
    · rw [← Option.some.inj hfind]
      show plan.event.epochEndHeight < _
      rw [hquiet.epoch s₁ plan hpaid hplan]
      exact lt_add_one _
    · exact hs₁.retarget r (Table.find?_eq_some_iff.mp hfind)

end

/-! ## Runs -/

/-- A turn of a node: the mempool as other calls have left it, and the block of the next height. -/
structure BlockTurn where
  mempool : Table String MempoolRow
  block : RewardedBlock

/-- The tables that the block of a turn is accepted on. -/
def BlockTurn.before (n : ℤ × NodeState) (turn : BlockTurn) : NodeState :=
  { n.2 with mempool := turn.mempool }

/-- A turn of a node with the next height; a block that raises is rolled back. -/
def BlockTurn.step (tc : TipConfig) (n : ℤ × NodeState) (turn : BlockTurn) : ℤ × NodeState :=
  Run.attempt ((acceptTip tc (turn.before n) turn.block).map fun s => (n.1 + 1, s)) n

/-- The block has the next height, its transactions wait in the mempool, and the mempool has lost
and gained no confirmed transaction; a retarget ends its epoch with the block, and an audit behind it
punishes nobody. -/
structure BlockTurn.Fits (tc : TipConfig) (n : ℤ × NodeState) (turn : BlockTurn) : Prop where
  height : turn.block.height = n.1
  mempool : turn.block.FromMempool (turn.before n)
  confirmed : (turn.mempool.rows.filter fun r => r.2.status = .confirmed) =
    n.2.mempool.rows.filter fun r => r.2.status = .confirmed
  quiet : UndisturbedTip tc turn.block (turn.before n)

/-- Transactions that are not confirmed do not matter. -/
theorem InSync.before {tc : TipConfig} {n : ℤ × NodeState} {turn : BlockTurn}
    (hn : InSync n.1 n.2) (hturn : turn.Fits tc n) : InSync turn.block.height (turn.before n) := by
  rw [hturn.height]
  have hnonces : confirmedNonces turn.mempool = confirmedNonces n.2.mempool := by
    unfold confirmedNonces
    rw [hturn.confirmed]
  refine { hn with confirmed := fun r hr hstatus => ?_, nonces := ?_, positive := ?_ }
  · have hmem : r ∈ turn.mempool.rows.filter fun r => r.2.status = .confirmed :=
      List.mem_filter.mpr ⟨hr, decide_eq_true hstatus⟩
    rw [hturn.confirmed] at hmem
    exact hn.confirmed r (List.mem_filter.mp hmem).1 hstatus
  · show Records n.2.accountNonces {r | r ∈ confirmedNonces turn.mempool}
    rw [hnonces]
    exact hn.nonces
  · show ∀ r ∈ confirmedNonces turn.mempool, 0 < r.2
    rw [hnonces]
    exact hn.positive

/-- A turn preserves it. -/
theorem inSync_step {tc : TipConfig} {n : ℤ × NodeState} {turn : BlockTurn}
    (hn : InSync n.1 n.2) (hturn : turn.Fits tc n) :
    InSync (turn.step tc n).1 (turn.step tc n).2 := by
  refine Run.attempt_of (P := fun n : ℤ × NodeState => InSync n.1 n.2) hn fun n' h => ?_
  cases haccept : acceptTip tc (turn.before n) turn.block with
  | error e =>
    rw [haccept] at h
    cases h
  | ok s' =>
    rw [haccept] at h
    cases h
    show InSync (n.1 + 1) s'
    rw [← hturn.height]
    exact (hn.before hturn).accept hturn.mempool hturn.quiet haccept

/-- A new node is in step with the first block. -/
theorem inSync_localNode (allocations : List (String × ℤ)) :
    InSync 1 (localNode allocations) := by
  have hstamps : ∀ (allocations : List (String × ℤ)) (l : Ledger),
      (∀ e ∈ l.entries, e.blockHeight = none) →
        ∀ e ∈ (allocations.foldl (fun l a => allocate l a.1 a.2) l).entries,
          e.blockHeight = none := by
    intro allocations
    induction allocations with
    | nil => exact fun l hl => hl
    | cons item rest ih =>
      refine fun l hl => ih _ fun e he => ?_
      rcases List.mem_append.mp he with hold | hnew
      · exact hl e hold
      · rw [List.mem_singleton.mp hnew]
  refine ⟨doubleEntry_localNode allocations, fun e he => ?_, fun r hr => (nomatch hr), fun a => ?_,
    fun r hr => (nomatch hr), fun r hr => (nomatch hr), fun r hr => (nomatch hr),
    fun r hr => (nomatch hr), fun r hr => (nomatch hr), ⟨0, fun r hr => (nomatch hr)⟩⟩
  · rw [hstamps allocations ⟨.empty, []⟩ (fun e he => (nomatch he)) e he]
    rfl
  · exact Set.eq_empty_iff_forall_notMem.mpr fun n hn => (nomatch hn)

/-- A task has a name. -/
theorem taskName_ne : "task" ≠ "" := by decide

/-- A node with alice's coins and active parameters. -/
def localStart : NodeState :=
  { localNode [(aliceAddress, 5000)] with
    chain := { (localNode []).chain with protocolParams := .upsert .empty 1 localParamsRow } }

/-- It holds of the local node before its first block. -/
theorem inSync_localStart : InSync 1 localStart :=
  { inSync_localNode [(aliceAddress, 5000)] with
    active := ⟨1, fun r hr _ => by rw [List.mem_singleton.mp hr]⟩ }

/-- A retarget after every second block halves the segments. -/
def localRetarget? (s : NodeState) : Option RetargetPlan :=
  if s.chain.rewards.rows.length % 2 = 0 ∧
      (s.chain.protocolParams.find? 1).any ProtocolParamsRow.active then
    some
      { previousId := 1
        newParams := some { localParamsRow with segmentSize := 32 }
        event :=
          { previousProtocolParamsId := none
            newProtocolParamsId := none
            epochStartHeight := 1
            epochEndHeight := s.chain.rewards.rows.length
            epochBlockCount := s.chain.rewards.rows.length
            averageBlockMs := ⟨1200, 0⟩
            targetBlockMs := 60000
            oldDifficulty := ⟨1, 0⟩
            newDifficulty := ⟨1, 0⟩
            adjustmentFactor := ⟨1, 0⟩
            action := "decrease_segment"
            reason := "average block time above target"
            createdAt := "2026-05-10T00:00:00+00:00" } }
  else none

def localTip : TipConfig :=
  { localRewards with
    retarget := fun s => .ok (localRetarget? s)
    retarget_active := by
      intro s plan h
      have hplan := Except.ok.inj h
      unfold localRetarget? at hplan
      split at hplan
      · next hactive =>
        rw [← Option.some.inj hplan]
        exact hactive.2
      · cases hplan
    audit := fun _ s => s }

/-- Where the coins of a block have been paid, a retarget can be looked at. -/
theorem undisturbed_localTip {b : RewardedBlock} {s : NodeState}
    (h : returns (payAcceptedBlock localRewards s b) (fun s₁ => (localRetarget? s₁).all fun plan =>
      plan.event.epochEndHeight = b.height) = true) : UndisturbedTip localTip b s where
  epoch s₁ plan hpaid hplan := by
    obtain ⟨s', hs', hheight⟩ := exists_of_returns h
    rw [show payAcceptedBlock localRewards s b = .ok s₁ from hpaid] at hs'
    cases hs'
    rw [Except.ok.inj hplan, Option.all_some] at hheight
    exact of_decide_eq_true hheight
  audit _ _ _ := rfl

/-- Alice sends bob a part of her coins. -/
def aliceTransfer : Tx :=
  signTransaction localConfig
    (aliceRequest .transfer 1 200 1000 (some bobAddress) {} (.ofInstant 0))

/-- A block of the given height with transactions of the mempool. -/
def localTurn (height : ℤ) (transactions : List Tx) : BlockTurn where
  mempool := transactions.foldl
    (fun mempool tx => mempool.upsert tx.txHash ⟨tx, .selected, none, none⟩) .empty
  block := { localRewardedBlock "task" taskName_ne height ⟨31416, 4⟩ with rows := transactions }

/-- The node after its first block. -/
def afterFirstBlock : ℤ × NodeState := [localTurn 1 []].foldl (BlockTurn.step localTip) (1, localStart)

/-- The local blocks fit the node. -/
theorem fits_localTurn {n : ℤ × NodeState} {height : ℤ} {transactions : List Tx}
    (hheight : n.1 = height)
    (hfrom : (localTurn height transactions).block.FromMempool ((localTurn height transactions).before n))
    (hconfirmed : ((localTurn height transactions).mempool.rows.filter fun r =>
      r.2.status = .confirmed) = n.2.mempool.rows.filter fun r => r.2.status = .confirmed)
    (hquiet : UndisturbedTip localTip (localTurn height transactions).block
      ((localTurn height transactions).before n)) :
    (localTurn height transactions).Fits localTip n :=
  ⟨hheight.symm, hfrom, hconfirmed, hquiet⟩

/-- The coins of a block with signed transactions, without looking at the signatures. -/
theorem payAcceptedBlock_of_signed {rc : RewardConfig} {b : RewardedBlock} (s : NodeState)
    (hsigned : ∀ tx ∈ b.rows.map decodeMempoolTransaction,
      isSignatureValid rc.toConfig tx = true) :
    payAcceptedBlock rc s b = (do
      let totalBlockReward := round8 b.params.baseReward
      let s := recordMinerBlockReward rc s (b.minerReward rc)
      let s ← applySignedTransactions rc.toConfig b.now b.context s
        (b.rows.map decodeMempoolTransaction)
      let (ledger, science) ← recordScienceReserveForBlock rc.toMarketConfig b.now s.ledger
        s.science b.height totalBlockReward
      let (treasury, ledger) ← recordScientificDevelopmentTreasuryForBlock rc.toConfig b.now
        s.treasury ledger b.height totalBlockReward
      let ledger := b.jobId.elim ledger fun jobId =>
        applyValidatorRewards rc b.now ledger s.validators b.votes jobId b.height b.params
      return matureBlockRewards b.height b.timestamp.text { s with ledger, science, treasury }) := by
  unfold payAcceptedBlock
  dsimp only
  rw [applyBlockTransactions_of_signed hsigned]

/-- The transfer is signed. -/
theorem signed_aliceTransfer : ∀ tx ∈ [aliceTransfer].map decodeMempoolTransaction,
    isSignatureValid localRewards.toConfig tx = true := by
  intro tx htx
  obtain ⟨row, hrow, rfl⟩ := List.mem_map.mp htx
  rw [List.mem_singleton.mp hrow, aliceTransfer, decodeMempoolTransaction_signTransaction]
  exact isSignatureValid_aliceRequest ..

/-- The second block pays the transfer, can be removed again, and has a retarget behind it. -/
theorem second_block_paid :
    returns (payAcceptedBlock localRewards
      ((localTurn 2 [aliceTransfer]).before afterFirstBlock) (localTurn 2 [aliceTransfer]).block)
      (fun s₁ => (localRetarget? s₁).isSome ∧
        (localRetarget? s₁).all (fun plan => plan.event.epochEndHeight = 2) ∧
        removalBlockers ⟨2, "", "", fun _ => ""⟩ s₁ 1 = []) = true := by
  rw [payAcceptedBlock_of_signed _ signed_aliceTransfer]
  decide +kernel

end Picoin
