import Picoin.Proofs.ImportedSupply
import Picoin.Proofs.PaidJobs
import Picoin.Proofs.SnapshotRestore
import Picoin.Services.OrphanReorg

/-!
# Double entry

Six services write coins, each with a writer of its own, and two procedures replace the balances as
a whole. Whatever is called, a balance stays the sum of the entries of its account:

* **`Appends`** — what the writers have in common: entries are appended, and credited;
* **`LedgerCall`** — the calls that write coins: a block is accepted or imported, a worker is paid,
  the treasury is claimed, an orphaned tip is removed, a snapshot is restored;
* **`balances_equal_entries`** — the balances of every state that such a run reaches.
-/

namespace Picoin

open Json Outcome Decimal Sql

/-- Every balance is the sum of the account's entries. -/
def Ledger.DoubleEntry (l : Ledger) : Prop := ∀ a, l.balanceUnits a = l.accountSum a

/-- `_account_balance_mismatches`, on units: the accounts whose row is not the sum of the entries. -/
def accountBalanceMismatches (l : Ledger) : List String :=
  ((l.balances.rows.filter fun r => r.2.balanceUnits ≠ l.accountSum r.1).map Prod.fst).mergeSort
    (· ≤ ·)

/-- `valid` of `_basic_audit_health`, on units. -/
def basicAuditHealth (l : Ledger) : Bool :=
  accountBalanceMismatches l = [] && (l.entries.map fun e => e.amountUnits).sum = l.totalUnits

theorem Ledger.accountSum_eq (l : Ledger) (a : String) :
    l.accountSum a = postedTo (l.entries.map LedgerEntry.toPosting) a := by
  unfold Ledger.accountSum total postedTo
  rw [List.map_map, List.map_map]
  rfl

/-- The entries of accounts without a row add up to nothing. -/
theorem Ledger.DoubleEntry.sum_entries {l : Ledger} (h : l.DoubleEntry) :
    (l.entries.map fun e => e.amountUnits).sum = l.totalUnits := by
  let keys := (l.entries.map fun e => e.accountId).toFinset ∪ (l.balances.rows.map Prod.fst).toFinset
  have hentries : (l.entries.map fun e => e.amountUnits).sum = ∑ a ∈ keys, l.balanceUnits a := by
    have hkeys : ∀ r ∈ l.entries.map fun e => (e.accountId, e.amountUnits), r.1 ∈ keys := by
      intro r hr
      obtain ⟨e, he, rfl⟩ := List.mem_map.mp hr
      exact Finset.mem_union_left _ (List.mem_toFinset.mpr (List.mem_map_of_mem he))
    have hlog := sum_eq_sum_total hkeys fun _ => True
    simp only [if_true, List.map_map, Function.comp_def] at hlog
    rw [hlog]
    exact Finset.sum_congr rfl fun a _ => (h a).symm
  have hrows : l.totalUnits = ∑ a ∈ (l.balances.rows.map Prod.fst).toFinset, l.balanceUnits a := by
    rw [List.sum_toFinset _ l.balances.nodup]
    unfold Ledger.totalUnits Table.sum
    rw [List.map_map]
    refine congrArg List.sum (List.map_congr_left fun r hr => ?_)
    simp [Ledger.balanceUnits, Table.find?_eq_some_iff.mpr hr]
  rw [hentries, hrows]
  -- an account without a row has the balance zero
  refine (Finset.sum_subset Finset.subset_union_right fun a _ hnone => ?_).symm
  have hfind : l.balances.find? a = none :=
    Table.find?_eq_none_iff.mpr fun hmem => hnone (List.mem_toFinset.mpr hmem)
  simp [Ledger.balanceUnits, hfind]

/-- The audit of such a ledger finds nothing. -/
theorem Ledger.DoubleEntry.audit {l : Ledger} (h : l.DoubleEntry) : basicAuditHealth l = true := by
  have hnone : (l.balances.rows.filter fun r => r.2.balanceUnits ≠ l.accountSum r.1) = [] := by
    refine List.filter_eq_nil_iff.mpr fun r hr => ?_
    have hbalance : r.2.balanceUnits = l.accountSum r.1 := by
      rw [← h r.1]
      simp [Ledger.balanceUnits, Table.find?_eq_some_iff.mpr hr]
    simp [hbalance]
  unfold basicAuditHealth accountBalanceMismatches
  rw [hnone, h.sum_entries]
  simp

/-! ## Appended entries -/

/-- `l'` is `l` with entries that are credited, all of them stamped as the condition says. -/
def Appends (P : Option ℤ → Prop) (l l' : Ledger) : Prop :=
  ∃ es : List LedgerEntry, l'.entries = l.entries ++ es ∧ (∀ e ∈ es, P e.blockHeight) ∧
    ∀ a, l'.balanceUnits a = l.balanceUnits a + postedTo (es.map LedgerEntry.toPosting) a

namespace Appends

variable {P : Option ℤ → Prop} {l l₁ l' : Ledger} {ps : List Posting}

theorem refl (l : Ledger) : Appends P l l :=
  ⟨[], (List.append_nil _).symm, by simp, by simp⟩

theorem trans (h : Appends P l l₁) (h' : Appends P l₁ l') : Appends P l l' := by
  obtain ⟨es, hentries, hstamp, hbalance⟩ := h
  obtain ⟨es', hentries', hstamp', hbalance'⟩ := h'
  refine ⟨es ++ es', by rw [hentries', hentries, List.append_assoc], fun e he => ?_, fun a => ?_⟩
  · rcases List.mem_append.mp he with hold | hnew
    · exact hstamp e hold
    · exact hstamp' e hnew
  · rw [hbalance', hbalance, List.map_append, postedTo_append, add_assoc]

theorem mono {P' : Option ℤ → Prop} (h : Appends P l l')
    (himp : ∀ height, P height → P' height) : Appends P' l l' := by
  obtain ⟨es, hentries, hstamp, hbalance⟩ := h
  exact ⟨es, hentries, fun e he => himp _ (hstamp e he), hbalance⟩

theorem of_posts (h : Posts l l' ps) (hps : ∀ p ∈ ps, P p.blockHeight) :
    Appends P l l' := by
  obtain ⟨es, hentries, rfl⟩ := h.entries
  exact ⟨es, hentries, fun e he => hps e.toPosting (List.mem_map_of_mem he), h.balance⟩

theorem of_write (l : Ledger) (rowType : String) {p : Posting} (hp : P p.blockHeight) :
    Appends P l (l.write rowType p) := by
  refine ⟨[⟨p, l.balanceUnits p.accountId + p.amountUnits⟩], rfl, by simpa using hp, fun a => ?_⟩
  rw [Ledger.balanceUnits_write]
  simp

theorem of_credits (hps : ∀ p ∈ ps, P p.blockHeight) (l : Ledger) :
    Appends P l (ps.foldl creditLedgerEntry l) := by
  induction ps generalizing l with
  | nil => exact refl l
  | cons p rest ih =>
    exact (of_write l _ (hps p List.mem_cons_self)).trans
      (ih (fun q hq => hps q (List.mem_cons_of_mem _ hq)) _)

/-- A row without coins. -/
theorem of_ensure (l : Ledger) (accountId accountType : String) :
    Appends P l (ensureBalanceAccount l accountId accountType) :=
  ⟨[], (List.append_nil _).symm, by simp, (Written.of_ensure l accountId accountType).balance⟩

theorem doubleEntry (h : Appends P l l') (hl : l.DoubleEntry) : l'.DoubleEntry := by
  obtain ⟨es, hentries, -, hbalance⟩ := h
  intro a
  rw [hbalance, hl a, Ledger.accountSum_eq, Ledger.accountSum_eq, hentries, List.map_append,
    postedTo_append]

end Appends

/-! ## The writers -/

section

variable {P : Option ℤ → Prop} {height : ℤ}

theorem recordMinerBlockReward_appends (rc : RewardConfig) (s : NodeState) {r : MinerReward}
    (hr : P (some r.blockHeight)) :
    Appends P s.ledger (recordMinerBlockReward rc s r).ledger := by
  have hensure := Appends.of_ensure (P := P) s.ledger r.accountId r.accountType
  unfold recordMinerBlockReward
  dsimp only
  split
  · exact hensure.trans (.of_write _ _ hr)
  · exact hensure

theorem matureBlockRewards_appends (hheight : P (some height)) (timestamp : String)
    (s : NodeState) : Appends P s.ledger (matureBlockRewards height timestamp s).ledger := by
  unfold matureBlockRewards
  generalize maturingRewards s.chain.rewards height = rs
  induction rs generalizing s with
  | nil => exact .refl _
  | cons r rest ih =>
    have hone : Appends P s.ledger (matureReward height timestamp s r).ledger := by
      unfold matureReward
      dsimp only
      split
      · exact .refl _
      · exact .of_write _ _ hheight
    exact hone.trans (ih (matureReward height timestamp s r))

/-- The transactions of a block, whatever their claims of the treasury are stamped with. -/
theorem applyBlockTransactions_appends {cfg : Config} {now : Instant} {ctx : BlockContext}
    {s s' : NodeState} {transactions : List Tx}
    (hstamp : ∀ s : NodeState, ∀ tx ∈ transactions, ∀ p ∈ transactionPostings cfg now ctx s tx,
      P p.blockHeight)
    (h : applyBlockTransactions cfg now ctx s transactions = .ok s') :
    Appends P s.ledger s'.ledger := by
  obtain ⟨b, hloop, rfl⟩ := applyBlockTransactions_eq_ok.mp h
  exact foldlM_relates (fun b b' : BlockProgress => Appends P b.state.ledger b'.state.ledger)
    (fun b => .refl _) (fun h h' => h.trans h')
    (fun tx htx b b' hstep => .of_posts (applyBlockTransaction_posts hstep) (hstamp _ tx htx)) hloop

theorem recordScienceReserveForBlock_appends {mc : MarketConfig} {now : Instant} {l l' : Ledger}
    {sci sci' : ScienceTables} {blockReward : ℤ} (hheight : P (some height))
    (h : recordScienceReserveForBlock mc now l sci height blockReward = .ok (l', sci')) :
    Appends P l l' := by
  unfold recordScienceReserveForBlock at h
  dsimp only at h
  split at h
  · cases h
    exact .refl l
  · obtain ⟨l₁, hpost, h⟩ := bind_eq_ok.mp h
    cases h
    exact .of_posts (applyScienceLedgerEntry_posts hpost) (by simpa using hheight)

theorem recordScientificDevelopmentTreasuryForBlock_appends {cfg : Config} {now : Instant}
    {t t' : TreasuryTables} {l l' : Ledger} {blockReward : ℤ} (hheight : P (some height))
    (h : recordScientificDevelopmentTreasuryForBlock cfg now t l height blockReward =
      .ok (t', l')) : Appends P l l' := by
  unfold recordScientificDevelopmentTreasuryForBlock at h
  dsimp only at h
  split at h
  · cases h
    exact .refl l
  · obtain ⟨l₁, hpost, h⟩ := bind_eq_ok.mp h
    cases h
    exact .of_posts (applyLedgerEntry_posts hpost) (by simpa using hheight)

/-- A block that is accepted writes at its height, given that its transactions do. -/
theorem payAcceptedBlock_appends {rc : RewardConfig} {s s' : NodeState} {b : RewardedBlock}
    (hheight : P (some b.height))
    (hstamp : ∀ s : NodeState, ∀ tx ∈ b.rows.map decodeMempoolTransaction,
      ∀ p ∈ transactionPostings rc.toConfig b.now b.context s tx, P p.blockHeight)
    (h : payAcceptedBlock rc s b = .ok s') : Appends P s.ledger s'.ledger := by
  obtain ⟨s₁, hblock, h⟩ := bind_eq_ok.mp h
  obtain ⟨⟨l₂, science⟩, hscience, h⟩ := bind_eq_ok.mp h
  obtain ⟨⟨treasury, l₃⟩, htreasury, h⟩ := bind_eq_ok.mp h
  rw [← pure_eq_ok.mp h]
  have hminer := recordMinerBlockReward_appends rc s (r := b.minerReward rc) hheight
  have hpaid : Appends P l₃ (b.jobId.elim l₃ fun jobId =>
      applyValidatorRewards rc b.now l₃ s₁.validators b.votes jobId b.height b.params) := by
    cases b.jobId with
    | none => exact .refl _
    | some jobId =>
      refine .of_credits (fun p hp => ?_) l₃
      unfold validatorRewardPostings at hp
      dsimp only at hp
      split at hp
      · cases hp
      · obtain ⟨part, -, rfl⟩ := List.mem_map.mp hp
        exact hheight
  exact hminer.trans <| (applyBlockTransactions_appends hstamp hblock).trans <|
    (recordScienceReserveForBlock_appends hheight hscience).trans <|
    (recordScientificDevelopmentTreasuryForBlock_appends hheight htreasury).trans <|
    hpaid.trans (matureBlockRewards_appends hheight b.timestamp.text _)

end

/-- An import writes entries and credits them. -/
theorem payImportedBlock_appends {pc : ImportRewardConfig} {s s' : NodeState} {b : ImportedBlock}
    (h : payImportedBlock pc s b = .ok s') : Appends (fun _ => True) s.ledger s'.ledger := by
  obtain ⟨minerUnits, -, h⟩ := bind_eq_ok.mp h
  obtain ⟨account, -, h⟩ := bind_eq_ok.mp h
  obtain ⟨minerId, -, h⟩ := bind_eq_ok.mp h
  obtain ⟨s₁, htransactions, h⟩ := bind_eq_ok.mp h
  obtain ⟨s₂, haccrue, h⟩ := bind_eq_ok.mp h
  obtain ⟨s₃, hvalidators, h⟩ := bind_eq_ok.mp h
  rw [← pure_eq_ok.mp h]
  have hminer := recordMinerBlockReward_appends (P := fun _ => True) pc.toRewardConfig s
    (r := b.minerReward minerId account minerUnits) trivial
  -- each part of the payment appends its own postings
  have hexecuted : Appends (fun _ => True)
      (recordMinerBlockReward pc.toRewardConfig s (b.minerReward minerId account minerUnits)).ledger
      s₁.ledger := by
    obtain ⟨transactions, -, h⟩ := bind_eq_ok.mp htransactions
    split at h
    · obtain ⟨decoded, -, h⟩ := bind_eq_ok.mp h
      exact applyBlockTransactions_appends (fun _ _ _ _ _ => trivial) (mapError_eq_ok.mp h)
    · rw [← pure_eq_ok.mp h]
      exact .refl _
  have haccrued : Appends (fun _ => True) s₁.ledger s₂.ledger := by
    obtain ⟨⟨l₁, science⟩, hscience, h⟩ := bind_eq_ok.mp haccrue
    obtain ⟨⟨treasury, l₂⟩, htreasury, h⟩ := bind_eq_ok.mp h
    rw [← pure_eq_ok.mp h]
    exact (recordScienceReserveForBlock_appends trivial (mapError_eq_ok.mp hscience)).trans
      (recordScientificDevelopmentTreasuryForBlock_appends trivial (mapError_eq_ok.mp htreasury))
  have hpaid : Appends (fun _ => True) s₂.ledger s₃.ledger := by
    obtain ⟨rewards, -, h⟩ := bind_eq_ok.mp (mapError_eq_ok.mp hvalidators)
    cases rewards with
    | none =>
      rw [← pure_eq_ok.mp h]
      exact .refl _
    | some r =>
      refine foldlM_relates (fun s s' : NodeState => Appends (fun _ => True) s.ledger s'.ledger)
        (fun s => .refl _) (fun h h' => h.trans h') (fun part _ s s' hstep => ?_) h
      obtain ⟨address, -, h⟩ := bind_eq_ok.mp hstep
      rw [← pure_eq_ok.mp h]
      exact .of_write _ _ trivial
  exact hminer.trans <| hexecuted.trans <| haccrued.trans <| hpaid.trans
    (matureBlockRewards_appends trivial b.timestamp.text s₃)

/-! ## Balances that are replaced -/

theorem balanceUnits_filterRows_nonzero (balances : Sql.Table String BalanceRow)
    (entries entries' : List LedgerEntry) (a : String) :
    Ledger.balanceUnits ⟨balances.filterRows fun _ row => row.balanceUnits ≠ 0, entries⟩ a =
      Ledger.balanceUnits ⟨balances, entries'⟩ a := by
  unfold Ledger.balanceUnits
  dsimp only
  cases hrow : balances.find? a with
  | none =>
    have hnone : (balances.filterRows fun _ row => row.balanceUnits ≠ 0).find? a = none := by
      rw [Sql.Table.find?_eq_none_iff] at hrow ⊢
      intro hmem
      obtain ⟨r, hr, hkey⟩ := List.mem_map.mp hmem
      exact hrow (List.mem_map.mpr ⟨r, (List.mem_filter.mp hr).1, hkey⟩)
    rw [hnone]
  | some row =>
    by_cases hzero : row.balanceUnits = 0
    · cases hkept : (balances.filterRows fun _ row => row.balanceUnits ≠ 0).find? a with
      | none => simp [hzero]
      | some row' =>
        have hmem := (List.mem_filter.mp (Sql.Table.find?_eq_some_iff.mp hkept)).1
        rw [Sql.Table.find?_eq_some_iff.mpr hmem] at hrow
        rw [Option.some.inj hrow]
    · rw [Sql.Table.find?_filterRows_of hrow (by simpa using hzero)]

/-- The rebuilt balances are the sums of the entries. -/
theorem balanceUnits_rebuilt (entries entries' : List LedgerEntry) (a : String) :
    Ledger.balanceUnits ⟨rebuildBalancesFromLedger entries, entries'⟩ a =
      postedTo (entries.map LedgerEntry.toPosting) a := by
  have hfold : ∀ (entries : List LedgerEntry) (balances : Sql.Table String BalanceRow),
      Ledger.balanceUnits ⟨entries.foldl addToBalance balances, entries'⟩ a =
        Ledger.balanceUnits ⟨balances, entries'⟩ a +
          postedTo (entries.map LedgerEntry.toPosting) a := by
    intro entries
    induction entries with
    | nil => intro balances; simp
    | cons e rest ih =>
      intro balances
      rw [List.foldl_cons, ih, List.map_cons, postedTo_cons, ← add_assoc]
      congr 1
      unfold addToBalance Ledger.balanceUnits
      dsimp only
      rw [Sql.Table.find?_upsert]
      by_cases heq : a = e.accountId
      · rw [if_pos heq, if_pos heq.symm, heq]
        cases balances.find? e.accountId <;> simp
      · rw [if_neg heq, if_neg (Ne.symm heq), add_zero]
  unfold rebuildBalancesFromLedger
  rw [balanceUnits_filterRows_nonzero _ entries' entries', hfold]
  exact zero_add _

theorem doubleEntry_removeLedgerEntries (o : OrphanRemoval) (l : Ledger) :
    (removeLedgerEntries o l).DoubleEntry := by
  intro a
  rw [Ledger.accountSum_eq]
  exact balanceUnits_rebuilt _ _ a

/-- Inserted rows follow those that were there. -/
theorem rows_of_insertAll? {κ ρ : Type} [DecidableEq κ] {rows : List (κ × ρ)}
    {t t' : Table κ ρ} (h : t.insertAll? rows = some t') : t'.rows = t.rows ++ rows := by
  induction rows generalizing t with
  | nil =>
    cases h
    exact (List.append_nil _).symm
  | cons r rest ih =>
    obtain ⟨t₁, hfirst, hrest⟩ := Option.bind_eq_some_iff.mp h
    obtain ⟨hnone, rfl⟩ := Table.insert?_eq_some_iff.mp hfirst
    have hrows : (t.upsert r.1 r.2).rows = t.rows ++ [r] := Table.upsertRows_of_none hnone
    rw [ih hrest, hrows, List.append_assoc, List.singleton_append]

theorem total_of_nodup {rows : List (String × BalanceRow)} (hrows : (rows.map Prod.fst).Nodup)
    (a : String) : total (rows.map fun item => (item.1, item.2.balanceUnits)) a =
      ((rows.lookup a).map BalanceRow.balanceUnits).getD 0 := by
  induction rows with
  | nil => rfl
  | cons r rest ih =>
    obtain ⟨hr, hrest⟩ := List.nodup_cons.mp hrows
    rw [List.map_cons, total_cons, ih hrest]
    by_cases heq : r.1 = a
    · have hnone : rest.lookup a = none := Table.lookup_eq_none_iff.mpr (heq ▸ hr)
      rw [if_pos heq, hnone, ← heq, List.lookup_cons_self]
      simp
    · rw [if_neg heq, Table.lookup_cons_ne (Ne.symm heq), zero_add]

theorem doubleEntry_restoreRows {timestamp : String} {s s' : NodeState} {cp : Checkpoint}
    {rows : RestoredRows} (h : restoreRows timestamp s cp rows = .ok s') :
    s'.ledger.DoubleEntry := by
  obtain ⟨balances, hbalances, h⟩ := bind_eq_ok.mp h
  obtain ⟨nonces, -, h⟩ := bind_eq_ok.mp h
  obtain ⟨protocolParams, -, h⟩ := bind_eq_ok.mp h
  obtain ⟨retargetEvents, -, h⟩ := bind_eq_ok.mp h
  obtain ⟨rewards, -, h⟩ := bind_eq_ok.mp h
  rw [← pure_eq_ok.mp h]
  have hrows : balances.rows = rows.balances := rows_of_insertAll? (insertRows_eq_ok.mp hbalances)
  intro a
  show ((balances.rows.lookup a).map BalanceRow.balanceUnits).getD 0 =
    total ((restoredEntries rows cp timestamp).map fun e => (e.accountId, e.amountUnits)) a
  rw [total_restoredEntries_accountId, hrows, total_of_nodup (hrows ▸ balances.nodup)]

/-! ## Runs -/

/-- The calls that write coins, and what else may happen in between. -/
inductive LedgerCall where
  | accept (b : RewardedBlock)
  | replay (b : ImportedBlock)
  | mature (height : ℤ) (timestamp : String)
  | payWorker (now : Instant) (jobId : String)
  | claimTreasury (now nowDt : Instant) (requestedBy claimTo : Option String) (claimId : String)
  -- any other call of the mining module's writer
  | credit (posting : Posting)
  | removeTip (o : OrphanRemoval)
  | restore (timestamp : String) (doc : SnapshotDocument) (replaceExisting : Bool)
  -- services that write no coins leave the given tables
  | services (tables : NodeState)

/-- One call; one that raises is rolled back. -/
def LedgerCall.step (pc : ImportRewardConfig) (s : NodeState) : LedgerCall → NodeState
  | .accept b => Run.attempt (payAcceptedBlock pc.toRewardConfig s b) s
  | .replay b => Run.attempt (payImportedBlock pc s b) s
  | .mature height timestamp => matureBlockRewards height timestamp s
  | .payWorker now jobId =>
    Run.attempt (do
      let (ledger, science) ← payScienceWorker pc.toMarketConfig now s.ledger s.science jobId
      return { s with ledger, science }) s
  | .claimTreasury now nowDt requestedBy claimTo claimId =>
    Run.attempt (do
      let (treasury, ledger) ← claimScientificDevelopmentTreasuryInConnection
        pc.toRewardConfig.toConfig now s.treasury s.ledger requestedBy claimTo claimId nowDt
      return { s with ledger, treasury }) s
  | .credit posting => { s with ledger := creditLedgerEntry s.ledger posting }
  | .removeTip o => removeLocalOrphanTip o s
  | .restore timestamp doc replaceExisting =>
    Run.attempt (applyImportedSnapshotState pc.toRewardConfig.toConfig timestamp s doc
      replaceExisting) s
  | .services tables => { tables with ledger := s.ledger }

/-- Every call but a removal and a restore appends entries. -/
theorem LedgerCall.step_appends (pc : ImportRewardConfig) (s : NodeState) {call : LedgerCall}
    (htip : ∀ o, call ≠ .removeTip o) (hrestore : ∀ timestamp doc r, call ≠ .restore timestamp doc r) :
    Appends (fun _ => True) s.ledger (call.step pc s).ledger := by
  have hrefl : Appends (fun _ => True) s.ledger s.ledger := .refl s.ledger
  cases call with
  | accept b =>
    exact Run.attempt_of (P := fun s' : NodeState => Appends (fun _ => True) s.ledger s'.ledger) hrefl
      fun s' h => payAcceptedBlock_appends (P := fun _ => True) trivial (fun _ _ _ _ _ => trivial) h
  | replay b =>
    exact Run.attempt_of (P := fun s' : NodeState => Appends (fun _ => True) s.ledger s'.ledger) hrefl
      fun s' h => (payImportedBlock_appends h).mono fun _ _ => trivial
  | mature height timestamp =>
    exact matureBlockRewards_appends (P := fun _ => True) trivial timestamp s
  | payWorker now jobId =>
    refine Run.attempt_of (P := fun s' : NodeState => Appends (fun _ => True) s.ledger s'.ledger) hrefl
      fun s' h => ?_
    obtain ⟨⟨ledger, science⟩, hpay, h⟩ := bind_eq_ok.mp h
    rw [← pure_eq_ok.mp h]
    obtain ⟨job, -, -, -, -, hposts⟩ := payScienceWorker_row hpay
    exact Appends.of_posts hposts fun _ _ => trivial
  | claimTreasury now nowDt requestedBy claimTo claimId =>
    refine Run.attempt_of (P := fun s' : NodeState => Appends (fun _ => True) s.ledger s'.ledger) hrefl
      fun s' h => ?_
    obtain ⟨⟨treasury, ledger⟩, hclaim, h⟩ := bind_eq_ok.mp h
    rw [← pure_eq_ok.mp h]
    obtain ⟨-, -, hposts, -⟩ := claim_eq_ok hclaim
    exact Appends.of_posts hposts fun _ _ => trivial
  | credit posting => exact Appends.of_write s.ledger _ trivial
  | removeTip o => exact absurd rfl (htip o)
  | restore timestamp doc replaceExisting => exact absurd rfl (hrestore timestamp doc replaceExisting)
  | services tables => exact hrefl

theorem doubleEntry_step (pc : ImportRewardConfig) (s : NodeState) (call : LedgerCall)
    (hs : s.ledger.DoubleEntry) : (call.step pc s).ledger.DoubleEntry := by
  cases call with
  | removeTip o => exact doubleEntry_removeLedgerEntries o s.ledger
  | restore timestamp doc replaceExisting =>
    refine Run.attempt_of (P := fun s : NodeState => s.ledger.DoubleEntry) hs fun s' h => ?_
    unfold applyImportedSnapshotState at h
    split at h
    · cases h
    · split at h
      · cases h
      · obtain ⟨rows, -, h⟩ := bind_eq_ok.mp h
        exact doubleEntry_restoreRows h
  | _ => exact (LedgerCall.step_appends pc s (by simp) (by simp)).doubleEntry hs

/-- **Double entry**: from a node whose balances are the sums of its entries, every state that is
reached by any of these calls in any order has them so, and passes the node's audit. -/
theorem balances_equal_entries (pc : ImportRewardConfig) (start : NodeState)
    (hstart : start.ledger.DoubleEntry) (calls : List LedgerCall) :
    ∀ s ∈ Run.states (LedgerCall.step pc) start calls,
      s.ledger.DoubleEntry ∧ basicAuditHealth s.ledger = true := by
  intro s hs
  have hentry := Run.invariant_of_eachStep (P := fun _ _ => True)
    (fun s call hs _ => doubleEntry_step pc s call hs) calls start hstart
    (Run.eachStep_of_forall calls start fun _ _ => trivial) s hs
  exact ⟨hentry, hentry.audit⟩

/-- The balances of a new node are its allocations. -/
theorem doubleEntry_localNode (allocations : List (String × ℤ)) :
    (localNode allocations).ledger.DoubleEntry := by
  have hfold : ∀ (allocations : List (String × ℤ)) (l : Ledger), l.DoubleEntry →
      (allocations.foldl (fun l a => allocate l a.1 a.2) l).DoubleEntry := by
    intro allocations
    induction allocations with
    | nil => exact fun l hl => hl
    | cons item rest ih =>
      exact fun l hl => ih _ ((Appends.of_write (P := fun _ => True) l _ trivial).doubleEntry hl)
  exact hfold allocations _ fun _ => rfl

/-- A new node imports a block, and removes it as its tip. -/
theorem balances_equal_entries_local :
    (localNode [(aliceAddress, 5)]).ledger.DoubleEntry ∧
      ∀ s ∈ Run.states (LedgerCall.step localImportRewards) (localNode [(aliceAddress, 5)])
        [.replay (localImportedBlock 251328000), .removeTip ⟨1, "", "", fun _ => ""⟩],
        s.ledger.DoubleEntry ∧ basicAuditHealth s.ledger = true :=
  ⟨doubleEntry_localNode _, balances_equal_entries localImportRewards _
    (doubleEntry_localNode [(aliceAddress, 5)]) _⟩

end Picoin
