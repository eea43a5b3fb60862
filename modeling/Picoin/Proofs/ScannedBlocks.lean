import Picoin.Market.ScannerPolls

/-!
# No block is skipped

A poll that returns has accepted the transfers of its range, and its checkpoint is the end of the
range. As long as a poll starts no later than the block after the checkpoint, and ends at a block that
the node has, the blocks between the start of any poll and the checkpoint have been read.

* **`importSightings_accepts`** — what the imports of a poll leave in the table;
* **`ScanSound`** — what holds after any number of polls;
* **`scanned_blocks_accepted`** — the runs of polls that leave no gap;
* **`gap_not_accepted`** — a poll that starts further on.
-/

namespace Picoin.Market

open Outcome Run

variable {mc : MarketConfig} {chain : ChainDefinition} {scanner : Scanner} {blocks : List EvmBlock}

/-! ## The deposits of transfers -/

/-- The deposit at another time. -/
def Deposit.at (now : Instant) (deposit : Deposit) : Deposit :=
  { deposit with createdAt := now, updatedAt := now }

/-- A deposit that is made later differs in its times. -/
theorem newDeposit_at (request : ScannerDepositCreateRequest) (now now' : Instant) :
    newDeposit mc request now' = (newDeposit mc request now).map (Deposit.at now') := by
  show _ = Deposit.at now' <$> newDeposit mc request now
  unfold newDeposit
  simp only [map_bind]
  congr 1; funext chain; congr 1; funext _; congr 1; funext token; congr 1; funext _
  congr 1; funext fromAddress; congr 1; funext toAddress; congr 1; funext _
  congr 1; funext amount; congr 1; funext txHash; congr 1; funext blockHash
  cases mc.verifiedWallets (normalizeChainCode chain.chainCode) fromAddress <;> rfl

/-- The facts of a deposit do not depend on the time. -/
theorem newDeposit_facts {request : ScannerDepositCreateRequest} {now now' : Instant}
    {deposit deposit' : Deposit} (h : newDeposit mc request now = .ok deposit)
    (h' : newDeposit mc request now' = .ok deposit') : deposit'.facts = deposit.facts := by
  rw [newDeposit_at request now now', h] at h'
  cases h'
  rfl

/-- The event of a deposit is that of its request. -/
theorem newDeposit_event {request : ScannerDepositCreateRequest} {now : Instant}
    {deposit : Deposit} (hchain : mc.getChain request.chainCode = .ok chain)
    (h : newDeposit mc request now = .ok deposit) :
    normalizeTxHash chain.family request.txHash = .ok deposit.txHash ∧
      deposit.logIndex = request.logIndex := by
  obtain ⟨chain', hchain', h⟩ := bind_eq_ok.mp h
  rw [hchain] at hchain'
  cases hchain'
  obtain ⟨-, -, h⟩ := bind_eq_ok.mp h
  obtain ⟨token, -, h⟩ := bind_eq_ok.mp h
  obtain ⟨-, -, h⟩ := bind_eq_ok.mp h
  obtain ⟨fromAddress, -, h⟩ := bind_eq_ok.mp h
  obtain ⟨toAddress, -, h⟩ := bind_eq_ok.mp h
  obtain ⟨-, -, h⟩ := bind_eq_ok.mp h
  obtain ⟨amountBaseUnits, -, h⟩ := bind_eq_ok.mp h
  obtain ⟨txHash, htxHash, h⟩ := bind_eq_ok.mp h
  obtain ⟨blockHash, -, h⟩ := bind_eq_ok.mp h
  cases hwallet : mc.verifiedWallets (normalizeChainCode chain.chainCode) fromAddress with
  | none =>
    rw [hwallet] at h
    cases h
  | some wallet =>
    rw [hwallet] at h
    cases h
    exact ⟨htxHash, rfl⟩

/-- A transfer of a known enabled token of an enabled chain to the deposit address, from a verified
wallet. -/
structure Acceptable (mc : MarketConfig) (chain : ChainDefinition)
    (request : ScannerDepositCreateRequest) : Prop where
  enabled : chain.enabled = true
  known : ∃ token, mc.getToken chain.chainCode request.tokenSymbol = .ok token ∧
    token.enabled = true
  origin : ∃ fromAddress wallet, normalizeAddress chain.family request.fromAddress =
      .ok fromAddress ∧
    mc.verifiedWallets (normalizeChainCode chain.chainCode) fromAddress = some wallet
  destination : ∃ toAddress, normalizeAddress chain.family request.toAddress = .ok toAddress ∧
    chain.depositAddress = some toAddress
  amount : ∃ amount > 0, request.amountBaseUnits = some amount
  txHash : (normalizeTxHash chain.family request.txHash).isOk = true
  blockHash : (normalizeBlockHash chain.family request.blockHash).isOk = true

/-- A value that is there can be named. -/
theorem exists_ok_of_isOk {α : Type} {x : Except String α} (h : x.isOk = true) :
    ∃ a, x = .ok a := by
  cases x with
  | ok a => exact ⟨a, rfl⟩
  | error e => cases h

/-- Two steps that succeed succeed one after the other. -/
theorem exists_bind {α β : Type} {x : Except String α} {f : α → Except String β} {a : α}
    (hx : x = .ok a) (hf : ∃ b, f a = .ok b) : ∃ b, (x >>= f) = .ok b := by
  obtain ⟨b, hb⟩ := hf
  exact ⟨b, bind_eq_ok.mpr ⟨a, hx, hb⟩⟩

/-- An acceptable transfer is made a deposit at any time. -/
theorem Acceptable.newDeposit {request : ScannerDepositCreateRequest}
    (h : Acceptable mc chain request) (hchain : mc.getChain request.chainCode = .ok chain)
    (now : Instant) : ∃ deposit, newDeposit mc request now = .ok deposit := by
  obtain ⟨token, htoken, henabled⟩ := h.known
  obtain ⟨fromAddress, wallet, hfrom, hwallet⟩ := h.origin
  obtain ⟨toAddress, hto, hdestination⟩ := h.destination
  obtain ⟨amount, hpositive, hamount⟩ := h.amount
  obtain ⟨txHash, htxHash⟩ := exists_ok_of_isOk h.txHash
  obtain ⟨blockHash, hblockHash⟩ := exists_ok_of_isOk h.blockHash
  have hchecked : checkDestination chain toAddress = .ok () := by
    unfold checkDestination
    exact if_neg fun hother => hother.2 hdestination.symm
  have hassert : assertPositiveBaseUnits request.amountBaseUnits = .ok amount := by
    rw [hamount]
    exact if_neg (not_le.mpr hpositive)
  have hchainOn : checkEnabled chain.enabled "chain is disabled" = .ok () := if_pos h.enabled
  have htokenOn : checkEnabled token.enabled "token is disabled" = .ok () := if_pos henabled
  refine exists_bind hchain (exists_bind hchainOn (exists_bind htoken (exists_bind htokenOn
    (exists_bind hfrom (exists_bind hto (exists_bind hchecked (exists_bind hassert
      (exists_bind htxHash (exists_bind hblockHash ?_)))))))))
  rw [hwallet]
  exact ⟨_, rfl⟩

/-- The table has the deposit of a transfer. -/
def AcceptedTransfer (mc : MarketConfig) (deposits : Deposits)
    (request : ScannerDepositCreateRequest) : Prop :=
  ∃ deposit, newDeposit mc request 0 = .ok deposit ∧
    ∃ id row, deposits.find? id = some row ∧ row.facts = deposit.facts

/-- The scanner finds the transfer in the block. -/
def Finds (scanner : Scanner) (chain : ChainDefinition) (block : EvmBlock)
    (request : ScannerDepositCreateRequest) : Prop :=
  (.ok (some request) : Sighting) ∈ scanner.sightings chain block

/-- A hash and an index name one transfer of the chain. -/
def OneEvent (scanner : Scanner) (chain : ChainDefinition) (blocks : List EvmBlock) : Prop :=
  ∀ block ∈ blocks, ∀ block' ∈ blocks, ∀ request request', Finds scanner chain block request →
    Finds scanner chain block' request' →
      normalizeTxHash chain.family request.txHash = normalizeTxHash chain.family request'.txHash →
        request.logIndex = request'.logIndex → request = request'

/-! ## What is found -/

/-- A transfer of a token is one of the scanned chain. -/
theorem evmTransferLog_chainCode {token : TokenDefinition} {contractAddress : String} {log : EvmLog}
    {request : ScannerDepositCreateRequest}
    (h : evmTransferLogToDepositRequest chain token contractAddress log = .ok (some request)) :
    request.chainCode = chain.chainCode := by
  obtain ⟨contract, -, h⟩ := bind_eq_ok.mp h
  split at h
  · split at h
    · cases h
    · obtain ⟨fromAddress, -, h⟩ := bind_eq_ok.mp h
      obtain ⟨toAddress, -, h⟩ := bind_eq_ok.mp h
      split at h
      · cases h
      · split at h
        · cases h
        · split at h
          · cases h
          · cases h
            rfl
  · cases h

/-- So is one of the native coin. -/
theorem evmNativeTx_chainCode {token : TokenDefinition} {txIndex : ℕ} {tx : EvmTransaction}
    {request : ScannerDepositCreateRequest}
    (h : evmNativeTxToDepositRequest chain token txIndex tx = .ok (some request)) :
    request.chainCode = chain.chainCode := by
  unfold evmNativeTxToDepositRequest at h
  split at h
  · cases h
  · obtain ⟨toAddress, -, h⟩ := bind_eq_ok.mp h
    split at h
    · cases h
    · obtain ⟨fromAddress, -, h⟩ := bind_eq_ok.mp h
      cases h
      rfl

/-- What a scanner finds is of its chain. -/
theorem Finds.chainCode {block : EvmBlock} {request : ScannerDepositCreateRequest}
    (h : Finds scanner chain block request) : request.chainCode = chain.chainCode := by
  unfold Finds Scanner.sightings at h
  split at h
  · split at h
    · cases h
    · obtain ⟨log, -, hlog⟩ := List.mem_map.mp h
      exact evmTransferLog_chainCode hlog
  · obtain ⟨txIndex, hindex, htx⟩ := List.mem_mapIdx.mp h
    exact evmNativeTx_chainCode htx

/-! ## Imports -/

/-- The facts of the rows stay. -/
def KeepsFacts (deposits deposits' : Deposits) : Prop :=
  ∀ id row, deposits.find? id = some row → ∃ row', deposits'.find? id = some row' ∧
    row'.facts = row.facts

/-- Rows that stay keep their facts. -/
theorem KeepsFacts.refl (deposits : Deposits) : KeepsFacts deposits deposits :=
  fun _ row hrow => ⟨row, hrow, rfl⟩

/-- Facts that are kept twice are kept. -/
theorem KeepsFacts.trans {deposits deposits' deposits'' : Deposits}
    (h : KeepsFacts deposits deposits') (h' : KeepsFacts deposits' deposits'') :
    KeepsFacts deposits deposits'' := by
  intro id row hrow
  obtain ⟨row', hrow', hfacts⟩ := h id row hrow
  obtain ⟨row'', hrow'', hfacts'⟩ := h' id row' hrow'
  exact ⟨row'', hrow'', hfacts'.trans hfacts⟩

/-- A transfer stays accepted while the facts stay. -/
theorem AcceptedTransfer.keep {deposits deposits' : Deposits}
    {request : ScannerDepositCreateRequest} (h : AcceptedTransfer mc deposits request)
    (hkeeps : KeepsFacts deposits deposits') : AcceptedTransfer mc deposits' request := by
  obtain ⟨deposit, hdeposit, id, row, hrow, hfacts⟩ := h
  obtain ⟨row', hrow', hfacts'⟩ := hkeeps id row hrow
  exact ⟨deposit, hdeposit, id, row', hrow', hfacts'.trans hfacts⟩

/-- Every row is the deposit of a transfer of the chain. -/
def FromChain (mc : MarketConfig) (scanner : Scanner) (chain : ChainDefinition)
    (blocks : List EvmBlock) (deposits : Deposits) : Prop :=
  ∀ id row, deposits.find? id = some row → ∃ block ∈ blocks, ∃ request,
    Finds scanner chain block request ∧ ∃ deposit, newDeposit mc request 0 = .ok deposit ∧
      row.facts = deposit.facts

variable (hchain : mc.getChain chain.chainCode = .ok chain)
include hchain

/-- Two transfers of the chain with one event have the same facts. -/
theorem facts_of_sameEvent (hone : OneEvent scanner chain blocks) {block block' : EvmBlock}
    (hblock : block ∈ blocks) (hblock' : block' ∈ blocks)
    {request request' : ScannerDepositCreateRequest} (hfinds : Finds scanner chain block request)
    (hfinds' : Finds scanner chain block' request') {now now' : Instant}
    {deposit deposit' : Deposit} (h : newDeposit mc request now = .ok deposit)
    (h' : newDeposit mc request' now' = .ok deposit') (htxHash : deposit.txHash = deposit'.txHash)
    (hlogIndex : deposit.logIndex = deposit'.logIndex) : deposit.facts = deposit'.facts := by
  obtain ⟨hhash, hindex⟩ := newDeposit_event (hfinds.chainCode ▸ hchain) h
  obtain ⟨hhash', hindex'⟩ := newDeposit_event (hfinds'.chainCode ▸ hchain) h'
  have hsame := hone block hblock block' hblock' request request' hfinds hfinds'
    (hhash.trans (htxHash ▸ hhash'.symm)) (hindex.symm.trans (hlogIndex.trans hindex'))
  subst hsame
  exact newDeposit_facts h' h

/-- A row that has the event of a transfer is that of the transfer. -/
theorem FromChain.facts_of_event (hone : OneEvent scanner chain blocks) {deposits : Deposits}
    (hfrom : FromChain mc scanner chain blocks deposits) {block : EvmBlock} (hblock : block ∈ blocks)
    {request : ScannerDepositCreateRequest} (hfinds : Finds scanner chain block request) {now : Instant}
    {deposit : Deposit} (hdeposit : newDeposit mc request now = .ok deposit) {row : String × Deposit}
    (hfound : (deposits.rows.find? fun row => sameEvent row.2 deposit) = some row) :
    deposits.find? row.1 = some row.2 ∧ row.2.facts = deposit.facts := by
  have hrow := Sql.Table.find?_eq_some_iff.mpr (List.mem_of_find?_eq_some hfound)
  have hevent := List.find?_some hfound
  simp only [sameEvent, Bool.and_eq_true, decide_eq_true_eq] at hevent
  -- the row is of some transfer of the chain, and one event has one transfer
  obtain ⟨block', hblock', request', hfinds', other, hother, hrowFacts⟩ := hfrom row.1 row.2 hrow
  have hhash : other.txHash = deposit.txHash :=
    (congrArg DepositFacts.txHash hrowFacts).symm.trans hevent.1.2
  have hindex : other.logIndex = deposit.logIndex :=
    (congrArg DepositFacts.logIndex hrowFacts).symm.trans hevent.2
  exact ⟨hrow, hrowFacts.trans (facts_of_sameEvent hchain hone hblock' hblock hfinds' hfinds hother
    hdeposit hhash hindex)⟩

omit hchain in
/-- Storing the deposit of a transfer adds a row of the transfer at most. -/
theorem FromChain.store {deposits stored : Deposits}
    (hfrom : FromChain mc scanner chain blocks deposits) {block : EvmBlock} (hblock : block ∈ blocks)
    {request : ScannerDepositCreateRequest} (hfinds : Finds scanner chain block request)
    {first deposit : Deposit} (hfirst : newDeposit mc request 0 = .ok first)
    (hfacts : deposit.facts = first.facts) (h : storeDeposit deposits deposit = .ok stored) :
    FromChain mc scanner chain blocks stored := by
  intro id row hrow
  obtain rfl | ⟨-, -, rfl⟩ := storeDeposit_eq_ok h
  · exact hfrom id row hrow
  · rw [Sql.Table.find?_upsert] at hrow
    split at hrow
    · cases hrow
      exact ⟨block, hblock, request, hfinds, first, hfirst, hfacts⟩
    · exact hfrom id row hrow

omit hchain in
/-- A deposit is stored under its id, unless its event has a row. -/
theorem row_of_storeDeposit {deposits stored : Deposits} {deposit : Deposit}
    (h : storeDeposit deposits deposit = .ok stored) :
    (∃ row, (deposits.rows.find? fun row => sameEvent row.2 deposit) = some row ∧ stored = deposits) ∨
      stored.find? deposit.depositId = some deposit := by
  unfold storeDeposit at h
  split at h
  · next row hfound =>
    split at h
    · cases h
      exact .inl ⟨row, hfound, rfl⟩
    · cases h
  · cases hinsert : deposits.insert? deposit.depositId deposit with
    | none =>
      rw [hinsert] at h
      cases h
    | some table =>
      rw [hinsert] at h
      cases h
      obtain ⟨-, rfl⟩ := Sql.Table.insert?_eq_some_iff.mp hinsert
      exact .inr (Sql.Table.find?_upsert_self _ _ _)

/-- One turn of the loop accepts its transfer, and keeps what was accepted. -/
theorem importSighting_accepts (hone : OneEvent scanner chain blocks) {block : EvmBlock}
    (hblock : block ∈ blocks) {sighting : Sighting} (hmem : sighting ∈ scanner.sightings chain block)
    {now : Instant} {deposits deposits' : Deposits} (hkeyed : Keyed deposits)
    (hfrom : FromChain mc scanner chain blocks deposits)
    (h : importSighting mc now deposits sighting = .ok deposits') :
    Keyed deposits' ∧ FromChain mc scanner chain blocks deposits' ∧
      KeepsFacts deposits deposits' ∧
      ∀ request, sighting = .ok (some request) → Acceptable mc chain request →
        AcceptedTransfer mc deposits' request := by
  unfold importSighting at h
  split at h
  · rename_i request
    have hfinds : Finds scanner chain block request := hmem
    have hcode : mc.getChain request.chainCode = .ok chain := hfinds.chainCode ▸ hchain
    split at h
    · -- what the marketplace refuses is not acceptable
      next e hrefused =>
      cases h
      refine ⟨hkeyed, hfrom, .refl _, fun other hother hacceptable => ?_⟩
      cases hother
      obtain ⟨deposit, hdeposit⟩ := hacceptable.newDeposit hcode now
      rw [hrefused] at hdeposit
      cases hdeposit
    · next deposit hdeposit =>
      -- the facts of the deposit do not depend on the clock
      obtain ⟨first, hfirst⟩ : ∃ first, newDeposit mc request 0 = .ok first := by
        rw [newDeposit_at request now 0, hdeposit]
        exact ⟨_, rfl⟩
      have hfacts : deposit.facts = first.facts := newDeposit_facts hfirst hdeposit
      have hrows : ∀ row, (deposits.rows.find? fun row => sameEvent row.2 deposit) = some row →
          deposits.find? row.1 = some row.2 ∧ row.2.facts = first.facts := by
        intro row hfound
        obtain ⟨hrow, hsame⟩ := hfrom.facts_of_event hchain hone hblock hfinds hdeposit hfound
        exact ⟨hrow, hsame.trans hfacts⟩
      split at h
      · next stored hstored =>
        cases h
        refine ⟨keyed_storeDeposit hkeyed hstored,
          hfrom.store hblock hfinds hfirst hfacts hstored,
          fun id row hrow => ⟨row, find?_of_storeDeposit hstored hrow, rfl⟩, fun other hother _ => ?_⟩
        cases hother
        rcases row_of_storeDeposit hstored with ⟨row, hfound, rfl⟩ | hrow
        · exact ⟨first, hfirst, row.1, row.2, hrows row hfound⟩
        · exact ⟨first, hfirst, deposit.depositId, deposit, hrow, hfacts⟩
      · -- the event is there with other facts: the loop goes on with the row it finds
        split at h
        · next hfound =>
          cases h
          obtain ⟨row, hrow⟩ := Option.isSome_iff_exists.mp hfound
          refine ⟨hkeyed, hfrom, .refl _, fun other hother _ => ?_⟩
          cases hother
          exact ⟨first, hfirst, row.1, row.2, hrows row hrow⟩
        · cases h
  · -- nothing was found in the transaction
    next hnone =>
    cases h
    refine ⟨hkeyed, hfrom, .refl _, fun request hrequest _ => ?_⟩
    exact absurd hrequest (hnone request)

/-- The sightings are those of blocks of the chain. -/
def Sighted (scanner : Scanner) (chain : ChainDefinition) (blocks : List EvmBlock)
    (sightings : List Sighting) : Prop :=
  ∀ sighting ∈ sightings, ∃ block ∈ blocks, sighting ∈ scanner.sightings chain block

/-- The loop keeps what was accepted, and accepts all transfers if it comes to its end. -/
theorem importSightings_accepts (hone : OneEvent scanner chain blocks)
    {sightings : List Sighting} :
    ∀ {clock : ℕ → Instant} {deposits : Deposits}, Sighted scanner chain blocks sightings →
      Keyed deposits → FromChain mc scanner chain blocks deposits →
      let after := importSightings mc clock sightings deposits
      Keyed after.1 ∧ FromChain mc scanner chain blocks after.1 ∧ KeepsFacts deposits after.1 ∧
        (after.2 = true → ∀ request, .ok (some request) ∈ sightings →
          Acceptable mc chain request → AcceptedTransfer mc after.1 request) := by
  induction sightings with
  | nil =>
    intro clock deposits _ hkeyed hfrom
    exact ⟨hkeyed, hfrom, .refl _, fun _ _ hmem => nomatch hmem⟩
  | cons sighting rest ih =>
    intro clock deposits hsighted hkeyed hfrom
    unfold importSightings
    cases hfirst : importSighting mc (clock 0) deposits sighting with
    | error e => exact ⟨hkeyed, hfrom, .refl _, fun hcomplete => nomatch hcomplete⟩
    | ok deposits₁ =>
      obtain ⟨block, hblock, hmem⟩ := hsighted sighting List.mem_cons_self
      obtain ⟨hkeyed₁, hfrom₁, hkeeps₁, haccepts⟩ :=
        importSighting_accepts hchain hone hblock hmem hkeyed hfrom hfirst
      obtain ⟨hkeyed₂, hfrom₂, hkeeps₂, hrest⟩ :=
        @ih (fun turn => clock (turn + 1)) deposits₁
          (fun other hother => hsighted other (List.mem_cons_of_mem _ hother)) hkeyed₁ hfrom₁
      refine ⟨hkeyed₂, hfrom₂, hkeeps₁.trans hkeeps₂, fun hcomplete request hrequest hok => ?_⟩
      rcases List.mem_cons.mp hrequest with hhere | hlater
      · exact (haccepts request hhere.symm hok).keep hkeeps₂
      · exact hrest hcomplete request hlater hok

omit hchain in
/-- The confirmations keep the facts of all deposits. -/
theorem runCall_keeps {times : List Instant} :
    ∀ {s : DepositTables × DepositCall}, Keyed s.1.deposits →
      (∀ deposit ∈ s.2.held, Known s.1.deposits deposit) →
      Keyed (runCall mc times s).1.deposits ∧
        ∀ id, ((runCall mc times s).1.deposits.find? id).map Deposit.facts =
          (s.1.deposits.find? id).map Deposit.facts := by
  induction times with
  | nil => exact fun hkeyed _ => ⟨hkeyed, fun _ => rfl⟩
  | cons now rest ih =>
    intro s hkeyed hheld
    obtain ⟨hkeyed₁, hfacts₁, hheld₁⟩ := (next_move mc now s.1 s.2).keeps hkeyed hheld
    obtain ⟨hkeyed₂, hfacts₂⟩ := ih hkeyed₁ hheld₁
    exact ⟨hkeyed₂, fun id => (hfacts₂ id).trans (hfacts₁ id)⟩

omit hchain in
/-- The facts stay where each row has the facts it had. -/
theorem keepsFacts_of_map {deposits deposits' : Deposits}
    (h : ∀ id, (deposits'.find? id).map Deposit.facts = (deposits.find? id).map Deposit.facts) :
    KeepsFacts deposits deposits' := by
  intro id row hrow
  have hid := h id
  rw [hrow, Option.map_some] at hid
  exact Option.map_eq_some_iff.mp hid

omit hchain in
/-- The rows are still those of transfers of the chain. -/
theorem FromChain.of_map {deposits deposits' : Deposits}
    (hfrom : FromChain mc scanner chain blocks deposits)
    (h : ∀ id, (deposits'.find? id).map Deposit.facts = (deposits.find? id).map Deposit.facts) :
    FromChain mc scanner chain blocks deposits' := by
  intro id row hrow
  have hid := (h id).symm
  rw [hrow, Option.map_some] at hid
  obtain ⟨before, hbefore, hfacts⟩ := Option.map_eq_some_iff.mp hid
  obtain ⟨block, hblock, request, hfinds, deposit, hdeposit, hrowFacts⟩ := hfrom id before hbefore
  exact ⟨block, hblock, request, hfinds, deposit, hdeposit, hfacts.symm.trans hrowFacts⟩

/-! ## Polls -/

/-- The node answers from the chain: the height that it reports is that of a block that it has, and
the logs and blocks that it returns are those of the blocks it has. -/
structure PollCall.Truthful (blocks : List EvmBlock) (call : PollCall) : Prop where
  reported : call.reported < call.visible
  logs : ∀ contractAddress depositTopic fromBlock toBlock logs,
    call.getLogs contractAddress depositTopic fromBlock toBlock = some logs →
      ∀ log, log ∈ logs ↔ ∃ height < call.visible, fromBlock ≤ (height : ℤ) ∧
        (height : ℤ) ≤ toBlock ∧ ∃ block, blocks[height]? = some block ∧ log ∈ block.logs ∧
          log.matchesFilter contractAddress depositTopic = true
  block : ∀ height block, call.getBlock height = some block →
    ∃ k < call.visible, height = (k : ℤ) ∧ blocks[k]? = some block

omit hchain in
/-- The heights run from the first block to the last. -/
theorem mem_heights {s : ScannerState} {call : PollCall} {height : ℤ} :
    height ∈ call.heights s ↔ call.fromBlock s ≤ height ∧ height ≤ call.toBlock s := by
  unfold PollCall.heights
  rw [List.mem_map]
  constructor
  · rintro ⟨i, hi, rfl⟩
    have hlt := List.mem_range.mp hi
    omega
  · rintro ⟨hlow, hhigh⟩
    exact ⟨(height - call.fromBlock s).toNat, List.mem_range.mpr (by omega), by omega⟩

omit hchain in
/-- A block that is read was returned by the node. -/
theorem getBlock_of_mem {call : PollCall} {heights : List ℤ} {block : EvmBlock}
    (h : block ∈ call.getBlocks heights) : ∃ height, call.getBlock height = some block := by
  induction heights with
  | nil => cases h
  | cons height rest ih =>
    unfold PollCall.getBlocks at h
    split at h
    · cases h
    · next first hfirst =>
      rcases List.mem_cons.mp h with rfl | hrest
      · exact ⟨height, hfirst⟩
      · exact ih hrest

omit hchain in
/-- Where all blocks are returned, the blocks at the heights have been read. -/
theorem mem_getBlocks {call : PollCall} {heights : List ℤ}
    (hall : heights.all (fun height => (call.getBlock height).isSome) = true) {height : ℤ}
    (hmem : height ∈ heights) {block : EvmBlock} (hblock : call.getBlock height = some block) :
    block ∈ call.getBlocks heights := by
  induction heights with
  | nil => cases hmem
  | cons first rest ih =>
    rw [List.all_cons, Bool.and_eq_true] at hall
    obtain ⟨answer, hanswer⟩ := Option.isSome_iff_exists.mp hall.1
    unfold PollCall.getBlocks
    rw [hanswer]
    rcases List.mem_cons.mp hmem with rfl | hrest
    · rw [hblock] at hanswer
      cases hanswer
      exact List.mem_cons_self
    · exact List.mem_cons_of_mem _ (ih hall.2 hrest)

omit hchain in
/-- What a poll finds is in blocks of the chain. -/
theorem PollCall.Truthful.sighted {call : PollCall} (h : call.Truthful blocks) (s : ScannerState) :
    Sighted scanner chain blocks (call.sightings chain s scanner) := by
  intro sighting hsighting
  unfold PollCall.sightings at hsighting
  split at hsighting
  · next definition contractAddress =>
    obtain ⟨log, hlog, rfl⟩ := List.mem_map.mp hsighting
    unfold PollCall.transferLogs at hlog
    cases htopic : addressToTopic (textOr chain.depositAddress "") with
    | error e =>
      rw [htopic] at hlog
      cases hlog
    | ok depositTopic =>
      rw [htopic] at hlog
      dsimp only at hlog
      cases hlogs : call.getLogs contractAddress depositTopic (call.fromBlock s)
          (call.toBlock s) with
      | none =>
        rw [hlogs] at hlog
        cases hlog
      | some logs =>
        rw [hlogs, Option.getD_some] at hlog
        obtain ⟨height, -, -, -, block, hblock, hin, hmatches⟩ :=
          (h.logs _ _ _ _ _ hlogs log).mp hlog
        refine ⟨block, List.mem_of_getElem? hblock, ?_⟩
        unfold Scanner.sightings
        rw [htopic]
        exact List.mem_map_of_mem (List.mem_filter.mpr ⟨hin, hmatches⟩)
  · next definition =>
    obtain ⟨block, hblock, hmem⟩ := List.mem_flatMap.mp hsighting
    obtain ⟨height, hget⟩ := getBlock_of_mem hblock
    obtain ⟨k, -, -, hchainBlock⟩ := h.block height block hget
    exact ⟨block, List.mem_of_getElem? hchainBlock, hmem⟩

/-- The transfers between the start of a poll and the checkpoint are accepted. -/
def ScannedThrough (mc : MarketConfig) (scanner : Scanner) (chain : ChainDefinition)
    (blocks : List EvmBlock) (s : ScannerState) : Prop :=
  ∀ range ∈ s.scanned, ∀ checkpoint, s.checkpoint = some checkpoint → ∀ (height : ℕ) block,
    blocks[height]? = some block → range.1 ≤ (height : ℤ) → (height : ℤ) ≤ checkpoint →
      ∀ request, Finds scanner chain block request → Acceptable mc chain request →
        AcceptedTransfer mc s.tables.deposits request

structure ScanSound (mc : MarketConfig) (scanner : Scanner) (chain : ChainDefinition)
    (blocks : List EvmBlock) (s : ScannerState) : Prop where
  keyed : Keyed s.tables.deposits
  fromChain : FromChain mc scanner chain blocks s.tables.deposits
  through : ScannedThrough mc scanner chain blocks s
  unstarted : s.checkpoint = none → s.scanned = []

/-- The poll starts no later than the block after the checkpoint, and a poll of a contract ends at a
block that the node has. -/
def Consecutive (blocks : List EvmBlock) (scanner : Scanner) (s : ScannerState) (call : PollCall) :
    Prop :=
  call.Truthful blocks ∧
    (∀ fromBlock, call.request.fromBlock = some fromBlock → ∀ checkpoint,
      s.checkpoint = some checkpoint → fromBlock ≤ checkpoint + 1) ∧
    ∀ toBlock, call.request.toBlock = some toBlock → match scanner with
      | .token _ _ => toBlock < call.visible
      | .native _ => True

omit hchain in
/-- A poll starts no later than the block after the checkpoint. -/
theorem Consecutive.fromBlock_le {s : ScannerState} {call : PollCall}
    (h : Consecutive blocks scanner s call) {checkpoint : ℤ}
    (hcheckpoint : s.checkpoint = some checkpoint) : call.fromBlock s ≤ checkpoint + 1 := by
  unfold PollCall.fromBlock
  rw [hcheckpoint]
  cases hexplicit : call.request.fromBlock with
  | some fromBlock => exact h.2.1 fromBlock hexplicit checkpoint hcheckpoint
  | none => exact le_rfl

omit hchain in
/-- A poll whose requests are answered finds what there is in the blocks of its range. -/
theorem Consecutive.finds {s : ScannerState} {call : PollCall}
    (h : Consecutive blocks scanner s call) (hanswered : call.answered chain s scanner = true)
    {height : ℕ} {block : EvmBlock} (hblock : blocks[height]? = some block)
    (hlow : call.fromBlock s ≤ (height : ℤ)) (hhigh : (height : ℤ) ≤ call.toBlock s)
    {request : ScannerDepositCreateRequest} (hfinds : Finds scanner chain block request) :
    .ok (some request) ∈ call.sightings chain s scanner := by
  obtain ⟨htruthful, -, hends⟩ := h
  unfold PollCall.answered at hanswered
  rw [Bool.and_eq_true] at hanswered
  cases scanner with
  | token definition contractAddress =>
    have hlatest : call.latest < call.visible := by
      unfold PollCall.latest
      cases hexplicit : call.request.toBlock with
      | some toBlock => exact hends toBlock hexplicit
      | none => exact htruthful.reported
    have hvisible : height < call.visible := by
      have hend : call.toBlock s ≤ call.latest := min_le_left _ _
      omega
    obtain ⟨logs, hlogs⟩ := Option.isSome_iff_exists.mp hanswered.2
    unfold PollCall.sightings
    dsimp only
    rw [hlogs, Option.getD_some]
    unfold Finds Scanner.sightings at hfinds
    unfold PollCall.transferLogs at hlogs
    cases htopic : addressToTopic (textOr chain.depositAddress "") with
    | error e =>
      rw [htopic] at hfinds
      cases hfinds
    | ok depositTopic =>
      rw [htopic] at hfinds hlogs
      obtain ⟨log, hlog, hrequest⟩ := List.mem_map.mp hfinds
      obtain ⟨hin, hmatches⟩ := List.mem_filter.mp hlog
      exact List.mem_map.mpr ⟨log, (htruthful.logs _ _ _ _ _ hlogs log).mpr
        ⟨height, hvisible, hlow, hhigh, block, hblock, hin, hmatches⟩, hrequest⟩
  | native definition =>
    have hin : (height : ℤ) ∈ call.heights s := mem_heights.mpr ⟨hlow, hhigh⟩
    obtain ⟨answer, hanswer⟩ := Option.isSome_iff_exists.mp (List.all_eq_true.mp hanswered.2 _ hin)
    obtain ⟨k, -, hk, hchainBlock⟩ := htruthful.block _ _ hanswer
    obtain rfl : height = k := by omega
    rw [hblock] at hchainBlock
    cases hchainBlock
    exact List.mem_flatMap.mpr ⟨block, mem_getBlocks hanswered.2 hin hanswer, hfinds⟩

omit hchain in
/-- A poll that does not return leaves the checkpoint. -/
theorem ScanSound.unreturned {s : ScannerState} (h : ScanSound mc scanner chain blocks s)
    {tables : DepositTables} (hkeyed : Keyed tables.deposits)
    (hfrom : FromChain mc scanner chain blocks tables.deposits)
    (hkeeps : KeepsFacts s.tables.deposits tables.deposits) :
    ScanSound mc scanner chain blocks { s with tables } where
  keyed := hkeyed
  fromChain := hfrom
  through range hrange checkpoint hcheckpoint height block hblock hlow hhigh request hfinds hok :=
    (h.through range hrange checkpoint hcheckpoint height block hblock hlow hhigh request hfinds
      hok).keep hkeeps
  unstarted := h.unstarted

/-- A poll that leaves no gap preserves it. -/
theorem ScanSound.poll (hone : OneEvent scanner chain blocks) {s : ScannerState}
    (h : ScanSound mc scanner chain blocks s) {call : PollCall}
    (hcall : Consecutive blocks scanner s call) :
    ScanSound mc scanner chain blocks (poll mc chain scanner s call) := by
  have hsighted := @PollCall.Truthful.sighted chain scanner blocks call hcall.1 s
  obtain ⟨hkeyed, hfrom, hkeeps, haccepts⟩ :=
    @importSightings_accepts _ _ _ _ hchain hone _ call.imports _ hsighted h.keyed h.fromChain
  unfold Market.poll
  dsimp only
  split
  · -- the node did not answer for its head
    exact h
  split
  · -- the imports raised, and the checkpoint stays
    exact h.unreturned hkeyed hfrom hkeeps
  next hreturned =>
  simp only [Bool.or_eq_true, Bool.not_eq_true', not_or, Bool.not_eq_false] at hreturned
  obtain ⟨hcomplete, hanswered⟩ := hreturned
  generalize hafter : importSightings mc call.imports (call.sightings chain s scanner)
    s.tables.deposits = after at *
  obtain ⟨hkeyed', hfacts⟩ := @runCall_keeps mc call.confirmations
    (⟨after.1, s.tables.ledger⟩, .readRows chain.chainCode call.confirmAt) hkeyed
    (fun _ hheld => nomatch hheld)
  have hkeeps' := keepsFacts_of_map hfacts
  split
  · -- the poll returned, and its range counts from now on
    next processing hfinished =>
    refine ⟨hkeyed', hfrom.of_map hfacts, ?_, fun hnone => nomatch hnone⟩
    intro range hrange checkpoint hcheckpoint height block hblock hlow hhigh request hfinds hok
    cases hcheckpoint
    by_cases hin : call.fromBlock s ≤ (height : ℤ)
    · -- the block is one of this poll
      exact (haccepts hcomplete request (hcall.finds hanswered hblock hin hhigh hfinds) hok).keep
        hkeeps'
    · -- the block is between an earlier poll and its checkpoint
      rcases List.mem_append.mp hrange with hearlier | hthis
      · cases hbefore : s.checkpoint with
        | none =>
          rw [h.unstarted hbefore] at hearlier
          cases hearlier
        | some checkpoint =>
          have hstart := hcall.fromBlock_le hbefore
          have hold := h.through range hearlier checkpoint hbefore height block hblock hlow
            (by omega) request hfinds hok
          exact hold.keep (hkeeps.trans hkeeps')
      · rw [List.mem_singleton.mp hthis] at hlow
        exact absurd hlow hin
  · exact h.unreturned hkeyed' (hfrom.of_map hfacts) (hkeeps.trans hkeeps')

/-- A scanner that has not polled yet, on a marketplace without deposits. -/
def ScannerState.start (ledger : Ledger) : ScannerState := ⟨⟨.empty, ledger⟩, none, []⟩

omit hchain in
/-- It holds before the first poll. -/
theorem ScanSound.start (ledger : Ledger) :
    ScanSound mc scanner chain blocks (ScannerState.start ledger) where
  keyed _ _ hrow := nomatch hrow
  fromChain _ _ hrow := nomatch hrow
  through _ hrange := nomatch hrange
  unstarted _ := rfl

/-- **No block is skipped**: in a run of polls that leave no gap, a transfer in a block between the
start of a poll that has returned and the checkpoint is accepted. -/
theorem scanned_blocks_accepted (hone : OneEvent scanner chain blocks) (ledger : Ledger)
    (calls : List PollCall)
    (hcalls : EachStep (Market.poll mc chain scanner) (Consecutive blocks scanner) (.start ledger)
      calls) :
    ∀ s ∈ states (Market.poll mc chain scanner) (.start ledger) calls,
      ScannedThrough mc scanner chain blocks s := by
  intro s hs
  have hstep : ∀ s call, ScanSound mc scanner chain blocks s → Consecutive blocks scanner s call →
      ScanSound mc scanner chain blocks (Market.poll mc chain scanner s call) :=
    fun _ _ h hcall => h.poll hchain hone hcall
  exact (invariant_of_eachStep hstep calls _ (.start ledger) hcalls s hs).through

omit hchain

/-! ## A gap -/

def escrowAddress : String := "0xeeeeeeeeeeeeeeeeeeeeeeeeeeeeeeeeeeeeeeee"
def annAddress : String := "0xaaaaaaaaaaaaaaaaaaaaaaaaaaaaaaaaaaaaaaaa"

/-- The chain asks for a confirmation. -/
theorem one_le_evmConfirmations : (1 : ℤ) ≤ 1 := le_rfl

def evmChain : ChainDefinition where
  chainCode := "eth"
  family := .evm
  confirmationsRequired := 1
  one_le_confirmations := one_le_evmConfirmations
  depositAddress := some escrowAddress
  enabled := true

def evmCoin : TokenDefinition := ⟨"eth", "ETH", 18, none, true⟩

/-- The fee of the marketplace is not negative. -/
theorem evmFee_nonneg : (0 : ℤ) ≤ 10 ^ 8 := by decide

/-- It is a percentage. -/
theorem evmFee_le : (10 ^ 8 : ℤ) ≤ 100 * 10 ^ 8 := by decide

/-- A marketplace on one chain, whose wallets are all verified. -/
def evmMarket : MarketConfig where
  sha256Text _ := "digest"
  pools _ := none
  accounts _ := true
  chains _ := some evmChain
  tokens _ _ := some evmCoin
  verifiedWallets _ _ := some ⟨"wallet", "ann"⟩
  escrowAddress := escrowAddress
  confirmationsRequired := 1
  feePercent := 10 ^ 8
  feePercent_nonneg := evmFee_nonneg
  feePercent_le := evmFee_le
  paymentWindowMinutes := 30

def annTransfer : EvmTransaction where
  «to» := some escrowAddress
  «from» := annAddress
  value := 5
  blockNumber := 2
  hash := "0x0123456789abcdef0123456789abcdef0123456789abcdef0123456789abcdef"
  blockHash := none

/-- Four blocks, with a transfer in the third. -/
def fourBlocks : List EvmBlock := [⟨[], []⟩, ⟨[], []⟩, ⟨[], [annTransfer]⟩, ⟨[], []⟩]

/-- A poll of one block at the head of a node that has the first of the blocks. -/
def pollHead (fromBlock : Option ℤ) (visible : ℕ) : PollCall where
  request := ⟨fromBlock, none, 1, none⟩
  visible := visible
  reported := visible - 1
  getLogs _ _ _ _ := none
  getBlock height := if 0 ≤ height ∧ height < visible then fourBlocks[height.toNat]? else none
  imports _ := 0
  confirmations := List.replicate 8 0

/-- The node answers from the four blocks. -/
theorem pollHead_truthful (fromBlock : Option ℤ) (visible : ℕ) :
    (pollHead fromBlock visible).Truthful fourBlocks where
  reported := sub_one_lt _
  logs _ _ _ _ _ hlogs := nomatch hlogs
  block height block hblock := by
    unfold pollHead at hblock
    dsimp only at hblock
    split at hblock
    · next hnonneg =>
      have hlt := hnonneg.2
      exact ⟨height.toNat, by simp only [pollHead]; omega, by omega, hblock⟩
    · cases hblock

/-- The sighting of the transfer. -/
def annRequest : ScannerDepositCreateRequest where
  chainCode := "eth"
  tokenSymbol := "ETH"
  fromAddress := annAddress
  toAddress := escrowAddress
  amountBaseUnits := some 5
  txHash := annTransfer.hash
  blockNumber := 2
  blockHash := none
  logIndex := evmNativeLogIndex - (0 : ℕ)
  status := .detected

/-- The transfer is one to the deposit address. -/
theorem annTransfer_found :
    evmNativeTxToDepositRequest evmChain evmCoin 0 annTransfer = .ok (some annRequest) := by
  have hto : normalizeAddress .evm escrowAddress = .ok escrowAddress := by decide +kernel
  have hfrom : normalizeAddress .evm annAddress = .ok annAddress := by decide +kernel
  have hdestination : isDestination evmChain escrowAddress = true := by decide +kernel
  unfold evmNativeTxToDepositRequest
  rw [if_neg (by decide +kernel)]
  refine bind_eq_ok.mpr ⟨escrowAddress, hto, ?_⟩
  rw [if_neg (by rw [hdestination]; decide)]
  exact bind_eq_ok.mpr ⟨annAddress, hfrom, rfl⟩

/-- It is what the scanner finds in its block. -/
theorem annTransfer_sightings : (Scanner.native evmCoin).sightings evmChain ⟨[], [annTransfer]⟩ =
    [.ok (some annRequest)] := by
  show List.mapIdx (evmNativeTxToDepositRequest evmChain evmCoin) [annTransfer] = _
  rw [List.mapIdx_cons, List.mapIdx_nil, annTransfer_found]

/-- There is no other transfer in the four blocks. -/
theorem finds_fourBlocks {block : EvmBlock} (hblock : block ∈ fourBlocks)
    {request : ScannerDepositCreateRequest}
    (h : Finds (.native evmCoin) evmChain block request) : request = annRequest := by
  simp only [fourBlocks, List.mem_cons, List.not_mem_nil, or_false] at hblock
  unfold Finds at h
  rcases hblock with rfl | rfl | rfl | rfl
  · cases h
  · cases h
  · rw [annTransfer_sightings, List.mem_singleton] at h
    exact Option.some.inj (Except.ok.inj h)
  · cases h

/-- So a hash names one transfer. -/
theorem fourBlocks_oneEvent : OneEvent (.native evmCoin) evmChain fourBlocks := by
  intro block hblock block' hblock' request request' hfinds hfinds' _ _
  rw [finds_fourBlocks hblock hfinds, finds_fourBlocks hblock' hfinds']

/-- The marketplace accepts it. -/
theorem annRequest_acceptable : Acceptable evmMarket evmChain annRequest where
  enabled := rfl
  known := ⟨evmCoin, rfl, rfl⟩
  origin := ⟨annAddress, ⟨"wallet", "ann"⟩, by decide +kernel, rfl⟩
  destination := ⟨escrowAddress, by decide +kernel, rfl⟩
  amount := ⟨5, by decide, rfl⟩
  txHash := by decide +kernel
  blockHash := rfl

/-- Three polls that follow each other. -/
theorem scanned_blocks_local :
    ScannedThrough evmMarket (.native evmCoin) evmChain fourBlocks
      ([pollHead none 2, pollHead none 3, pollHead none 4].foldl
        (Market.poll evmMarket evmChain (.native evmCoin)) (.start .empty)) := by
  have hcalls : EachStep (Market.poll evmMarket evmChain (.native evmCoin))
      (Consecutive fourBlocks (.native evmCoin)) (.start .empty)
      [pollHead none 2, pollHead none 3, pollHead none 4] := by
    exact ⟨⟨pollHead_truthful _ _, (fun _ h => nomatch h), fun _ h => nomatch h⟩,
      ⟨pollHead_truthful _ _, (fun _ h => nomatch h), fun _ h => nomatch h⟩,
      ⟨pollHead_truthful _ _, (fun _ h => nomatch h), fun _ h => nomatch h⟩, trivial⟩
  exact scanned_blocks_accepted rfl fourBlocks_oneEvent .empty _ hcalls _ (foldl_mem_states _ _ _)

/-- The second poll starts at block 3, and the checkpoint passes the transfer in block 2. -/
theorem gap_not_accepted :
    ¬ ∀ (mc : MarketConfig) (chain : ChainDefinition) (scanner : Scanner) (blocks : List EvmBlock),
      mc.getChain chain.chainCode = .ok chain → OneEvent scanner chain blocks →
        ∀ (ledger : Ledger) (calls : List PollCall), (∀ call ∈ calls, call.Truthful blocks) →
          ∀ s ∈ states (Market.poll mc chain scanner) (.start ledger) calls,
            ScannedThrough mc scanner chain blocks s := by
  intro h
  have htruthful : ∀ call ∈ [pollHead none 2, pollHead (some 3) 4], call.Truthful fourBlocks := by
    intro call hcall
    rcases List.mem_pair.mp hcall with rfl | rfl <;> exact pollHead_truthful _ _
  have hthrough := h evmMarket evmChain (.native evmCoin) fourBlocks rfl fourBlocks_oneEvent .empty
    [pollHead none 2, pollHead (some 3) 4] htruthful _ (foldl_mem_states _ _ _)
  have hscanned : ([pollHead none 2, pollHead (some 3) 4].foldl
      (Market.poll evmMarket evmChain (.native evmCoin)) (.start .empty)).scanned =
        [(1, 1), (3, 3)] := by decide +kernel
  have hcheckpoint : ([pollHead none 2, pollHead (some 3) 4].foldl
      (Market.poll evmMarket evmChain (.native evmCoin)) (.start .empty)).checkpoint =
        some 3 := by decide +kernel
  have hdeposits : ([pollHead none 2, pollHead (some 3) 4].foldl
      (Market.poll evmMarket evmChain (.native evmCoin))
        (.start .empty)).tables.deposits.rows.length = 0 := by decide +kernel
  have hfinds : Finds (.native evmCoin) evmChain ⟨[], [annTransfer]⟩ annRequest := by
    unfold Finds
    rw [annTransfer_sightings]
    exact List.mem_singleton_self _
  obtain ⟨deposit, -, id, row, hrow, -⟩ := hthrough (1, 1) (by rw [hscanned]; decide) 3 hcheckpoint 2
    ⟨[], [annTransfer]⟩ rfl (by decide) (by decide) annRequest hfinds annRequest_acceptable
  have hmem := Sql.Table.find?_eq_some_iff.mp hrow
  rw [List.eq_nil_of_length_eq_zero hdeposits] at hmem
  cases hmem

end Picoin.Market
