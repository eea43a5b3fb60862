import Mathlib.Tactic.Linarith
import Picoin.Proofs.Postings
import Picoin.Services.LocalNode
import Picoin.Services.Mempool

/-!
# The limit of the faucet

A faucet transaction is refused when its sender has three credits since a window before the
transaction. The credits carry the time of their block, but the window ends with the time that the
transaction gives itself: a time in the future moves the window past the credits.

* **`faucetCredits`** — the credits of the ledger, and what a block adds to them;
* **`InWindow`** — the window of a transaction has the credits of the window of its block;
* **`faucet_limited_of_run`** — the limit over a run of blocks;
* **`faucet_limit_exceeded`** — four credits at one time.
-/

namespace Picoin

open Outcome

/-! ## The credits of the ledger -/

/-- The account and the time of a faucet credit. -/
def Posting.faucetCredit (p : Posting) : Option (String × String) :=
  if p.entryType = "faucet_credit" then some (p.accountId, p.createdAt) else none

def faucetCredits (l : Ledger) : List (String × String) :=
  l.entries.filterMap fun e => e.toPosting.faucetCredit

theorem recentFaucetCredits_eq (l : Ledger) (a start : String) :
    recentFaucetCredits l a start =
      (faucetCredits l).countP fun c => c.1 = a && start ≤ c.2 := by
  unfold recentFaucetCredits faucetCredits
  induction l.entries with
  | nil => rfl
  | cons e es ih =>
    rw [List.countP_cons, ih, List.filterMap_cons]
    by_cases hentry : e.entryType = "faucet_credit"
    · simp [Posting.faucetCredit, hentry, List.countP_cons]
    · simp [Posting.faucetCredit, hentry]

theorem Posts.faucetCredits_eq {l l' : Ledger} {ps : List Posting} (h : Posts l l' ps) :
    faucetCredits l' = faucetCredits l ++ ps.filterMap Posting.faucetCredit := by
  obtain ⟨es, hentries, rfl⟩ := h.entries
  unfold faucetCredits
  rw [hentries, List.filterMap_append, List.filterMap_map]
  rfl

theorem feeDebit_noCredit (ctx : BlockContext) (tx : Tx) (fee : ℤ) {entryType : String}
    (description : String) (hne : entryType ≠ "faucet_credit") :
    (feeDebitPostings ctx tx fee entryType description).filterMap Posting.faucetCredit = [] := by
  unfold feeDebitPostings
  split
  · simp [BlockContext.posting, Posting.faucetCredit, hne]
  · rfl

theorem feeReward_noCredit (ctx : BlockContext) (tx : Tx) :
    (feeRewardPostings ctx tx).filterMap Posting.faucetCredit = [] := by
  unfold feeRewardPostings
  split
  · rfl
  · simp [BlockContext.posting, Posting.faucetCredit]

/-- The faucet credit of a transaction in a block. -/
def creditOf (ctx : BlockContext) (tx : Tx) : Option (String × Timestamp) :=
  if tx.txType = .faucet then some (tx.sender, ctx.timestamp) else none

/-- The text of the time of a credit. -/
def creditText (c : String × Timestamp) : String × String := (c.1, c.2.text)

/-- Only a faucet transaction posts a faucet credit, and it posts one. -/
theorem transactionPostings_credit (cfg : Config) (now : Instant) (ctx : BlockContext)
    (s : NodeState) (tx : Tx) :
    (transactionPostings cfg now ctx s tx).filterMap Posting.faucetCredit =
      ((creditOf ctx tx).map creditText).toList := by
  unfold transactionPostings kindPostings creditOf
  rw [List.filterMap_append, feeReward_noCredit, List.append_nil]
  cases htype : tx.txType with
  | transfer => simp [transferPostings, BlockContext.posting, Posting.faucetCredit]
  | stake =>
    dsimp only
    split
    · simp [validatorStakePostings, BlockContext.posting, Posting.faucetCredit]
    · simp [scienceStakePostings, BlockContext.posting, Posting.faucetCredit]
  | unstake =>
    dsimp only
    split
    · rw [validatorUnstakePostings, List.filterMap_append, feeDebit_noCredit _ _ _ _ (by decide)]
      simp [BlockContext.posting, Posting.faucetCredit]
    · rw [scienceUnstakePostings, List.filterMap_append, feeDebit_noCredit _ _ _ _ (by decide)]
      simp [BlockContext.posting, Posting.faucetCredit]
  | scienceJobCreate => exact feeDebit_noCredit _ _ _ _ (by decide)
  | governanceAction => exact feeDebit_noCredit _ _ _ _ (by decide)
  | treasuryClaim =>
    dsimp only
    rw [treasuryClaimPostings, List.filterMap_append, feeDebit_noCredit _ _ _ _ (by decide)]
    simp [claimPostings, treasuryEventClaim, Posting.faucetCredit]
  | faucet => simp [faucetPostings, BlockContext.posting, Posting.faucetCredit, creditText]
  | unsupported name => rfl

/-! ## The limit -/

/-- The length of the window. -/
def faucetWindow : Instant := seconds faucetRateLimitWindowSeconds

/-- The credits of an account within a window. -/
def creditsWithin (credits : List (String × Timestamp)) (accountId : String) (start : Instant) :
    ℕ :=
  credits.countP fun c => c.1 = accountId && start ≤ c.2.instant &&
    c.2.instant ≤ start + faucetWindow

/-- No account has more credits in a window than the limit. -/
def WithinLimit (credits : List (String × Timestamp)) : Prop :=
  ∀ accountId start, creditsWithin credits accountId start ≤ faucetRateLimitMaxRequests

/-- The credits of the sender in the window before a block lie in the window before the
transaction. -/
def InWindow (credits : List (String × Timestamp)) (ctx : BlockContext) (tx : Tx) : Prop :=
  ∀ c ∈ credits, c.1 = tx.sender → ctx.timestamp.instant - faucetWindow ≤ c.2.instant →
    isoformat (tx.timestamp.instant - faucetWindow) ≤ c.2.text

theorem faucetRejectionReason_few {cfg : Config} {l : Ledger} {tx : Tx} {reserved : List Instant}
    (h : faucetRejectionReason cfg l tx reserved = none) :
    recentFaucetCredits l tx.sender (isoformat (tx.timestamp.instant - faucetWindow)) <
      faucetRateLimitMaxRequests := by
  unfold faucetRejectionReason at h
  dsimp only at h
  repeat' (split at h; · cases h)
  next _ _ _ _ _ _ hfew =>
  exact lt_of_le_of_lt (Nat.le_add_right _ _) (not_le.mp hfew)

/-- A credit that few came before stays within the limit. -/
theorem WithinLimit.concat {credits : List (String × Timestamp)} (h : WithinLimit credits)
    {accountId : String} {timestamp : Timestamp}
    (hfew : (credits.countP fun c => c.1 = accountId &&
      timestamp.instant - faucetWindow ≤ c.2.instant) < faucetRateLimitMaxRequests) :
    WithinLimit (credits ++ [(accountId, timestamp)]) := by
  intro a start
  unfold creditsWithin
  rw [List.countP_append, List.countP_singleton]
  split
  · next hin =>
    simp only [Bool.and_eq_true, decide_eq_true_eq] at hin
    -- the window reaches no further back than that of the new credit
    have hle := List.countP_mono_left (p := fun c => c.1 = a && start ≤ c.2.instant &&
        c.2.instant ≤ start + faucetWindow)
      (q := fun c : String × Timestamp => c.1 = accountId &&
        timestamp.instant - faucetWindow ≤ c.2.instant) (l := credits)
      (fun c _ hc => by
        simp only [Bool.and_eq_true, decide_eq_true_eq] at hc ⊢
        exact ⟨hc.1.1.trans hin.1.1.symm, by linarith only [hin.2, hc.1.2]⟩)
    exact Nat.succ_le_of_lt (lt_of_le_of_lt hle hfew)
  · exact h a start

/-! ## A block -/

/-- The ledger has these credits. -/
def Credited (credits : List (String × Timestamp)) (l : Ledger) : Prop :=
  faucetCredits l = credits.map creditText

theorem few_of_inWindow {credits : List (String × Timestamp)} {l : Ledger} {ctx : BlockContext}
    {tx : Tx} (hcredited : Credited credits l) (hwindow : InWindow credits ctx tx) :
    (credits.countP fun c => c.1 = tx.sender &&
        ctx.timestamp.instant - faucetWindow ≤ c.2.instant) ≤
      recentFaucetCredits l tx.sender (isoformat (tx.timestamp.instant - faucetWindow)) := by
  rw [recentFaucetCredits_eq, hcredited, List.countP_map]
  apply List.countP_mono_left
  intro c hc hin
  simp only [Bool.and_eq_true, decide_eq_true_eq] at hin
  have htext := hwindow c hc hin.1 hin.2
  simpa [creditText, hin.1] using htext

theorem applyBlockTransaction_credit {cfg : Config} {now : Instant} {ctx : BlockContext}
    {b b' : BlockProgress} {tx : Tx} (h : applyBlockTransaction cfg now ctx b tx = .ok b')
    {credits : List (String × Timestamp)} (hcredited : Credited credits b.state.ledger) :
    Credited (credits ++ (creditOf ctx tx).toList) b'.state.ledger := by
  unfold Credited
  rw [(applyBlockTransaction_posts h).faucetCredits_eq, transactionPostings_credit, hcredited,
    List.map_append]
  congr 1
  cases creditOf ctx tx <;> rfl

/-- A transaction of a block keeps the limit if its window has the credits that count. -/
theorem applyBlockTransaction_limit {cfg : Config} {now : Instant} {ctx : BlockContext}
    {b b' : BlockProgress} {tx : Tx} (h : applyBlockTransaction cfg now ctx b tx = .ok b')
    {credits : List (String × Timestamp)} (hcredited : Credited credits b.state.ledger)
    (hlimit : WithinLimit credits) (hwindow : tx.txType = .faucet → InWindow credits ctx tx) :
    WithinLimit (credits ++ (creditOf ctx tx).toList) := by
  unfold creditOf
  split
  · next hfaucet =>
    have hpass := (applyBlockTransaction_eq_ok h).1
    obtain ⟨-, -, -, -, -, hkind⟩ := transactionRejectionReason_eq_none.mp hpass
    unfold kindRejectionReason at hkind
    rw [hfaucet] at hkind
    exact hlimit.concat (lt_of_le_of_lt (few_of_inWindow hcredited (hwindow hfaucet))
      (faucetRejectionReason_few hkind))
  · simpa using hlimit

/-- The credits of a block. -/
def blockCredits (ctx : BlockContext) (transactions : List Tx) : List (String × Timestamp) :=
  transactions.filterMap (creditOf ctx)

/-- The faucet transactions of a block all have the credits that count in their windows. -/
def AllInWindow (credits : List (String × Timestamp)) (ctx : BlockContext)
    (transactions : List Tx) : Prop :=
  ∀ before tx after, transactions = before ++ tx :: after → tx.txType = .faucet →
    InWindow (credits ++ blockCredits ctx before) ctx tx

theorem AllInWindow.tail {credits : List (String × Timestamp)} {ctx : BlockContext} {tx : Tx}
    {transactions : List Tx} (h : AllInWindow credits ctx (tx :: transactions)) :
    AllInWindow (credits ++ (creditOf ctx tx).toList) ctx transactions := by
  intro before other after hsplit hfaucet
  have hwindow := h (tx :: before) other after (by rw [hsplit]; rfl) hfaucet
  have hcredits : blockCredits ctx (tx :: before) =
      (creditOf ctx tx).toList ++ blockCredits ctx before := by
    unfold blockCredits
    rw [List.filterMap_cons]
    cases creditOf ctx tx <;> rfl
  rw [hcredits, ← List.append_assoc] at hwindow
  exact hwindow

theorem foldlM_limit {cfg : Config} {now : Instant} {ctx : BlockContext} {transactions : List Tx} :
    ∀ {b b' : BlockProgress} {credits : List (String × Timestamp)},
      transactions.foldlM (applyBlockTransaction cfg now ctx) b = .ok b' →
      Credited credits b.state.ledger → WithinLimit credits →
      AllInWindow credits ctx transactions →
      Credited (credits ++ blockCredits ctx transactions) b'.state.ledger ∧
        WithinLimit (credits ++ blockCredits ctx transactions) := by
  induction transactions with
  | nil =>
    intro b b' credits h hcredited hlimit _
    cases h
    simpa [blockCredits] using ⟨hcredited, hlimit⟩
  | cons tx transactions ih =>
    intro b b' credits h hcredited hlimit hwindow
    rw [List.foldlM_cons] at h
    obtain ⟨b₁, hfirst, hrest⟩ := bind_eq_ok.mp h
    have hnow : tx.txType = .faucet → InWindow credits ctx tx := fun hfaucet => by
      simpa [blockCredits] using hwindow [] tx transactions rfl hfaucet
    -- the credits of the first transaction count in the windows of the rest
    have hstep := ih hrest (applyBlockTransaction_credit hfirst hcredited)
      (applyBlockTransaction_limit hfirst hcredited hlimit hnow) hwindow.tail
    have hcredits : credits ++ blockCredits ctx (tx :: transactions) =
        credits ++ (creditOf ctx tx).toList ++ blockCredits ctx transactions := by
      unfold blockCredits
      rw [List.filterMap_cons, List.append_assoc]
      cases creditOf ctx tx <;> rfl
    rw [hcredits]
    exact hstep

theorem applyBlockTransactions_limit {cfg : Config} {now : Instant} {ctx : BlockContext}
    {s s' : NodeState} {transactions : List Tx}
    (h : applyBlockTransactions cfg now ctx s transactions = .ok s')
    {credits : List (String × Timestamp)} (hcredited : Credited credits s.ledger)
    (hlimit : WithinLimit credits) (hwindow : AllInWindow credits ctx transactions) :
    Credited (credits ++ blockCredits ctx transactions) s'.ledger ∧
      WithinLimit (credits ++ blockCredits ctx transactions) := by
  obtain ⟨b, hloop, rfl⟩ := applyBlockTransactions_eq_ok.mp h
  exact foldlM_limit hloop hcredited hlimit hwindow

/-! ## A run of blocks -/

/-- A block: the transactions that were selected from a node, and the context that they were executed
in. -/
structure BuiltBlock where
  selectedAt : Instant
  selectedFrom : NodeState
  maxCount : ℕ
  ctx : BlockContext

def BuiltBlock.transactions (cfg : Config) (block : BuiltBlock) : List Tx :=
  selectTransactionsForTask cfg block.selectedAt block.selectedFrom block.maxCount

/-- The blocks that were executed since a node had no faucet credits. Between two blocks the node
does anything that posts no faucet credit. -/
inductive FaucetRun (cfg : Config) : List BuiltBlock → NodeState → Prop
  | start {s : NodeState} (hnone : faucetCredits s.ledger = []) : FaucetRun cfg [] s
  | between {blocks : List BuiltBlock} {s s' : NodeState} (h : FaucetRun cfg blocks s)
      (hsame : faucetCredits s'.ledger = faucetCredits s.ledger) : FaucetRun cfg blocks s'
  | block {blocks : List BuiltBlock} {s s' : NodeState} (h : FaucetRun cfg blocks s)
      (now : Instant) (block : BuiltBlock)
      (hexecute : applyBlockTransactions cfg now block.ctx s (block.transactions cfg) = .ok s') :
      FaucetRun cfg (blocks ++ [block]) s'

/-- The credits of a run. -/
def runCredits (cfg : Config) (blocks : List BuiltBlock) : List (String × Timestamp) :=
  blocks.flatMap fun block => blockCredits block.ctx (block.transactions cfg)

/-- Every faucet transaction of the run has the credits that count in its window. -/
def RunInWindow (cfg : Config) (blocks : List BuiltBlock) : Prop :=
  ∀ before block after, blocks = before ++ block :: after →
    AllInWindow (runCredits cfg before) block.ctx (block.transactions cfg)

theorem RunInWindow.init {cfg : Config} {blocks : List BuiltBlock} {block : BuiltBlock}
    (h : RunInWindow cfg (blocks ++ [block])) : RunInWindow cfg blocks := by
  intro before other after hsplit
  exact h before other (after ++ [block]) (by rw [hsplit]; simp)

/-- **The faucet is limited**: in a run whose faucet transactions have the credits that count in
their windows, no account has more credits in a window of time than the limit. -/
theorem faucet_limited_of_run {cfg : Config} {blocks : List BuiltBlock} {s : NodeState}
    (hrun : FaucetRun cfg blocks s) (hwindow : RunInWindow cfg blocks) :
    Credited (runCredits cfg blocks) s.ledger ∧ WithinLimit (runCredits cfg blocks) := by
  induction hrun with
  | start hnone => exact ⟨hnone, fun _ _ => Nat.zero_le _⟩
  | between _ hsame ih =>
    obtain ⟨hcredited, hlimit⟩ := ih hwindow
    exact ⟨hsame.trans hcredited, hlimit⟩
  | @block blocks _ _ _ now block hexecute ih =>
    obtain ⟨hcredited, hlimit⟩ := ih hwindow.init
    have hstep := applyBlockTransactions_limit hexecute hcredited hlimit
      (hwindow blocks block [] rfl)
    have hcredits : runCredits cfg (blocks ++ [block]) = runCredits cfg blocks ++
        blockCredits block.ctx (block.transactions cfg) := by
      simp [runCredits]
    rw [hcredits]
    exact hstep

/-- No credit of the run is before the window of one of its faucet transactions. -/
def noneBeforeWindow (cfg : Config) (blocks : List BuiltBlock) : Bool :=
  blocks.all fun block => (block.transactions cfg).all fun tx =>
    (runCredits cfg blocks).all fun c =>
      decide (isoformat (tx.timestamp.instant - faucetWindow) ≤ c.2.text)

theorem runInWindow_of_noneBefore {cfg : Config} {blocks : List BuiltBlock}
    (h : noneBeforeWindow cfg blocks = true) : RunInWindow cfg blocks := by
  intro before block after hsplit pre tx post htxs _ c hc _ _
  have hblock : block ∈ blocks := by simp [hsplit]
  have htx : tx ∈ block.transactions cfg := by simp [htxs]
  have hcredit : c ∈ runCredits cfg blocks := by
    rw [hsplit]
    simp only [runCredits, List.flatMap_append, List.flatMap_cons, htxs, blockCredits,
      List.filterMap_append] at hc ⊢
    rcases List.mem_append.mp hc with hbefore | hpre
    · exact List.mem_append_left _ hbefore
    · exact List.mem_append_right _
        (List.mem_append_left _ (List.mem_append_left _ hpre))
  have hall := List.all_eq_true.mp (List.all_eq_true.mp (List.all_eq_true.mp h block hblock) tx htx)
  exact of_decide_eq_true (hall c hcredit)

/-! ## Times in the future -/

/-- The local network, with one digest for all texts: its blocks have one transaction each. The
digest has the digits that an address takes. -/
def faucetConfig : Config :=
  { localConfig with sha256Text := fun _ => "aaaaaaaaaaaaaaaaaaaaaaaaaaaaaaaaaaaaaa" }

/-- A faucet transaction of the first wallet that gives itself a time of so many hours. -/
def futureRequest (nonce hours : ℤ) : Tx :=
  signTransaction faucetConfig (aliceRequest .faucet nonce 0 1000000 none {}
    (.ofInstant (seconds (3600 * hours))))

/-- A mempool with one pending transaction. -/
def onlyPending (tx : Tx) : Mempool :=
  .upsert .empty tx.txHash ⟨tx, .pending, none, none⟩

/-- The next block of a node with one pending transaction, at the start of 1970. -/
def faucetBlock (s : NodeState) (tx : Tx) : BuiltBlock where
  selectedAt := 0
  selectedFrom := { s with mempool := onlyPending tx }
  maxCount := 10
  ctx := localBlock tx.nonce 0 false

/-- One block after the other. -/
def faucetBlocks : List Tx → NodeState → Except ExecError (List BuiltBlock × NodeState)
  | [], s => .ok ([], s)
  | tx :: rest, s => do
    let block := faucetBlock s tx
    let s ← applyBlockTransactions faucetConfig 0 block.ctx block.selectedFrom
      (block.transactions faucetConfig)
    let (blocks, s) ← faucetBlocks rest s
    return (block :: blocks, s)

theorem faucetRun_blocks {transactions : List Tx} :
    ∀ {before blocks : List BuiltBlock} {s s' : NodeState}, FaucetRun faucetConfig before s →
      faucetBlocks transactions s = .ok (blocks, s') →
        FaucetRun faucetConfig (before ++ blocks) s' := by
  induction transactions with
  | nil =>
    intro before blocks s s' hrun h
    cases h
    simpa using hrun
  | cons tx rest ih =>
    intro before blocks s s' hrun h
    obtain ⟨s₁, hfirst, h⟩ := bind_eq_ok.mp h
    obtain ⟨⟨blocks', s₂⟩, hrest, h⟩ := bind_eq_ok.mp h
    cases h
    have hpending : FaucetRun faucetConfig before (faucetBlock s tx).selectedFrom :=
      .between hrun rfl
    have hstep := ih (.block hpending 0 (faucetBlock s tx) hfirst) hrest
    rwa [List.append_assoc] at hstep

/-- A node with a faucet. -/
def faucetNode : NodeState := localNode [(genesisAccountId, 10 ^ 14)]

/-- The credits of the blocks of these transactions, the times of the blocks, and whether no credit
is before a window. -/
def faucetOutcome (transactions : List Tx) :
    Option (List (String × Timestamp) × List Instant × Bool) :=
  (faucetBlocks transactions faucetNode).toOption.map fun r =>
    (runCredits faucetConfig r.1, r.1.map fun block => block.ctx.timestamp.instant,
      noneBeforeWindow faucetConfig r.1)

theorem exists_faucetRun {transactions : List Tx} {credits : List (String × Timestamp)}
    {times : List Instant} {within : Bool}
    (h : faucetOutcome transactions = some (credits, times, within)) :
    ∃ blocks s, FaucetRun faucetConfig blocks s ∧ runCredits faucetConfig blocks = credits ∧
      (blocks.map fun block => block.ctx.timestamp.instant) = times ∧
      noneBeforeWindow faucetConfig blocks = within := by
  cases hresult : faucetBlocks transactions faucetNode with
  | error e => simp [faucetOutcome, hresult, Except.toOption] at h
  | ok r =>
    simp only [faucetOutcome, hresult, Except.toOption, Option.map_some, Option.some.injEq,
      Prod.mk.injEq] at h
    have hstart : FaucetRun faucetConfig [] faucetNode := .start (by decide +kernel)
    exact ⟨r.1, r.2, faucetRun_blocks hstart hresult, h⟩

/-- Four transactions at the time of their blocks: three get their credits, in one window, and the
fourth is not selected. -/
theorem faucet_limited_local :
    ∃ blocks s, FaucetRun faucetConfig blocks s ∧ blocks.length = 4 ∧
      Credited (List.replicate 3 (aliceAddress, .ofInstant 0)) s.ledger ∧
      creditsWithin (List.replicate 3 (aliceAddress, .ofInstant 0)) aliceAddress 0 =
        faucetRateLimitMaxRequests ∧
      WithinLimit (List.replicate 3 (aliceAddress, .ofInstant 0)) := by
  obtain ⟨blocks, s, hrun, hcredits, htimes, hwithin⟩ := @exists_faucetRun
    [futureRequest 1 0, futureRequest 2 0, futureRequest 3 0, futureRequest 4 0]
    (List.replicate 3 (aliceAddress, .ofInstant 0)) (List.replicate 4 0) true (by decide +kernel)
  have hlimited := faucet_limited_of_run hrun (runInWindow_of_noneBefore hwithin)
  rw [hcredits] at hlimited
  have hlength : blocks.length = 4 := by
    simpa using congrArg List.length htimes
  exact ⟨blocks, s, hrun, hlength, hlimited.1, by decide +kernel, hlimited.2⟩

theorem futureRequests_outcome : faucetOutcome
    [futureRequest 1 4, futureRequest 2 6, futureRequest 3 8, futureRequest 4 10] =
      some (List.replicate 4 (aliceAddress, .ofInstant 0), List.replicate 4 0, false) := by
  decide +kernel

/-- Four transactions, each two hours after the one before, get their credits in blocks of one
time. -/
theorem faucet_limit_exceeded :
    ¬ ∀ blocks s, FaucetRun faucetConfig blocks s →
      (blocks.map fun block => block.ctx.timestamp.instant).Pairwise (· ≤ ·) →
        WithinLimit (runCredits faucetConfig blocks) := by
  intro h
  obtain ⟨blocks, s, hrun, hcredits, htimes, -⟩ := exists_faucetRun futureRequests_outcome
  have hlimit := h blocks s hrun (by rw [htimes]; decide) aliceAddress 0
  rw [hcredits] at hlimit
  exact absurd hlimit (by decide +kernel)

end Picoin
