import Picoin.Proofs.Postings
import Picoin.Services.Mempool

/-!
# No transaction is executed twice

A node executes blocks one after another; between two blocks everything but the confirmed nonces
may change, the mempool included. The history of executed transactions then has strictly
increasing nonces for every sender. What carries this from block to block is the stored nonce: it
is at least every nonce of the sender in the history (`Covers`). Inside a block the map of
expected nonces is ahead of the history as well (`Ahead`), also after a gap was allowed.
-/

namespace Picoin

open Outcome

/-! ## Runs -/

/-- A call of `ensure_block_transactions_in_mempool` followed by `apply_block_transactions`.
`surroundings` is the database at the call, its confirmed nonces apart. -/
structure BlockCall where
  now : Instant
  ctx : BlockContext
  surroundings : NodeState
  transactions : List Tx

/-- Receive and execute the block of a call on the node's confirmed nonces. -/
def BlockCall.run (cfg : Config) (call : BlockCall) (nonces : Sql.Table String ℤ) :
    Except ExecError NodeState := do
  let s ← ensureBlockTransactionsInMempool cfg
    { call.surroundings with accountNonces := nonces } call.transactions
  applyBlockTransactions cfg call.now call.ctx s call.transactions

/-- The transactions that a sequence of calls executes. A call that raises is rolled back. -/
def executedTransactions (cfg : Config) : Sql.Table String ℤ → List BlockCall → List Tx
  | _, [] => []
  | nonces, call :: calls =>
    match call.run cfg nonces with
    | .error _ => executedTransactions cfg nonces calls
    | .ok s => call.transactions ++ executedTransactions cfg s.accountNonces calls

/-! ## The invariant -/

/-- Of one sender, the earlier transaction has the smaller nonce. -/
def NonceBefore (t t' : Tx) : Prop := t.sender = t'.sender → t.nonce < t'.nonce

/-- The stored nonces are at least the nonces of the history. -/
def Covers (nonces : Sql.Table String ℤ) (history : List Tx) : Prop :=
  ∀ t ∈ history, t.nonce ≤ (nonces.find? t.sender).getD 0 ∧ (nonces.find? t.sender).isSome

/-- The expected nonces of a block are beyond the nonces of the history. -/
def Ahead (expected : ExpectedNonces) (history : List Tx) : Prop :=
  ∀ t ∈ history, ∀ n, expected t.sender = some n → t.nonce < n

theorem le_recordConfirmedNonce (nonces : Sql.Table String ℤ) (sender : String) (nonce : ℤ) :
    nonce ≤ ((recordConfirmedNonce nonces sender nonce).find? sender).getD 0 := by
  rw [recordConfirmedNonce, Sql.Table.find?_upsert_self, Option.getD_some]
  cases nonces.find? sender with
  | none => exact le_refl _
  | some n => exact le_max_left _ _

theorem Covers.recordConfirmedNonce {nonces : Sql.Table String ℤ} {history : List Tx}
    (h : Covers nonces history) (tx : Tx) :
    Covers (Picoin.recordConfirmedNonce nonces tx.sender tx.nonce) (history ++ [tx]) := by
  intro t ht
  rcases List.mem_append.mp ht with ht | ht
  · obtain ⟨hle, hsome⟩ := h t ht
    by_cases heq : t.sender = tx.sender
    · obtain ⟨n, hn⟩ := Option.isSome_iff_exists.mp hsome
      rw [hn, Option.getD_some] at hle
      rw [heq] at hn ⊢
      rw [Picoin.recordConfirmedNonce, Sql.Table.find?_upsert_self, hn]
      exact ⟨hle.trans (le_max_right _ _), rfl⟩
    · rw [Picoin.recordConfirmedNonce, Sql.Table.find?_upsert_ne _ _ heq]
      exact ⟨hle, hsome⟩
  · rw [List.mem_singleton.mp ht]
    exact ⟨le_recordConfirmedNonce _ _ _, by simp [Picoin.recordConfirmedNonce]⟩

theorem stored_le_confirmedNonce (s : NodeState) (sender : String) :
    (s.accountNonces.find? sender).getD 0 ≤ confirmedNonce s sender :=
  le_max_left _ _

/-- Whatever nonce is expected of a sender is beyond the history. -/
theorem lt_expectedNonce {s : NodeState} {expected : ExpectedNonces} {history : List Tx}
    (hcovers : Covers s.accountNonces history) (hahead : Ahead expected history) {t : Tx}
    (ht : t ∈ history) : t.nonce < expectedNonce s expected t.sender := by
  unfold expectedNonce nextSelectableNonce
  cases hexpected : expected t.sender with
  | some n => exact hahead t ht n hexpected
  | none =>
    have hstored := (hcovers t ht).1
    have hconfirmed := stored_le_confirmedNonce s t.sender
    rw [Option.getD_none]
    omega

/-- One executed transaction extends the history and keeps the invariant. -/
theorem applyBlockTransaction_extends {cfg : Config} {now : Instant} {ctx : BlockContext}
    {b b' : BlockProgress} {tx : Tx} {history : List Tx}
    (h : applyBlockTransaction cfg now ctx b tx = .ok b')
    (hcovers : Covers b.state.accountNonces history) (hahead : Ahead b.expected history)
    (hhistory : history.Pairwise NonceBefore) :
    Covers b'.state.accountNonces (history ++ [tx]) ∧ Ahead b'.expected (history ++ [tx]) ∧
      (history ++ [tx]).Pairwise NonceBefore := by
  obtain ⟨hpass, s, hexecute, hsettle, hexpected⟩ := applyBlockTransaction_eq_ok h
  -- the nonce is the expected one, or lies above it
  have hnonce : expectedNonce b.state b.expected tx.sender ≤ tx.nonce := by
    obtain ⟨-, -, -, hnonce, -⟩ := transactionRejectionReason_eq_none.mp hpass
    rcases hnonce with heq | ⟨-, hlt⟩
    · exact heq.ge
    · exact hlt.le
  have hbefore : ∀ t ∈ history, NonceBefore t tx := fun t ht heq =>
    (lt_expectedNonce hcovers hahead ht).trans_le (heq ▸ hnonce)
  refine ⟨?_, ?_, ?_⟩
  · rw [(settleTransaction_eq_ok hsettle).2, (executeTransaction_frame hexecute).1]
    exact hcovers.recordConfirmedNonce tx
  · intro t ht n hn
    rw [hexpected, ExpectedNonces.set] at hn
    rcases List.mem_append.mp ht with ht | ht
    · split at hn
      · next heq =>
        cases hn
        have := hbefore t ht heq
        omega
      · exact hahead t ht n hn
    · rw [List.mem_singleton.mp ht] at hn ⊢
      rw [if_pos rfl] at hn
      cases hn
      omega
  · rw [List.pairwise_append]
    refine ⟨hhistory, List.pairwise_singleton _ _, fun t ht t' ht' => ?_⟩
    rw [List.mem_singleton.mp ht']
    exact hbefore t ht

theorem foldlM_applyBlockTransaction_extends {cfg : Config} {now : Instant} {ctx : BlockContext} :
    ∀ (transactions : List Tx) {b b' : BlockProgress} {history : List Tx},
      transactions.foldlM (applyBlockTransaction cfg now ctx) b = .ok b' →
      Covers b.state.accountNonces history → Ahead b.expected history →
      history.Pairwise NonceBefore →
      Covers b'.state.accountNonces (history ++ transactions) ∧
        (history ++ transactions).Pairwise NonceBefore
  | [], b, b', history, h, hcovers, _, hhistory => by
    rw [List.foldlM_nil] at h
    cases h
    rw [List.append_nil]
    exact ⟨hcovers, hhistory⟩
  | tx :: rest, b, b', history, h, hcovers, hahead, hhistory => by
    rw [List.foldlM_cons] at h
    obtain ⟨b₁, hstep, hrest⟩ := bind_eq_ok.mp h
    obtain ⟨hcovers₁, hahead₁, hhistory₁⟩ :=
      applyBlockTransaction_extends hstep hcovers hahead hhistory
    have hind := foldlM_applyBlockTransaction_extends rest hrest hcovers₁ hahead₁ hhistory₁
    rwa [List.append_assoc, List.singleton_append] at hind

/-- A call that returns extends the history by its transactions. -/
theorem BlockCall.run_extends {cfg : Config} {call : BlockCall} {nonces : Sql.Table String ℤ}
    {s : NodeState} {history : List Tx} (h : call.run cfg nonces = .ok s)
    (hcovers : Covers nonces history) (hhistory : history.Pairwise NonceBefore) :
    Covers s.accountNonces (history ++ call.transactions) ∧
      (history ++ call.transactions).Pairwise NonceBefore := by
  obtain ⟨s₁, hensure, happly⟩ := bind_eq_ok.mp h
  obtain ⟨mempool, -, hensure⟩ := bind_eq_ok.mp hensure
  cases hensure
  obtain ⟨b, hloop, rfl⟩ := applyBlockTransactions_eq_ok.mp happly
  exact foldlM_applyBlockTransaction_extends call.transactions hloop hcovers
    (fun _ _ _ hn => nomatch hn) hhistory

/-- The history that a run appends to a covered history is ordered together with it. -/
theorem executedTransactions_pairwise (cfg : Config) :
    ∀ (calls : List BlockCall) (nonces : Sql.Table String ℤ) (history : List Tx),
      Covers nonces history → history.Pairwise NonceBefore →
      (history ++ executedTransactions cfg nonces calls).Pairwise NonceBefore
  | [], _, history, _, hhistory => by
    rw [executedTransactions, List.append_nil]
    exact hhistory
  | call :: calls, nonces, history, hcovers, hhistory => by
    rw [executedTransactions]
    split
    · exact executedTransactions_pairwise cfg calls nonces history hcovers hhistory
    · next s hrun =>
      obtain ⟨hcovers', hhistory'⟩ := BlockCall.run_extends hrun hcovers hhistory
      rw [← List.append_assoc]
      exact executedTransactions_pairwise cfg calls s.accountNonces _ hcovers' hhistory'

/-! ## Hashes -/

/-- The field of an object. -/
def jsonField (key : String) : Json.Value → Option Json.Value
  | .obj fields => fields.lookup key
  | _ => none

theorem jsonField_nonce (p : UnsignedPayload) : jsonField "nonce" p.toJson = some (.int p.nonce) := by
  unfold UnsignedPayload.toJson jsonField
  cases p.withUnits <;> simp [List.lookup_cons]

theorem jsonField_sender (p : UnsignedPayload) : jsonField "sender" p.toJson = some (.str p.sender) := by
  unfold UnsignedPayload.toJson jsonField
  by_cases hnull : p.recipient = none ∧ p.withNullRecipient = false <;>
    cases p.withUnits <;> simp [List.lookup_cons, hnull]

/-- Two payloads that are hashed from one JSON value have the same sender and nonce. -/
theorem hashedPayload_inj {p p' : UnsignedPayload} {k k' : String}
    (h : hashedPayload p k = hashedPayload p' k') : p.sender = p'.sender ∧ p.nonce = p'.nonce := by
  have htx : p.toJson = p'.toJson := by
    simp only [hashedPayload, Json.Value.obj.injEq, List.cons.injEq, Prod.mk.injEq, true_and,
      and_true] at h
    exact h.2
  have hsender := congrArg (jsonField "sender") htx
  have hnonce := congrArg (jsonField "nonce") htx
  rw [jsonField_sender, jsonField_sender] at hsender
  rw [jsonField_nonce, jsonField_nonce] at hnonce
  exact ⟨by simpa using hsender, by simpa using hnonce⟩

/-- No two different payloads of the listed transactions have one hash. -/
def NoHashCollision (cfg : Config) (transactions : List Tx) : Prop :=
  ∀ t ∈ transactions, ∀ t' ∈ transactions, ∀ p p', signedPayload cfg t = some p →
    signedPayload cfg t' = some p' →
    cfg.hashJson (hashedPayload p t.publicKey) = cfg.hashJson (hashedPayload p' t'.publicKey) →
    hashedPayload p t.publicKey = hashedPayload p' t'.publicKey

theorem BlockCall.run_signed {cfg : Config} {call : BlockCall} {nonces : Sql.Table String ℤ}
    {s : NodeState} (h : call.run cfg nonces = .ok s) :
    ∀ tx ∈ call.transactions, isSignatureValid cfg tx = true := by
  intro tx htx
  obtain ⟨s₁, -, happly⟩ := bind_eq_ok.mp h
  obtain ⟨b, hloop, -⟩ := applyBlockTransactions_eq_ok.mp happly
  obtain ⟨b₁, b₂, hstep⟩ := foldlM_forall call.transactions _ _ hloop tx htx
  exact (transactionRejectionReason_eq_none.mp (applyBlockTransaction_eq_ok hstep).1).2.1

theorem executedTransactions_signed (cfg : Config) :
    ∀ (calls : List BlockCall) (nonces : Sql.Table String ℤ),
      ∀ tx ∈ executedTransactions cfg nonces calls, isSignatureValid cfg tx = true
  | [], _, _, htx => nomatch htx
  | call :: calls, nonces, tx, htx => by
    rw [executedTransactions] at htx
    split at htx
    · exact executedTransactions_signed cfg calls nonces tx htx
    · next s hrun =>
      rcases List.mem_append.mp htx with htx | htx
      · exact BlockCall.run_signed hrun tx htx
      · exact executedTransactions_signed cfg calls s.accountNonces tx htx

/-- Signed transactions with one hash have one sender and nonce, if no two payloads collide. -/
theorem sender_nonce_of_txHash_eq {cfg : Config} {transactions : List Tx}
    (hcollision : NoHashCollision cfg transactions)
    (hsigned : ∀ tx ∈ transactions, isSignatureValid cfg tx = true) {t t' : Tx}
    (ht : t ∈ transactions) (ht' : t' ∈ transactions) (hhash : t.txHash = t'.txHash) :
    t.sender = t'.sender ∧ t.nonce = t'.nonce := by
  obtain ⟨p, hp, -⟩ := isSignatureValid_signed (hsigned t ht)
  obtain ⟨p', hp', -⟩ := isSignatureValid_signed (hsigned t' ht')
  obtain ⟨hh, -, -, hsender, hnonce⟩ := signedPayload_spec hp
  obtain ⟨hh', -, -, hsender', hnonce'⟩ := signedPayload_spec hp'
  have hpayload := hcollision t ht t' ht' p p' hp hp' (by
    rw [← transactionHash, ← transactionHash, hh, hh', hhash])
  obtain ⟨heq, heq'⟩ := hashedPayload_inj hpayload
  exact ⟨by rw [← hsender, heq, hsender'], by rw [← hnonce, heq', hnonce']⟩

/-- **No replay.** Over any sequence of received blocks, the nonces executed for each sender
strictly increase; no pair of sender and nonce is executed twice, and no transaction hash, as long
as no two of the signed payloads collide. -/
theorem no_replay (cfg : Config) (nonces : Sql.Table String ℤ) (calls : List BlockCall) :
    (∀ sender, (((executedTransactions cfg nonces calls).filter fun t => t.sender = sender).map
        Tx.nonce).Pairwise (· < ·)) ∧
      ((executedTransactions cfg nonces calls).map fun t => (t.sender, t.nonce)).Nodup ∧
      (NoHashCollision cfg (executedTransactions cfg nonces calls) →
        ((executedTransactions cfg nonces calls).map Tx.txHash).Nodup) := by
  have hordered : (executedTransactions cfg nonces calls).Pairwise NonceBefore :=
    executedTransactions_pairwise cfg calls nonces [] (fun _ ht => nomatch ht) List.Pairwise.nil
  have hsigned := executedTransactions_signed cfg calls nonces
  refine ⟨fun sender => ?_, ?_, fun hcollision => ?_⟩
  · rw [List.pairwise_map]
    refine (hordered.filter _).imp_of_mem fun {t t'} ht ht' hbefore => hbefore ?_
    have hs := (List.mem_filter.mp ht).2
    have hs' := (List.mem_filter.mp ht').2
    simp only [decide_eq_true_eq] at hs hs'
    rw [hs, hs']
  · rw [List.Nodup, List.pairwise_map]
    refine hordered.imp fun {t t'} hbefore heq => ?_
    have hlt := hbefore (congrArg Prod.fst heq)
    have hnonce : t.nonce = t'.nonce := congrArg Prod.snd heq
    omega
  · rw [List.Nodup, List.pairwise_map]
    refine hordered.imp_of_mem fun {t t'} ht ht' hbefore hhash => ?_
    obtain ⟨hsender, hnonce⟩ := sender_nonce_of_txHash_eq hcollision hsigned ht ht' hhash
    have hlt := hbefore hsender
    omega

end Picoin
