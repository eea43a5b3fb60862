import Picoin.Services.Execution

/-!
# The mempool

Two ways lead from the mempool to a block. A node that builds a block takes pending transactions
with `selectTransactionsForTask`, in the order of their fees, pass after pass until a pass adds
nothing; what a selection may spend of a balance and of the faucet limit is reserved as it goes. A
node that receives a block first puts the block's transactions into its own mempool with
`ensureBlockTransactionsInMempool`.
-/

namespace Picoin

open Outcome

abbrev Mempool := Sql.Table String MempoolRow

/-! ## Receiving a block -/

/-- The transaction that a mempool row is made of: its money fields and its chain are written
out. -/
def mempoolTransaction (cfg : Config) (tx : Tx) : Tx :=
  { decodeMempoolTransaction tx with
    networkId := some (tx.networkId.getD cfg.networkId)
    chainId := some (tx.chainId.getD cfg.chainId) }

/-- The row of another transaction with the same sender and nonce. -/
def nonceConflict (mempool : Mempool) (tx : Tx) : Option (String × MempoolRow) :=
  mempool.rows.find? fun r => r.2.tx.sender = tx.sender && r.2.tx.nonce = tx.nonce

/-- One turn of `ensure_block_transactions_in_mempool`. -/
def ensureInMempool (cfg : Config) (mempool : Mempool) (tx : Tx) : Except ExecError Mempool :=
  let row : MempoolRow :=
    { tx := mempoolTransaction cfg tx, status := .pending, blockHeight := none, failureReason := none }
  if !isSignatureValid cfg tx then
    .error (.transactionExecution ("invalid signature for block transaction " ++ tx.txHash))
  else if (mempool.find? tx.txHash).isSome then .ok mempool
  else match nonceConflict mempool tx with
    | none => .ok (mempool.upsert tx.txHash row)
    | some (hash, conflict) =>
      if conflict.status = .confirmed ∧ conflict.blockHeight ≠ none then
        .error (.transactionExecution
          "canonical block transaction conflicts with confirmed sender nonce")
      else .ok ((mempool.filterRows fun h _ => h ≠ hash).upsert tx.txHash row)

/-- `ensure_block_transactions_in_mempool`. -/
def ensureBlockTransactionsInMempool (cfg : Config) (s : NodeState) (transactions : List Tx) :
    Except ExecError NodeState := do
  let mempool ← transactions.foldlM (ensureInMempool cfg) s.mempool
  return { s with mempool }

/-! ## Building a block -/

/-- `_basic_transaction_rejection_reason`. -/
def basicTransactionRejectionReason (cfg : Config) (tx : Tx) : Option String :=
  if !tx.txType.supported then some "unsupported transaction type for block execution"
  else if !isSignatureValid cfg tx then some "invalid transaction signature"
  else if tx.networkId ≠ some cfg.networkId ∨
      tx.chainId.elim "None" ChainId.str ≠ cfg.chainId.str then
    some "transaction network or chain mismatch"
  else if txFeeUnits tx < cfg.minTxFeeUnits then some "transaction fee below minimum"
  else if txAmountUnits tx < 0 then some "amount must be non-negative"
  else none

/-- `_fail_transaction`. -/
def failTransaction (mempool : Mempool) (txHash reason : String) : Mempool :=
  mempool.modify txHash fun row => { row with status := .failed, failureReason := some reason }

/-- The order of `canonical_mempool_selection_order_sql`. -/
def selectionOrder (a b : Tx) : Prop :=
  txFeeUnits b < txFeeUnits a ∨ (txFeeUnits a = txFeeUnits b ∧ a.txHash ≤ b.txHash)

instance : DecidableRel selectionOrder := fun a b => by
  unfold selectionOrder; infer_instance

/-- The pending transactions as `decode_mempool_transaction` reads them, in selection order. -/
def pendingTransactions (mempool : Mempool) : List Tx :=
  ((mempool.rows.filter fun r => r.2.status = .pending).map fun r =>
    { decodeMempoolTransaction r.2.tx with txHash := r.1 }).insertionSort selectionOrder

/-- The state of a selection. `expected`, `reservedUnits` and `reservedFaucet` are its three
dictionaries by sender. -/
structure Selection where
  mempool : Mempool
  expected : ExpectedNonces
  reservedUnits : String → ℤ
  reservedFaucet : String → List Instant
  selected : List Tx
  progress : Bool

/-- Take a transaction into the selection. -/
def Selection.take (sel : Selection) (tx : Tx) : Selection where
  mempool := sel.mempool
  expected := sel.expected.set tx.sender (tx.nonce + 1)
  reservedUnits a := sel.reservedUnits a + if a = tx.sender then totalDebitUnits tx else 0
  reservedFaucet a :=
    if tx.txType = .faucet ∧ a = tx.sender then sel.reservedFaucet a ++ [tx.timestamp.instant]
    else sel.reservedFaucet a
  selected := sel.selected ++ [tx]
  progress := true

/-- Mark a transaction as failed. -/
def Selection.fail (sel : Selection) (tx : Tx) (reason : String) : Selection :=
  { sel with mempool := failTransaction sel.mempool tx.txHash reason }

/-- One row of a pass. -/
def considerTransaction (cfg : Config) (now : Instant) (s : NodeState) (maxCount : ℕ)
    (sel : Selection) (tx : Tx) : Selection :=
  let s := { s with mempool := sel.mempool }
  let next := expectedNonce s sel.expected tx.sender
  if maxCount ≤ sel.selected.length ∨ tx.txHash ∈ sel.selected.map Tx.txHash then sel
  else match basicTransactionRejectionReason cfg tx with
    | some reason => sel.fail tx reason
    | none =>
      if tx.nonce < next then sel.fail tx s!"invalid nonce, expected {next}"
      -- a gap: the transaction stays pending
      else if next < tx.nonce then sel
      else match transactionRejectionReason cfg now s tx sel.expected
          (sel.reservedFaucet tx.sender) false false with
        | some reason => sel.fail tx reason
        | none =>
          if s.ledger.balanceUnits tx.sender <
              sel.reservedUnits tx.sender + totalDebitUnits tx then sel
          else sel.take tx

/-- One pass over the pending rows. -/
def selectionPass (cfg : Config) (now : Instant) (s : NodeState) (maxCount : ℕ) (rows : List Tx)
    (sel : Selection) : Selection :=
  rows.foldl (considerTransaction cfg now s maxCount) { sel with progress := false }

/-- The passes. A pass that makes progress adds a transaction, so `maxCount` passes are enough. -/
def selectionPasses (cfg : Config) (now : Instant) (s : NodeState) (maxCount : ℕ)
    (rows : List Tx) : ℕ → Selection → Selection
  | 0, sel => sel
  | fuel + 1, sel =>
    let sel := selectionPass cfg now s maxCount rows sel
    if sel.progress ∧ sel.selected.length < maxCount then
      selectionPasses cfg now s maxCount rows fuel sel
    else sel

/-- The state before the first pass. -/
def emptySelection (mempool : Mempool) : Selection where
  mempool := mempool
  expected _ := none
  reservedUnits _ := 0
  reservedFaucet _ := []
  selected := []
  progress := true

/-- The selection that `select_transactions_for_task` ends with. -/
def runSelection (cfg : Config) (now : Instant) (s : NodeState) (maxCount : ℕ) : Selection :=
  selectionPasses cfg now s maxCount (pendingTransactions s.mempool) maxCount
    (emptySelection s.mempool)

/-- `select_transactions_for_task`. -/
def selectTransactionsForTask (cfg : Config) (now : Instant) (s : NodeState) (maxCount : ℕ) :
    List Tx :=
  (runSelection cfg now s maxCount).selected

end Picoin
