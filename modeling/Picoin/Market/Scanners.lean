import Picoin.Market.DepositCalls

/-!
# Scanners over the views of a chain

A scanner asks a node of the chain for its height and for transfers, and accepts the transfers and
processes the confirmations afterwards. A later answer of the node may have other blocks.

* **`ChainView`** — the blocks of a chain as a node shows them at one time;
* **`scanStep`** — a new view, a transfer that is accepted from a view, or one transaction of a call
  of `process_confirmations` that was started with the height of a view.
-/

namespace Picoin.Market

/-- The hashes of the blocks of a chain, from the first one. -/
structure ChainView where
  chainCode : String
  blocks : List String
deriving DecidableEq

/-- The height of the latest block. -/
def ChainView.latest (view : ChainView) : ℤ := view.blocks.length - 1

/-- The block at a height. -/
def ChainView.block (view : ChainView) (blockNumber : ℤ) : Option String :=
  if blockNumber < 0 then none else view.blocks[blockNumber.toNat]?

/-- The blocks of the view that have their confirmations. -/
def ChainView.settled (confirmationsRequired : ℤ) (view : ChainView) : List String :=
  view.blocks.take ((view.blocks.length : ℤ) + 1 - confirmationsRequired).toNat

/-- A later view of a chain has every block that has its confirmations in the earlier one. -/
def ChainView.follows (mc : MarketConfig) (earlier later : ChainView) : Bool :=
  match mc.getChain later.chainCode with
  | .error _ => true
  | .ok chain => earlier.chainCode ≠ later.chainCode ||
    (earlier.settled chain.confirmationsRequired).isPrefixOf later.blocks

/-- The view shows the deposit with its confirmations. -/
def ChainView.finalFor (mc : MarketConfig) (view : ChainView) (deposit : Deposit) : Bool :=
  match mc.getChain view.chainCode with
  | .error _ => false
  | .ok chain =>
    chain.chainCode = deposit.chainCode && deposit.final chain.confirmationsRequired view.latest

/-- The tables, the views so far, and the calls with the view that each was started with. `seen` has
the hash of the block in which the transfer of a stored deposit was seen, and `credits` the deposits
that were credited, each with the view that was used. -/
structure ScanState where
  views : List ChainView
  tables : DepositTables
  calls : Sql.Table ℕ (ChainView × DepositCall)
  seen : Sql.Table String String
  credits : List (String × ChainView)

def ScanState.start : ScanState := ⟨[], ⟨.empty, .empty⟩, .empty, .empty, []⟩

inductive ScanEvent where
  | view (view : ChainView)
  | sight (view : ℕ) (request : ScannerDepositCreateRequest) (now : Instant)
  | process (call view : ℕ)
  | next (call : ℕ) (now : Instant)

/-- The deposit of a transfer that a view has in one of its blocks, and the hash of that block. Where
the node names the block of the transfer, it names this one. -/
def ScanState.sighting (mc : MarketConfig) (view : ℕ) (request : ScannerDepositCreateRequest)
    (now : Instant) (s : ScanState) : Option (Deposit × String) := do
  let view ← s.views[view]?
  let blockHash ← view.block request.blockNumber
  let request := { request with
    chainCode := view.chainCode
    blockHash := request.blockHash.map fun _ => blockHash }
  let deposit ← (newDeposit mc request now).toOption
  return (deposit, blockHash)

/-- The hash of the block is noted where the deposit was stored now. -/
def noteSeen (before after : Deposits) (depositId blockHash : String)
    (seen : Sql.Table String String) : Sql.Table String String :=
  if (before.find? depositId).isNone && (after.find? depositId).isSome then
    seen.upsert depositId blockHash
  else seen

/-- The deposits that have an entry now and had none before. -/
def newCredits (before after : Ledger) : List String :=
  (after.rows.filter fun row => row.1.1 = "deposit" && (before.find? row.1).isNone).map
    fun row => row.1.2

def scanStep (mc : MarketConfig) (s : ScanState) : ScanEvent → ScanState
  | .view view => { s with views := s.views ++ [view] }
  | .sight view request now => match s.sighting mc view request now with
    | none => s
    | some (deposit, blockHash) => match storeDeposit s.tables.deposits deposit with
      | .error _ => s
      | .ok deposits => { s with
          tables := ⟨deposits, s.tables.ledger⟩
          seen := noteSeen s.tables.deposits deposits deposit.depositId blockHash s.seen }
  | .process call view => match s.views[view]? with
    | none => s
    | some view =>
      { s with calls := s.calls.insertNew call (view, .readRows view.chainCode view.latest) }
  | .next call now => match s.calls.find? call with
    | none => s
    | some (view, left) =>
      let (tables, left') := left.next mc now s.tables
      { s with
        tables
        calls := s.calls.upsert call (view, left')
        credits := s.credits ++
          (newCredits s.tables.ledger tables.ledger).map fun depositId => (depositId, view) }

end Picoin.Market
