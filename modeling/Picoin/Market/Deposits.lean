import Picoin.Market.Payments

/-!
# Deposits

A transfer on a chain is accepted as a deposit once, waits for its confirmations, and is credited to
the account of the wallet that it came from.

* **`normalizeTxHash`**, **`acceptDeposit`** — a sighting of a transfer, in one transaction;
* **`creditStep`** — `credit_deposit`, one transaction at a time;
* **`Deposit.confirm`** — what `process_confirmations` makes of a deposit.
-/

namespace Picoin.Market

open Json

/-! ## Addresses and hashes -/

def isHexDigit (c : Char) : Bool :=
  ('0' ≤ c && c ≤ '9') || ('a' ≤ c && c ≤ 'f') || ('A' ≤ c && c ≤ 'F')

/-- `re.fullmatch` of a number of hexadecimal digits within two bounds. -/
def isHex (least most : ℕ) (digits : List Char) : Bool :=
  least ≤ digits.length && digits.length ≤ most && digits.all isHexDigit

/-- The text after `0x`, if it starts so. -/
def afterPrefix (text : List Char) : Option (List Char) :=
  match text with
  | '0' :: 'x' :: rest => some rest
  | _ => none

def normalizeAddress (family : ChainFamily) (value : String) : Except String String :=
  let address := strip value
  match family with
  | .evm =>
    if (afterPrefix address.toList).any (isHex 40 40) then .ok (lower address)
    else .error "invalid EVM address"
  | .picoin =>
    let normalized := upper address
    if startsWith normalized "PI" = false ∨ normalized.toList.length < 10 then
      .error "invalid Picoin address"
    else .ok normalized

def normalizeTxHash (family : ChainFamily) (value : String) : Except String String :=
  let txHash := strip value
  match family with
  | .evm =>
    if (afterPrefix txHash.toList).any (isHex 64 64) then .ok (lower txHash)
    else .error "invalid EVM transaction hash"
  | .picoin =>
    if isHex 16 128 ((afterPrefix txHash.toList).getD txHash.toList) then .ok (lower txHash)
    else .error "invalid Picoin transaction hash"

/-! ## Sightings -/

/-- A sighting of a transfer. The amount is the integer that its text holds, if it holds one. -/
structure ScannerDepositCreateRequest where
  chainCode : String
  tokenSymbol : String
  fromAddress : String
  toAddress : String
  amountBaseUnits : Option ℤ
  txHash : String
  blockNumber : ℤ
  blockHash : Option String
  logIndex : ℤ
  status : DepositStatus

def assertPositiveBaseUnits (value : Option ℤ) : Except String ℤ :=
  match value with
  | none => .error "amount_base_units must be an integer string"
  | some amount =>
    if amount ≤ 0 then .error "amount_base_units must be greater than zero" else .ok amount

/-- The hash of the block, where the sighting has one. -/
def normalizeBlockHash (family : ChainFamily) (blockHash : Option String) :
    Except String (Option String) :=
  if present blockHash then (normalizeTxHash family (textOr blockHash "")).map some else .ok none

/-- The chain and the token take deposits. -/
def checkEnabled (enabled : Bool) (reason : String) : Except String Unit :=
  if enabled then .ok () else .error reason

def checkDestination (chain : ChainDefinition) (toAddress : String) : Except String Unit :=
  if present chain.depositAddress ∧ some toAddress ≠ chain.depositAddress then
    .error "deposit destination does not match marketplace deposit address"
  else .ok ()

def depositId (mc : MarketConfig) (chainCode txHash : String) (logIndex : ℤ) : String :=
  "deposit_" ++ mc.shortHash (.obj
    [("chain_code", .str chainCode), ("tx_hash", .str txHash), ("log_index", .int logIndex)])

/-- The deposit of a sighting. -/
def newDeposit (mc : MarketConfig) (request : ScannerDepositCreateRequest) (now : Instant) :
    Except String Deposit := do
  let chain ← mc.getChain request.chainCode
  checkEnabled chain.enabled "chain is disabled"
  let token ← mc.getToken chain.chainCode request.tokenSymbol
  checkEnabled token.enabled "token is disabled"
  let fromAddress ← normalizeAddress chain.family request.fromAddress
  let toAddress ← normalizeAddress chain.family request.toAddress
  checkDestination chain toAddress
  let amountBaseUnits ← assertPositiveBaseUnits request.amountBaseUnits
  let txHash ← normalizeTxHash chain.family request.txHash
  let blockHash ← normalizeBlockHash chain.family request.blockHash
  match mc.verifiedWallets (normalizeChainCode chain.chainCode) fromAddress with
  | none => .error "verified origin wallet not found"
  | some wallet => return {
    depositId := depositId mc chain.chainCode txHash request.logIndex
    accountId := wallet.accountId
    walletId := wallet.walletId
    chainCode := chain.chainCode
    tokenSymbol := token.tokenSymbol
    fromAddress
    toAddress
    amountBaseUnits
    txHash
    blockNumber := request.blockNumber
    blockHash
    logIndex := request.logIndex
    confirmations := 0
    status := request.status
    confirmedAt := none
    creditedAt := none
    createdAt := now
    updatedAt := now }

/-- What `deposits_match` compares. -/
structure DepositFacts where
  accountId : String
  walletId : String
  chainCode : String
  tokenSymbol : String
  fromAddress : String
  toAddress : String
  amountBaseUnits : ℤ
  txHash : String
  blockNumber : ℤ
  logIndex : ℤ
deriving DecidableEq

def Deposit.facts (deposit : Deposit) : DepositFacts where
  accountId := deposit.accountId
  walletId := deposit.walletId
  chainCode := deposit.chainCode
  tokenSymbol := deposit.tokenSymbol
  fromAddress := deposit.fromAddress
  toAddress := deposit.toAddress
  amountBaseUnits := deposit.amountBaseUnits
  txHash := deposit.txHash
  blockNumber := deposit.blockNumber
  logIndex := deposit.logIndex

def depositsMatch (left right : Deposit) : Bool := left.facts = right.facts

/-- The two deposits are of one event. -/
def sameEvent (left right : Deposit) : Bool :=
  left.chainCode = right.chainCode && left.txHash = right.txHash && left.logIndex = right.logIndex

/-- The transaction of `accept_deposit` that looks for the event and inserts the deposit. -/
def storeDeposit (deposits : Deposits) (deposit : Deposit) : Except String Deposits :=
  match deposits.rows.find? fun row => sameEvent row.2 deposit with
  | some row =>
    if depositsMatch row.2 deposit then .ok deposits
    else .error "deposit event already exists with different payload"
  | none =>
    (deposits.insert? deposit.depositId deposit).elim
      (.error "UNIQUE constraint failed: deposits.deposit_id") .ok

/-- `accept_deposit`. -/
def acceptDeposit (mc : MarketConfig) (request : ScannerDepositCreateRequest) (now : Instant)
    (deposits : Deposits) : Except String Deposits := do
  storeDeposit deposits (← newDeposit mc request now)

/-! ## Credits -/

/-- `put_deposit`. -/
def putDeposit (deposits : Deposits) (deposit : Deposit) : Deposits :=
  deposits.modify deposit.depositId fun _ => deposit

/-- What `credit_deposit` has left to do. -/
inductive CreditStage where
  | readDeposit (depositId : String)
  | readReference (deposit : Deposit)
  | putCredit (deposit : Deposit) (entry : LedgerEntry)
  | putDeposit (deposit : Deposit)
deriving DecidableEq

/-- The deposit after its credit. -/
def Deposit.markCredited (creditedAt : Instant) (deposit : Deposit) : Deposit :=
  { deposit with
    status := .credited
    creditedAt := some creditedAt
    updatedAt := creditedAt }

/-- One transaction of `credit_deposit`: the tables, and what is left to do. -/
def creditStep (mc : MarketConfig) (now : Instant) (deposits : Deposits) (ledger : Ledger) :
    CreditStage → Except String (Deposits × Ledger × Option CreditStage)
  | .readDeposit id => match deposits.find? id with
    | none => .error s!"deposit not found: {id}"
    | some deposit =>
      if deposit.status = .confirmed ∨ deposit.status = .credited then
        .ok (deposits, ledger, some (.readReference deposit))
      else .error "deposit is not confirmed"
  | .readReference deposit => match ledger.find? (depositReference deposit.depositId) with
    | some _ =>
      if deposit.status = .credited then .ok (deposits, ledger, none)
      else .ok (deposits, ledger,
        some (.putDeposit (deposit.markCredited (deposit.creditedAt.getD now))))
    | none => .ok (deposits, ledger, some (.putCredit deposit (creditEntry mc deposit now)))
  | .putCredit deposit entry => do
    let ledger ← putLedgerEntry ledger (depositReference deposit.depositId) entry
    return (deposits, ledger, some (.putDeposit (deposit.markCredited now)))
  | .putDeposit deposit => .ok (putDeposit deposits deposit, ledger, none)

/-! ## Confirmations -/

/-- The deposits that `process_confirmations` reads. -/
def openDeposits (deposits : Deposits) (chainCode : String) : List Deposit :=
  ((deposits.rows.map Prod.snd).filter fun deposit => deposit.chainCode = chainCode &&
    (deposit.status = .detected || deposit.status = .confirming || deposit.status = .confirmed))
    |>.insertionSort fun a b => a.blockNumber < b.blockNumber ∨
      (a.blockNumber = b.blockNumber ∧ a.depositId ≤ b.depositId)

/-- The deposit has its confirmations at this height. -/
def Deposit.final (confirmationsRequired latest : ℤ) (deposit : Deposit) : Bool :=
  confirmationsRequired ≤ latest - deposit.blockNumber + 1

/-- The deposit after `process_confirmations` has looked at it. -/
def Deposit.confirm (confirmationsRequired latest : ℤ) (now : Instant) (deposit : Deposit) :
    Deposit :=
  if deposit.final confirmationsRequired latest then
    { deposit with
      confirmations := latest - deposit.blockNumber + 1
      status := .confirmed
      confirmedAt := some (deposit.confirmedAt.getD now)
      updatedAt := now }
  else
    { deposit with
      confirmations := latest - deposit.blockNumber + 1
      status := if deposit.status = .detected then .confirming else deposit.status
      updatedAt := now }

end Picoin.Market
