import Picoin.Market.DepositCalls

/-!
# Polls of a chain

A poll of a scanner reads a range of blocks, accepts the transfers to the deposit address, processes
the confirmations, and stores the last block of the range as its checkpoint. The next poll starts
after the checkpoint, unless it is told where to start.

* **`Scanner`** — the transfers of a token's contract, or those of the native coin;
* **`resolveScanFromBlock`** — where a poll starts;
* **`poll`** — `poll_evm_token_transfers` for one token, or `poll_evm_native_transfers`.
-/

namespace Picoin.Market

/-! ## Blocks -/

/-- A log as `eth_getLogs` returns it. `data` is the number that its text holds, if it holds one. -/
structure EvmLog where
  address : String
  topics : List String
  data : Option ℤ
  blockNumber : ℤ
  logIndex : ℤ
  transactionHash : String
  blockHash : Option String

/-- A transaction of a block; its block's number and hash are those of the block where it names none.
-/
structure EvmTransaction where
  «to» : Option String
  «from» : String
  value : ℤ
  blockNumber : ℤ
  hash : String
  blockHash : Option String

structure EvmBlock where
  logs : List EvmLog
  transactions : List EvmTransaction

def evmTransferTopic : String :=
  "0xddf252ad1be2c89b69c2b068fc378daa952ba7f163c4a11628f55a4df523b3ef"

def evmNativeLogIndex : ℤ := 2147483647

/-! ## Transfers -/

/-- `evm_topic_to_address`. -/
def evmTopicToAddress (topic : String) : Except String String :=
  let normalized := (lower topic).toList
  let digits := (afterPrefix normalized).getD normalized
  if digits.length ≠ 64 then .error "invalid EVM address topic"
  else .ok ("0x" ++ String.ofList (digits.drop 24))

/-- `address_to_topic`. -/
def addressToTopic (address : String) : Except String String :=
  let normalized := (lower address).toList
  let digits := (afterPrefix normalized).getD normalized
  if digits.length ≠ 40 then .error "invalid EVM address"
  else .ok ("0x" ++ String.ofList (List.replicate 24 '0' ++ digits))

/-- The address is the deposit address, where the chain has one. -/
def isDestination (chain : ChainDefinition) (toAddress : String) : Bool :=
  !present chain.depositAddress || some toAddress = chain.depositAddress

/-- `evm_transfer_log_to_deposit_request`. -/
def evmTransferLogToDepositRequest (chain : ChainDefinition) (token : TokenDefinition)
    (contractAddress : String) (log : EvmLog) :
    Except String (Option ScannerDepositCreateRequest) := do
  let contract ← normalizeAddress chain.family log.address
  match log.topics with
  | topic :: fromTopic :: toTopic :: _ =>
    if contract ≠ contractAddress ∨ lower topic ≠ evmTransferTopic then return none
    else
      let fromAddress ← evmTopicToAddress fromTopic
      let toAddress ← evmTopicToAddress toTopic
      if !isDestination chain toAddress then return none
      else match log.data with
        | none => .error "invalid literal for int() with base 16"
        | some amount =>
          if amount ≤ 0 ∨ log.blockNumber ≤ 0 then return none
          else return (some
            { chainCode := chain.chainCode
              tokenSymbol := token.tokenSymbol
              fromAddress
              toAddress
              amountBaseUnits := some amount
              txHash := log.transactionHash
              blockNumber := log.blockNumber
              blockHash := log.blockHash
              logIndex := log.logIndex
              status := .detected })
  | _ => return none

/-- `evm_native_tx_to_deposit_request`. -/
def evmNativeTxToDepositRequest (chain : ChainDefinition) (token : TokenDefinition) (txIndex : ℕ)
    (tx : EvmTransaction) : Except String (Option ScannerDepositCreateRequest) :=
  if !present tx.to then .ok none
  else do
    let toAddress ← normalizeAddress chain.family (textOr tx.to "")
    if !isDestination chain toAddress ∨ tx.value ≤ 0 ∨ tx.blockNumber ≤ 0 then return none
    else
      let fromAddress ← normalizeAddress chain.family tx.from
      return (some
        { chainCode := chain.chainCode
          tokenSymbol := token.tokenSymbol
          fromAddress
          toAddress
          amountBaseUnits := some tx.value
          txHash := tx.hash
          blockNumber := tx.blockNumber
          blockHash := tx.blockHash
          logIndex := evmNativeLogIndex - txIndex
          status := .detected })

/-- What a scanner looks for: the transfers of a contract, or of the native coin. -/
inductive Scanner where
  | token (definition : TokenDefinition) (contractAddress : String)
  | native (definition : TokenDefinition)

/-- The filter that a poll sends with `eth_getLogs`. -/
def EvmLog.matchesFilter (contractAddress depositTopic : String) (log : EvmLog) : Bool :=
  lower log.address = contractAddress && log.topics.head? = some evmTransferTopic &&
    log.topics[2]? = some depositTopic

/-- A transfer, or why there is none. -/
abbrev Sighting := Except String (Option ScannerDepositCreateRequest)

/-- What there is for a scanner in a block. -/
def Scanner.sightings (chain : ChainDefinition) (block : EvmBlock) : Scanner → List Sighting
  | .token definition contractAddress =>
    match addressToTopic (textOr chain.depositAddress "") with
    | .error _ => []
    | .ok depositTopic => (block.logs.filter (EvmLog.matchesFilter contractAddress depositTopic)).map
        (evmTransferLogToDepositRequest chain definition contractAddress)
  | .native definition => block.transactions.mapIdx (evmNativeTxToDepositRequest chain definition)

/-! ## Imports -/

/-- One turn of the loop: `KeyError` and `ValueError` are noted, a violated constraint is raised. -/
def importSighting (mc : MarketConfig) (now : Instant) (deposits : Deposits) (sighting : Sighting) :
    Except String Deposits :=
  match sighting with
  | .ok (some request) => match newDeposit mc request now with
    | .error _ => .ok deposits
    | .ok deposit => match storeDeposit deposits deposit with
      | .ok deposits => .ok deposits
      | .error reason =>
        if (deposits.rows.find? fun row => sameEvent row.2 deposit).isSome then .ok deposits
        else .error reason
  | _ => .ok deposits

/-- The loop over what was found, and whether it came to its end. `clock` has the time of each turn.
-/
def importSightings (mc : MarketConfig) (clock : ℕ → Instant) :
    List Sighting → Deposits → Deposits × Bool
  | [], deposits => (deposits, true)
  | sighting :: rest, deposits => match importSighting mc (clock 0) deposits sighting with
    | .error _ => (deposits, false)
    | .ok deposits => importSightings mc (fun turn => clock (turn + 1)) rest deposits

/-! ## Polls -/

/-- What is given to a poll. -/
structure EvmTransferPollRequest where
  fromBlock : Option ℤ
  toBlock : Option ℤ
  batchSize : ℤ
  latestBlockNumber : Option ℤ

/-- `resolve_scan_from_block`. -/
def resolveScanFromBlock (explicitFrom checkpoint : Option ℤ) (latest batchSize : ℤ) : ℤ :=
  match explicitFrom, checkpoint with
  | some explicitFrom, _ => explicitFrom
  | none, some checkpoint => checkpoint + 1
  | none, none => max 0 (latest - batchSize + 1)

/-- A poll, with the answers of the node: its number of blocks and the height that it reports, and
what it answers to `eth_getLogs` (for a contract, a topic and two heights) and to
`eth_getBlockByNumber`, if it answers. `imports` and `confirmations` are the times of the imports and
of the transactions of `process_confirmations`. -/
structure PollCall where
  request : EvmTransferPollRequest
  visible : ℕ
  reported : ℤ
  getLogs : String → String → ℤ → ℤ → Option (List EvmLog)
  getBlock : ℤ → Option EvmBlock
  imports : ℕ → Instant
  confirmations : List Instant

/-- The tables, and the checkpoint of the scanner. `scanned` has the ranges of the polls that have
returned. -/
structure ScannerState where
  tables : DepositTables
  checkpoint : Option ℤ
  scanned : List (ℤ × ℤ)

def PollCall.latest (call : PollCall) : ℤ := call.request.toBlock.getD call.reported

def PollCall.fromBlock (call : PollCall) (s : ScannerState) : ℤ :=
  resolveScanFromBlock call.request.fromBlock s.checkpoint call.latest call.request.batchSize

def PollCall.toBlock (call : PollCall) (s : ScannerState) : ℤ :=
  min call.latest (call.fromBlock s + call.request.batchSize - 1)

/-- The heights that a poll reads. -/
def PollCall.heights (call : PollCall) (s : ScannerState) : List ℤ :=
  (List.range (call.toBlock s + 1 - call.fromBlock s).toNat).map fun (i : ℕ) =>
    call.fromBlock s + i

/-- The blocks at some heights, up to the first that the node does not return. -/
def PollCall.getBlocks (call : PollCall) : List ℤ → List EvmBlock
  | [] => []
  | height :: rest => match call.getBlock height with
    | none => []
    | some block => block :: call.getBlocks rest

/-- The answer to `evm_get_transfer_logs`. -/
def PollCall.transferLogs (call : PollCall) (chain : ChainDefinition) (s : ScannerState)
    (contractAddress : String) : Option (List EvmLog) :=
  match addressToTopic (textOr chain.depositAddress "") with
  | .error _ => none
  | .ok depositTopic =>
    call.getLogs contractAddress depositTopic (call.fromBlock s) (call.toBlock s)

/-- What a poll finds. -/
def PollCall.sightings (call : PollCall) (chain : ChainDefinition) (s : ScannerState) :
    Scanner → List Sighting
  | .token definition contractAddress => ((call.transferLogs chain s contractAddress).getD []).map
      (evmTransferLogToDepositRequest chain definition contractAddress)
  | .native definition => (call.getBlocks (call.heights s)).flatMap fun block =>
      block.transactions.mapIdx (evmNativeTxToDepositRequest chain definition)

/-- The height that `process_confirmations` is called with. -/
def PollCall.confirmAt (call : PollCall) : ℤ :=
  (call.request.latestBlockNumber.filter fun n => n ≠ 0).getD call.latest

/-- The requests for the logs or the blocks are answered, and the confirmations are asked for a
positive height. -/
def PollCall.answered (chain : ChainDefinition) (call : PollCall) (s : ScannerState)
    (scanner : Scanner) : Bool :=
  0 < call.confirmAt && match scanner with
    | .token _ contractAddress => (call.transferLogs chain s contractAddress).isSome
    | .native _ => (call.heights s).all fun height => (call.getBlock height).isSome

/-- The transactions of a call, at these times. -/
def runCall (mc : MarketConfig) : List Instant → DepositTables × DepositCall →
    DepositTables × DepositCall
  | [], s => s
  | now :: rest, s => runCall mc rest (s.2.next mc now s.1)

/-- A poll of a scanner of a chain. Where the imports or the confirmations raise, or the process
stops before they end, the checkpoint stays. -/
def poll (mc : MarketConfig) (chain : ChainDefinition) (scanner : Scanner) (s : ScannerState)
    (call : PollCall) : ScannerState :=
  let (deposits, complete) :=
    importSightings mc call.imports (call.sightings chain s scanner) s.tables.deposits
  if chain.family ≠ .evm then s
  else if !complete || !call.answered chain s scanner then
    { s with tables := ⟨deposits, s.tables.ledger⟩ }
  else
    let (tables, left) := runCall mc call.confirmations
      (⟨deposits, s.tables.ledger⟩, .readRows chain.chainCode call.confirmAt)
    match left with
    | .finished _ =>
      ⟨tables, some (call.toBlock s), s.scanned ++ [(call.fromBlock s, call.toBlock s)]⟩
    | _ => { s with tables }

end Picoin.Market
