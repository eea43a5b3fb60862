import Mathlib.Data.List.Infix
import Picoin.Core.Text
import Picoin.Services.Ledger

/-!
# The genesis of the ledger

`app/services/genesis.py`, and the end of `init_db` in `app/db/database.py`. Every start of a node
runs `_ensure_genesis_balance`: a ledger without the genesis entry gets it, and the accounts of the
allocation file that have not been funded are funded from the genesis account.

* **`normalizeGenesisAllocations`** — the allocation file as it is read;
* **`validateMainnetGenesisAllocations`** — what the mainnet asks of it;
* **`ensureGenesisBalance`** — one start of a node.
-/

namespace Picoin

open Decimal Outcome

/-! ## The allocation file -/

/-- An item of `allocations` in the file. -/
structure RawAllocation where
  accountId : String
  accountType : Option String
  amount : Dec
  description : Option String

structure RawGenesisDocument where
  version : Option ℤ
  networkId : Option String
  chainId : Option ChainId
  createdAt : Option String
  allocations : List RawAllocation

structure Allocation where
  accountId : String
  accountType : String
  amount : ℤ
  description : String
deriving DecidableEq

structure GenesisDocument where
  version : ℤ
  networkId : String
  chainId : ChainId
  createdAt : String
  allocations : List Allocation
deriving DecidableEq

/-- `to_units(allocation["amount"])`. -/
def Allocation.units (a : Allocation) : ℤ := unitsOf a.amount

def genesisAllocationVersion : ℤ := 1
def genesisTimestamp : String := "1970-01-01T00:00:00+00:00"

def normalizeChainId (value : Option ChainId) : ChainId :=
  match value with
  | none => .text ""
  | some (.number n) => .number n
  | some (.text t) =>
    let cleaned := (strip t).toList
    if cleaned ≠ [] ∧ cleaned.all Char.isDigit then
      .number (cleaned.foldl (fun n c => 10 * n + (c.toNat - 48)) 0 : ℕ)
    else .text (strip t)

/-- The truth value of a chain id. -/
def ChainId.isTrue : ChainId → Bool
  | .number n => n ≠ 0
  | .text t => t ≠ ""

def normalizeAllocation (raw : RawAllocation) : Except String Allocation :=
  let accountId := strip raw.accountId
  let amount := round8 raw.amount
  if accountId = "" then .error "genesis allocation account_id is required"
  else if amount ≤ 0 then .error "genesis allocation amount must be positive"
  else .ok
    { accountId
      accountType := strip (textOr raw.accountType "wallet")
      amount
      description := textOr raw.description "genesis allocation funding" }

/-- The order of `(account_id, account_type, amount)`. -/
def Allocation.le (a b : Allocation) : Bool :=
  if a.accountId ≠ b.accountId then a.accountId ≤ b.accountId
  else if a.accountType ≠ b.accountType then a.accountType ≤ b.accountType
  else a.amount ≤ b.amount

def normalizeGenesisAllocations (document : RawGenesisDocument) : Except String GenesisDocument := do
  let allocations ← document.allocations.mapM normalizeAllocation
  return {
    version := document.version.getD genesisAllocationVersion
    networkId := clean document.networkId
    chainId := normalizeChainId document.chainId
    createdAt := textOr document.createdAt genesisTimestamp
    allocations := allocations.mergeSort Allocation.le }

/-- A document that is read again. -/
def GenesisDocument.toRaw (d : GenesisDocument) : RawGenesisDocument where
  version := some d.version
  networkId := some d.networkId
  chainId := some d.chainId
  createdAt := some d.createdAt
  allocations := d.allocations.map fun a =>
    ⟨a.accountId, some a.accountType, amountDec a.amount, some a.description⟩

/-! ## The mainnet -/

/-- The fields of a `NetworkProfile` that the genesis reads. -/
structure NetworkProfile where
  name : String
  networkId : String
  chainId : ChainId
  genesisSupply : Dec

def mainnetProfile : NetworkProfile := ⟨"mainnet", "picoin-mainnet-v1", .number 314159, .ofInt 300⟩

def isCanonicalWalletAddress (cfg : Config) (value : String) : Bool :=
  let normalized := (upper (strip value)).toList
  let body := (normalized.take 40).drop 2
  let checksum := normalized.drop 40
  let isHex (c : Char) : Bool := "0123456789ABCDEF".toList.contains c
  startsWith (upper (strip value)) "PI" && normalized.length = 48 && (body ++ checksum).all isHex &&
    checksum = ((upper (cfg.sha256Text (String.ofList body))).toList.take 8)

/-- The loop over the allocations, with the accounts seen and the units so far. -/
def validateAllocations (cfg : Config) : List String → ℤ → List Allocation → Except String ℤ
  | _, totalUnits, [] => .ok totalUnits
  | seen, totalUnits, a :: rest =>
    if "CHANGE_ME".toList <:+: (upper a.accountId).toList then
      .error "mainnet genesis allocation account_id must not use a placeholder"
    else if a.accountId ∈ seen then
      .error "mainnet genesis allocation account_id must be unique"
    else if a.accountType ≠ "wallet" then
      .error "mainnet genesis allocations must fund wallet accounts only"
    else if isCanonicalWalletAddress cfg a.accountId = false then
      .error "mainnet genesis allocation account_id must be a canonical Picoin wallet address"
    else validateAllocations cfg (a.accountId :: seen) (totalUnits + a.units) rest

def validateMainnetGenesisAllocations (cfg : Config) (document : RawGenesisDocument) :
    Except String Unit := do
  let normalized ← normalizeGenesisAllocations document
  if normalized.networkId ≠ "" ∧ normalized.networkId ≠ mainnetProfile.networkId then
    .error "mainnet genesis allocations network_id mismatch"
  else if normalized.chainId.isTrue ∧ normalized.chainId ≠ mainnetProfile.chainId then
    .error "mainnet genesis allocations chain_id mismatch"
  else if normalized.allocations = [] then
    .error "mainnet genesis allocations are required"
  else
    let totalUnits ← validateAllocations cfg [] 0 normalized.allocations
    let expectedUnits := toUnits mainnetProfile.genesisSupply
    if totalUnits ≠ expectedUnits then
      let expected := canonicalAmount expectedUnits
      let actual := canonicalAmount totalUnits
      .error s!"mainnet genesis allocations must sum to {expected} PI, got {actual} PI"
    else .ok ()

/-! ## A start of the node -/

/-- The settings of the genesis, with the content of `GENESIS_ALLOCATIONS_FILE` where it is set. -/
structure GenesisConfig extends Config where
  profile : NetworkProfile
  allocationsFile : Option RawGenesisDocument

/-- What `settings.py` asks of a node with the mainnet profile. -/
structure GenesisConfig.OnMainnet (gc : GenesisConfig) : Prop where
  profile : gc.profile = mainnetProfile
  networkId : gc.networkId = mainnetProfile.networkId
  chainId : gc.chainId = mainnetProfile.chainId

/-- The document that the allocations are taken from, once it has passed the checks. -/
def genesisAllocations (gc : GenesisConfig) : Except String (Option GenesisDocument) :=
  match gc.allocationsFile with
  | none => .ok none
  | some raw => do
    let document ← normalizeGenesisAllocations raw
    if document.networkId ≠ "" ∧ document.networkId ≠ gc.networkId then
      .error "genesis allocations network_id mismatch"
    else if document.chainId.isTrue ∧ document.chainId.str ≠ gc.chainId.str then
      .error "genesis allocations chain_id mismatch"
    else if gc.profile.name = "mainnet" then do
      validateMainnetGenesisAllocations gc.toConfig document.toRaw
      return some document
    else return some document

namespace Ledger

/-- An entry of a type on an account exists. -/
def hasEntry (l : Ledger) (accountId entryType : String) : Bool :=
  l.entries.any fun e => e.accountId = accountId && e.entryType = entryType

/-- The `UPDATE` of the genesis account, which may have no row, and the entry. -/
def debitGenesis (l : Ledger) (p : Posting) : Ledger :=
  match l.accountType? genesisAccountId with
  | some rowType => l.write rowType p
  | none => { l with entries := l.entries ++ [⟨p, l.balanceUnits genesisAccountId + p.amountUnits⟩] }

/-- The genesis account gets the supply, whatever its balance was. -/
def mintGenesis (l : Ledger) (supplyUnits : ℤ) : Ledger where
  balances := l.balances.upsert genesisAccountId ⟨"genesis", supplyUnits⟩
  entries := l.entries ++ [
    { accountId := genesisAccountId
      accountType := "genesis"
      amountUnits := supplyUnits
      entryType := "genesis"
      blockHeight := some 0
      relatedId := some "genesis"
      description := some "genesis allocation"
      createdAt := genesisTimestamp
      balanceAfterUnits := supplyUnits }]

end Ledger

/-- The debit and the credit of an allocation. -/
def allocationPostings (createdAt : String) (a : Allocation) : Posting × Posting :=
  let accountId := a.accountId
  ({ accountId := genesisAccountId
     accountType := "genesis"
     amountUnits := -a.units
     entryType := "genesis_allocation_debit"
     blockHeight := none
     relatedId := some accountId
     description := some s!"genesis allocation debit for {accountId}"
     createdAt },
   { accountId
     accountType := a.accountType
     amountUnits := a.units
     entryType := "genesis_allocation"
     blockHeight := none
     relatedId := some "genesis"
     description := some a.description
     createdAt })

/-- One item of the loop of `_ensure_genesis_allocations`. -/
def ensureAllocation (createdAt : String) (l : Ledger) (a : Allocation) : Except String Ledger :=
  let accountId := a.accountId
  let (debit, credit) := allocationPostings createdAt a
  if l.hasEntry accountId "genesis_allocation" then .ok l
  else if l.balanceUnits genesisAccountId < a.units then
    .error s!"genesis balance insufficient for allocation to {accountId}"
  else .ok ((l.debitGenesis debit).write a.accountType credit)

def ensureGenesisAllocations (gc : GenesisConfig) (l : Ledger) : Except String Ledger := do
  match ← genesisAllocations gc with
  | none => return l
  | some document => document.allocations.foldlM (ensureAllocation document.createdAt) l

/-- `_ensure_genesis_balance`; `activeSnapshot` says that a restored snapshot is active. -/
def ensureGenesisBalance (gc : GenesisConfig) (activeSnapshot : Bool) (l : Ledger) :
    Except String Ledger :=
  if activeSnapshot then
    .ok { l with entries := l.entries.filter fun e =>
      !(e.entryType = "genesis" && e.accountId = genesisAccountId) }
  else if l.hasEntry genesisAccountId "genesis" then ensureGenesisAllocations gc l
  else ensureGenesisAllocations gc (l.mintGenesis (toUnits gc.profile.genesisSupply))

end Picoin
