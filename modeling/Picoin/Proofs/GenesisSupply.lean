import Picoin.Proofs.DoubleEntry
import Picoin.Services.Genesis

/-!
# The genesis supply

On the mainnet the supply is paid out by the first start of a node, and never again:

* **`allocations_of_valid`** — what the validation of the file says of its allocations, although it
  reads the normalised document once more;
* **`ensureAllocations_posts`** — the loop funds them all, one by one;
* **`Bootstrapped`** — what a later start finds, and every call that writes coins leaves;
* **`genesis_minted_once`** — the first start, and every later one.
-/

namespace Picoin

open Decimal Outcome

/-! ## The allocation file -/

/-- What identifies an allocation: the account and the amount. -/
def Allocation.key (a : Allocation) : String × ℤ := (a.accountId, a.amount)

/-- A normalized allocation has the stripped account and the rounded amount, which is positive. -/
theorem normalizeAllocation_eq_ok {raw : RawAllocation} {a : Allocation}
    (h : normalizeAllocation raw = .ok a) :
    a.key = (strip raw.accountId, round8 raw.amount) ∧ 0 < a.amount := by
  unfold normalizeAllocation at h
  dsimp only at h
  split at h
  · cases h
  · split at h
    · cases h
    · next hamount =>
      cases h
      exact ⟨rfl, not_le.mp hamount⟩

/-- Stripping it again changes nothing. -/
theorem allocation_stripped {raw : RawAllocation} {a : Allocation}
    (h : normalizeAllocation raw = .ok a) : strip a.accountId = a.accountId ∧ 0 < a.amount := by
  obtain ⟨hkey, hamount⟩ := normalizeAllocation_eq_ok h
  have haccount : a.accountId = strip raw.accountId := congrArg Prod.fst hkey
  exact ⟨by rw [haccount, strip_strip], hamount⟩

/-- So it is with all allocations of a list. -/
theorem stripped_of_normalized {raws : List RawAllocation} {as : List Allocation}
    (h : List.Forall₂ (fun raw a => normalizeAllocation raw = .ok a) raws as) :
    ∀ a ∈ as, strip a.accountId = a.accountId ∧ 0 < a.amount := by
  induction h with
  | nil => exact fun a ha => nomatch ha
  | cons hfirst _ ih =>
    intro a ha
    rcases List.mem_cons.mp ha with rfl | hrest
    · exact allocation_stripped hfirst
    · exact ih a hrest

/-- The keys are those of the raw list. -/
theorem keys_of_normalized {raws : List RawAllocation} {as : List Allocation}
    (h : List.Forall₂ (fun raw a => normalizeAllocation raw = .ok a) raws as) :
    as.map Allocation.key = raws.map fun raw => (strip raw.accountId, round8 raw.amount) := by
  induction h with
  | nil => rfl
  | cons hfirst _ ih => rw [List.map_cons, List.map_cons, ih, (normalizeAllocation_eq_ok hfirst).1]

/-- A chain id is normalized once. -/
theorem normalizeChainId_normalizeChainId (value : Option ChainId) :
    normalizeChainId (some (normalizeChainId value)) = normalizeChainId value := by
  rcases value with _ | n | t
  · rfl
  · rfl
  · unfold normalizeChainId
    dsimp only
    split_ifs with hdigits
    · rfl
    · simp only [strip_strip, hdigits, if_false]

/-- The allocations of a normalised document, in another order. -/
theorem normalizeGenesisAllocations_eq_ok {raw : RawGenesisDocument} {document : GenesisDocument}
    (h : normalizeGenesisAllocations raw = .ok document) :
    (document.allocations.map Allocation.key).Perm
        (raw.allocations.map fun r => (strip r.accountId, round8 r.amount)) ∧
      (∀ a ∈ document.allocations, strip a.accountId = a.accountId ∧ 0 < a.amount) ∧
      document.networkId = clean raw.networkId ∧
      document.chainId = normalizeChainId raw.chainId := by
  unfold normalizeGenesisAllocations at h
  obtain ⟨as, has, h⟩ := bind_eq_ok.mp h
  rw [← pure_eq_ok.mp h]
  have hperm := List.mergeSort_perm as Allocation.le
  have hread := forall₂_of_mapM has
  refine ⟨?_, fun a ha => ?_, rfl, rfl⟩
  · rw [← keys_of_normalized hread]
    exact hperm.map _
  · exact stripped_of_normalized hread a (hperm.mem_iff.mp ha)

/-- The result where the file lists its allocations in order. -/
theorem normalizeGenesisAllocations_of_sorted {raw : RawGenesisDocument} {as : List Allocation}
    (has : raw.allocations.mapM normalizeAllocation = .ok as)
    (hsorted : as.Pairwise fun a b => a.le b = true) :
    normalizeGenesisAllocations raw = .ok
      { version := raw.version.getD genesisAllocationVersion
        networkId := clean raw.networkId
        chainId := normalizeChainId raw.chainId
        createdAt := textOr raw.createdAt genesisTimestamp
        allocations := as } := by
  unfold normalizeGenesisAllocations
  rw [has]
  change Except.ok _ = _
  rw [List.mergeSort_of_pairwise hsorted]

/-- A document that is read again has the same allocations. -/
theorem keys_toRaw {document again : GenesisDocument} {raw : RawGenesisDocument}
    (h : normalizeGenesisAllocations raw = .ok document)
    (hagain : normalizeGenesisAllocations document.toRaw = .ok again) :
    (again.allocations.map Allocation.key).Perm (document.allocations.map Allocation.key) := by
  obtain ⟨-, hstripped, -, -⟩ := normalizeGenesisAllocations_eq_ok h
  have hperm := (normalizeGenesisAllocations_eq_ok hagain).1
  refine hperm.trans (List.Perm.of_eq ?_)
  unfold GenesisDocument.toRaw
  rw [List.map_map]
  refine List.map_congr_left fun a ha => ?_
  simp [Allocation.key, (hstripped a ha).1]

/-- Allocations that pass have distinct accounts, and their amounts are summed up. -/
theorem validateAllocations_eq_ok {cfg : Config} {as : List Allocation} {seen : List String}
    {totalUnits sum : ℤ} (h : validateAllocations cfg seen totalUnits as = .ok sum) :
    (as.map Allocation.accountId).Nodup ∧
      (∀ a ∈ as, a.accountId ∉ seen ∧ isCanonicalWalletAddress cfg a.accountId = true) ∧
      sum = totalUnits + (as.map Allocation.units).sum := by
  induction as generalizing seen totalUnits with
  | nil =>
    cases h
    simp
  | cons a rest ih =>
    unfold validateAllocations at h
    split at h
    · cases h
    split at h
    · cases h
    next hseen =>
    split at h
    · cases h
    split at h
    · cases h
    next hcanonical =>
    obtain ⟨hnodup, hall, hsum⟩ := ih h
    refine ⟨?_, fun b hb => ?_, ?_⟩
    · rw [List.map_cons, List.nodup_cons]
      refine ⟨fun hmem => ?_, hnodup⟩
      obtain ⟨b, hb, heq⟩ := List.mem_map.mp hmem
      exact (hall b hb).1 (heq ▸ List.mem_cons_self)
    · rcases List.mem_cons.mp hb with rfl | hrest
      · exact ⟨hseen, by simpa using hcanonical⟩
      · exact ⟨fun hmem => (hall b hrest).1 (List.mem_cons_of_mem _ hmem), (hall b hrest).2⟩
    · rw [hsum, List.map_cons, List.sum_cons, add_assoc]

/-- The genesis account is no wallet. -/
theorem isCanonicalWalletAddress_genesis (cfg : Config) :
    isCanonicalWalletAddress cfg genesisAccountId = false := by
  have hstart : startsWith (upper (strip genesisAccountId)) "PI" = false := by decide
  unfold isCanonicalWalletAddress
  simp [hstart]

/-- The allocations of a document that passes the validation of the mainnet. -/
structure ValidAllocations (document : GenesisDocument) : Prop where
  nodup : (document.allocations.map Allocation.accountId).Nodup
  ne_genesis : ∀ a ∈ document.allocations, a.accountId ≠ genesisAccountId
  units_nonneg : ∀ a ∈ document.allocations, 0 ≤ a.units
  sum : (document.allocations.map Allocation.units).sum = toUnits mainnetProfile.genesisSupply
  networkId : document.networkId ≠ "" → document.networkId = mainnetProfile.networkId
  chainId : document.chainId.isTrue = true → document.chainId = mainnetProfile.chainId

/-- The allocations of a valid file pay the supply out to wallets. -/
theorem allocations_of_valid {cfg : Config} {document : GenesisDocument} {raw : RawGenesisDocument}
    (h : normalizeGenesisAllocations raw = .ok document)
    (hvalid : validateMainnetGenesisAllocations cfg document.toRaw = .ok ()) :
    ValidAllocations document := by
  unfold validateMainnetGenesisAllocations at hvalid
  obtain ⟨again, hagain, hvalid⟩ := bind_eq_ok.mp hvalid
  have hkeys := keys_toRaw h hagain
  obtain ⟨-, hread, hnetwork, hchain⟩ := normalizeGenesisAllocations_eq_ok h
  obtain ⟨-, -, hnetwork', hchain'⟩ := normalizeGenesisAllocations_eq_ok hagain
  split at hvalid
  · cases hvalid
  next hnetworkOk =>
  split at hvalid
  · cases hvalid
  next hchainOk =>
  split at hvalid
  · cases hvalid
  obtain ⟨sum, hsum, hvalid⟩ := bind_eq_ok.mp hvalid
  obtain ⟨hnodup, hcanonical, htotal⟩ := validateAllocations_eq_ok hsum
  -- the check reads the document again, with the same allocations in another order
  have haccounts : (again.allocations.map Allocation.accountId).Perm
      (document.allocations.map Allocation.accountId) := by
    have hfst := hkeys.map Prod.fst
    rwa [List.map_map, List.map_map] at hfst
  have hunits : (again.allocations.map Allocation.units).Perm
      (document.allocations.map Allocation.units) := by
    have hsnd := hkeys.map fun k => unitsOf k.2
    rwa [List.map_map, List.map_map] at hsnd
  constructor
  case nodup => exact haccounts.nodup_iff.mp hnodup
  case ne_genesis =>
    intro a ha heq
    obtain ⟨b, hb, hbeq⟩ := List.mem_map.mp (haccounts.mem_iff.mpr (List.mem_map_of_mem ha))
    have hb := (hcanonical b hb).2
    rw [hbeq, heq, isCanonicalWalletAddress_genesis] at hb
    exact Bool.false_ne_true hb
  case units_nonneg => exact fun a ha => roundHalfUp_nonneg 100 (hread a ha).2.le
  case sum =>
    dsimp only at hvalid
    split at hvalid
    · cases hvalid
    next hsupply =>
    rw [← hunits.sum_eq, ← not_not.mp hsupply, htotal, zero_add]
  -- the name is stripped twice, which changes nothing
  case networkId =>
    intro hne
    have hsame : again.networkId = document.networkId := by
      rw [hnetwork', GenesisDocument.toRaw, clean_some, hnetwork]
      exact strip_strip _
    rw [hsame] at hnetworkOk
    exact not_not.mp fun hother => hnetworkOk ⟨hne, hother⟩

  case chainId =>
    intro htrue
    have hsame : again.chainId = document.chainId := by
      rw [hchain', GenesisDocument.toRaw, hchain]
      exact normalizeChainId_normalizeChainId _
    rw [hsame] at hchainOk
    exact not_not.mp fun hother => hchainOk ⟨htrue, hother⟩

/-- A start of a mainnet node takes the document of its file. -/
theorem genesisAllocations_mainnet {gc : GenesisConfig} {raw : RawGenesisDocument}
    {document : GenesisDocument} (hmainnet : gc.OnMainnet) (hfile : gc.allocationsFile = some raw)
    (h : normalizeGenesisAllocations raw = .ok document)
    (hvalid : validateMainnetGenesisAllocations gc.toConfig document.toRaw = .ok ()) :
    genesisAllocations gc = .ok (some document) := by
  have hdocument := allocations_of_valid h hvalid
  unfold genesisAllocations
  rw [hfile, hmainnet.networkId, hmainnet.chainId, hmainnet.profile]
  change (normalizeGenesisAllocations raw >>= _) = _
  refine bind_eq_ok.mpr ⟨document, h, ?_⟩
  rw [if_neg fun hother => hother.2 (hdocument.networkId hother.1),
    if_neg fun hother => hother.2 (by rw [hdocument.chainId hother.1]),
    if_pos (show mainnetProfile.name = "mainnet" from rfl), hvalid]
  rfl

/-! ## The loop -/

section

variable {createdAt : String} {l l' : Ledger}

/-- A posting that is covered can be written. -/
theorem Posts.of_write {p : Posting} (rowType : String)
    (h : 0 ≤ l.balanceUnits p.accountId + p.amountUnits) : Posts l (l.write rowType p) [p] :=
  .of_post (Ledger.post_eq_some_iff.mpr ⟨h, rfl⟩)

/-- The entries of the loop. -/
def fundingPostings (createdAt : String) (as : List Allocation) : List Posting :=
  as.flatMap fun a => [(allocationPostings createdAt a).1, (allocationPostings createdAt a).2]

/-- An entry is there if it was before or is one of the postings. -/
theorem Ledger.hasEntry_of_posts {ps : List Posting} (h : Posts l l' ps)
    (accountId entryType : String) : l'.hasEntry accountId entryType =
      (l.hasEntry accountId entryType ||
        ps.any fun p => p.accountId = accountId && p.entryType = entryType) := by
  obtain ⟨es, hentries, rfl⟩ := h.entries
  unfold Ledger.hasEntry
  rw [hentries, List.any_append, List.any_map]
  rfl

/-- A posting writes the type of its own account. -/
theorem Ledger.accountType?_write (l : Ledger) (rowType : String) (p : Posting)
    (accountId : String) : (l.write rowType p).accountType? accountId =
      if accountId = p.accountId then some rowType else l.accountType? accountId := by
  unfold Ledger.accountType? Ledger.write
  rw [Sql.Table.find?_upsert]
  split <;> rfl

/-- The item of an account without its allocation. -/
theorem ensureAllocation_posts {a : Allocation} (createdAt : String)
    (hrow : (l.accountType? genesisAccountId).isSome)
    (hnew : l.hasEntry a.accountId "genesis_allocation" = false)
    (hcover : a.units ≤ l.balanceUnits genesisAccountId) (hunits : 0 ≤ a.units)
    (hnonneg : l.NonNegative) : ∃ l', ensureAllocation createdAt l a = .ok l' ∧
      Posts l l' (fundingPostings createdAt [a]) ∧ (l'.accountType? genesisAccountId).isSome := by
  obtain ⟨rowType, hrow⟩ := Option.isSome_iff_exists.mp hrow
  obtain ⟨debit, hdebit⟩ : ∃ p, p = (allocationPostings createdAt a).1 := ⟨_, rfl⟩
  obtain ⟨credit, hcredit⟩ : ∃ p, p = (allocationPostings createdAt a).2 := ⟨_, rfl⟩
  have hdebited : Posts l (l.write rowType debit) [debit] := by
    refine .of_write rowType ?_
    rw [hdebit]
    simp only [allocationPostings]
    omega
  have hcredited : Posts (l.write rowType debit)
      ((l.write rowType debit).write a.accountType credit) [credit] := by
    refine .of_write a.accountType ?_
    have hbalance := hdebited.nonneg hnonneg credit.accountId
    rw [hcredit] at hbalance ⊢
    simp only [allocationPostings] at hbalance ⊢
    omega
  refine ⟨_, ?_, hdebit ▸ hcredit ▸ hdebited.trans hcredited, ?_⟩
  · unfold ensureAllocation
    simp only [hnew, Bool.false_eq_true, if_false, not_lt.mpr hcover, Ledger.debitGenesis, hrow]
  · -- both writes leave a row of the genesis account
    rw [Ledger.accountType?_write, Ledger.accountType?_write]
    split
    · rfl
    · exact Option.isSome_iff_exists.mpr ⟨rowType, if_pos rfl⟩

/-- The loop funds every allocation. -/
theorem ensureAllocations_posts {as : List Allocation} (createdAt : String)
    (hnodup : (as.map Allocation.accountId).Nodup)
    (hne : ∀ a ∈ as, a.accountId ≠ genesisAccountId) (hunits : ∀ a ∈ as, 0 ≤ a.units)
    (hrow : (l.accountType? genesisAccountId).isSome) (hnonneg : l.NonNegative)
    (hnew : ∀ a ∈ as, l.hasEntry a.accountId "genesis_allocation" = false)
    (hcover : (as.map Allocation.units).sum ≤ l.balanceUnits genesisAccountId) :
    ∃ l', as.foldlM (ensureAllocation createdAt) l = .ok l' ∧
      Posts l l' (fundingPostings createdAt as) := by
  induction as generalizing l with
  | nil => exact ⟨l, rfl, .refl l⟩
  | cons a rest ih =>
    rw [List.map_cons, List.nodup_cons] at hnodup
    rw [List.map_cons, List.sum_cons] at hcover
    have hrest : 0 ≤ (rest.map Allocation.units).sum :=
      List.sum_nonneg fun u hu => by
        obtain ⟨b, hb, rfl⟩ := List.mem_map.mp hu
        exact hunits b (List.mem_cons_of_mem _ hb)
    obtain ⟨l₁, hfirst, hposts, hrow₁⟩ := ensureAllocation_posts createdAt hrow
      (hnew a List.mem_cons_self) (by omega) (hunits a List.mem_cons_self) hnonneg
    have hnew₁ : ∀ b ∈ rest, l₁.hasEntry b.accountId "genesis_allocation" = false := by
      intro b hb
      -- the entries of the first allocation are of other accounts
      have hother : a.accountId ≠ b.accountId :=
        fun heq => hnodup.1 (heq ▸ List.mem_map_of_mem hb)
      rw [Ledger.hasEntry_of_posts hposts, hnew b (List.mem_cons_of_mem _ hb)]
      simp [fundingPostings, allocationPostings, hother]
    have hcover₁ : (rest.map Allocation.units).sum ≤ l₁.balanceUnits genesisAccountId := by
      rw [hposts.balance]
      simp only [fundingPostings, List.flatMap_cons, List.flatMap_nil, List.append_nil,
        postedTo_cons, postedTo_nil, allocationPostings, if_true,
        if_neg (hne a List.mem_cons_self)]
      omega
    obtain ⟨l', hloop, hposts'⟩ := ih hnodup.2 (fun b hb => hne b (List.mem_cons_of_mem _ hb))
      (fun b hb => hunits b (List.mem_cons_of_mem _ hb)) hrow₁ (hposts.nonneg hnonneg) hnew₁ hcover₁
    refine ⟨l', ?_, hposts.trans hposts'⟩
    rw [List.foldlM_cons, hfirst]
    exact hloop

/-- The first allocation is posted first. -/
@[simp] theorem fundingPostings_cons (a : Allocation) (as : List Allocation) :
    fundingPostings createdAt (a :: as) = (allocationPostings createdAt a).1 ::
      (allocationPostings createdAt a).2 :: fundingPostings createdAt as := rfl

/-- The debits add up to what is allocated. -/
theorem postedTo_genesis {as : List Allocation} (hne : ∀ a ∈ as, a.accountId ≠ genesisAccountId) :
    postedTo (fundingPostings createdAt as) genesisAccountId = -(as.map Allocation.units).sum := by
  induction as with
  | nil => rfl
  | cons a rest ih =>
    have hother : a.accountId ≠ genesisAccountId := hne a List.mem_cons_self
    rw [fundingPostings_cons, postedTo_cons, postedTo_cons,
      ih fun b hb => hne b (List.mem_cons_of_mem _ hb), List.map_cons, List.sum_cons]
    simp only [allocationPostings, if_true, hother, if_false]
    ring

/-- An account that is not listed gets nothing. -/
theorem postedTo_of_notMem {as : List Allocation} {accountId : String}
    (hne : accountId ≠ genesisAccountId) (hnone : accountId ∉ as.map Allocation.accountId) :
    postedTo (fundingPostings createdAt as) accountId = 0 := by
  induction as with
  | nil => rfl
  | cons a rest ih =>
    rw [List.map_cons, List.mem_cons, not_or] at hnone
    rw [fundingPostings_cons, postedTo_cons, postedTo_cons, ih hnone.2]
    simp [allocationPostings, hne.symm, Ne.symm hnone.1]

/-- Each account gets its allocation. -/
theorem postedTo_of_mem {as : List Allocation} (hnodup : (as.map Allocation.accountId).Nodup)
    (hne : ∀ a ∈ as, a.accountId ≠ genesisAccountId) {a : Allocation} (ha : a ∈ as) :
    postedTo (fundingPostings createdAt as) a.accountId = a.units := by
  induction as with
  | nil => cases ha
  | cons b rest ih =>
    rw [List.map_cons, List.nodup_cons] at hnodup
    rw [fundingPostings_cons, postedTo_cons, postedTo_cons]
    rcases List.mem_cons.mp ha with rfl | hrest
    · rw [postedTo_of_notMem (hne a List.mem_cons_self) hnodup.1]
      simp [allocationPostings, (hne a List.mem_cons_self).symm]
    · have hother : b.accountId ≠ a.accountId :=
        fun heq => hnodup.1 (heq ▸ List.mem_map_of_mem hrest)
      rw [ih hnodup.2 (fun c hc => hne c (List.mem_cons_of_mem _ hc)) hrest]
      simp [allocationPostings, (hne a ha).symm, hother]

/-- The allocations move coins and make none. -/
theorem posted_fundingPostings (as : List Allocation) :
    posted (fundingPostings createdAt as) = 0 := by
  induction as with
  | nil => rfl
  | cons a rest ih =>
    rw [fundingPostings_cons, posted_cons, posted_cons, ih]
    simp [allocationPostings]

end

/-! ## Starts of a node -/

/-- An entry that no removal of a block takes away. -/
def Ledger.Keeps (l : Ledger) (accountId entryType : String) : Prop :=
  ∃ e ∈ l.entries, e.accountId = accountId ∧ e.entryType = entryType ∧
    ∀ height, e.blockHeight = some height → height ≤ 0

/-- What a start leaves: the genesis entry, and the entry of every allocation. -/
structure Bootstrapped (gc : GenesisConfig) (l : Ledger) : Prop where
  minted : l.Keeps genesisAccountId "genesis"
  funded : ∃ document, genesisAllocations gc = .ok document ∧
    ∀ d ∈ document, ∀ a ∈ d.allocations, l.Keeps a.accountId "genesis_allocation"

/-- An entry that is kept is there. -/
theorem Ledger.Keeps.hasEntry {l : Ledger} {accountId entryType : String}
    (h : l.Keeps accountId entryType) : l.hasEntry accountId entryType = true := by
  obtain ⟨e, he, haccount, htype, -⟩ := h
  exact List.any_eq_true.mpr ⟨e, he, by simp [haccount, htype]⟩

/-- It is kept while the entries without a block stay. -/
theorem Ledger.Keeps.mono {l l' : Ledger} {accountId entryType : String}
    (h : l.Keeps accountId entryType)
    (hkeep : ∀ e ∈ l.entries, (∀ height, e.blockHeight = some height → height ≤ 0) →
      e ∈ l'.entries) : l'.Keeps accountId entryType := by
  obtain ⟨e, he, haccount, htype, hheight⟩ := h
  exact ⟨e, hkeep e he hheight, haccount, htype, hheight⟩

/-- A node stays bootstrapped while the entries without a block stay. -/
theorem Bootstrapped.mono {gc : GenesisConfig} {l l' : Ledger} (h : Bootstrapped gc l)
    (hkeep : ∀ e ∈ l.entries, (∀ height, e.blockHeight = some height → height ≤ 0) →
      e ∈ l'.entries) : Bootstrapped gc l' := by
  obtain ⟨document, hdocument, hfunded⟩ := h.funded
  exact ⟨h.minted.mono hkeep, document, hdocument, fun d hd a ha => (hfunded d hd a ha).mono hkeep⟩

/-- A later start changes nothing. -/
theorem Bootstrapped.ensureGenesisBalance {gc : GenesisConfig} {l : Ledger}
    (h : Bootstrapped gc l) : ensureGenesisBalance gc false l = .ok l := by
  obtain ⟨document, hdocument, hfunded⟩ := h.funded
  unfold Picoin.ensureGenesisBalance ensureGenesisAllocations
  simp only [Bool.false_eq_true, if_false, h.minted.hasEntry, if_true]
  refine bind_eq_ok.mpr ⟨document, hdocument, ?_⟩
  cases document with
  | none => rfl
  | some d =>
    have hloop : ∀ as : List Allocation, (∀ a ∈ as, l.Keeps a.accountId "genesis_allocation") →
        as.foldlM (ensureAllocation d.createdAt) l = .ok l := by
      intro as has
      induction as with
      | nil => rfl
      | cons a rest ih =>
        have hfirst : ensureAllocation d.createdAt l a = .ok l := by
          unfold ensureAllocation
          simp only [(has a List.mem_cons_self).hasEntry, if_true]
        rw [List.foldlM_cons, hfirst]
        exact ih fun b hb => has b (List.mem_cons_of_mem _ hb)
    exact hloop d.allocations (hfunded d rfl)

/-- A posting without a block is kept. -/
theorem Ledger.Keeps.of_posts {l l' : Ledger} {ps : List Posting} {p : Posting}
    (h : Posts l l' ps) (hp : p ∈ ps) (hheight : ∀ height, p.blockHeight = some height → height ≤ 0) :
    l'.Keeps p.accountId p.entryType := by
  obtain ⟨es, hentries, rfl⟩ := h.entries
  obtain ⟨e, he, rfl⟩ := List.mem_map.mp hp
  exact ⟨e, hentries ▸ List.mem_append_right _ he, rfl, rfl, hheight⟩

/-- The calls that write coins, and the starts of the node between them. -/
inductive NodeCall where
  | start
  | ledger (call : LedgerCall)

/-- One call on a node that has restored no snapshot. -/
def NodeCall.step (gc : GenesisConfig) (pc : ImportRewardConfig) (s : NodeState) :
    NodeCall → NodeState
  | .start => Run.attempt (do
      let ledger ← ensureGenesisBalance gc false s.ledger
      return { s with ledger }) s
  | .ledger call => call.step pc s

/-- No snapshot is restored, and the removed tips are blocks, whose heights are positive. -/
def NodeCall.OnBlocks : NodeCall → Prop
  | .ledger (.removeTip o) => 0 < o.height
  | .ledger (.restore _ _ _) => False
  | _ => True

/-- A further start changes nothing. -/
theorem NodeCall.start_step {gc : GenesisConfig} {pc : ImportRewardConfig} {s : NodeState}
    (h : Bootstrapped gc s.ledger) : NodeCall.start.step gc pc s = s := by
  unfold NodeCall.step
  dsimp only
  rw [h.ensureGenesisBalance]
  rfl

/-- Every call on blocks leaves the node bootstrapped. -/
theorem bootstrapped_step {gc : GenesisConfig} {pc : ImportRewardConfig} {s : NodeState}
    {call : NodeCall} (hs : s.ledger.DoubleEntry ∧ Bootstrapped gc s.ledger)
    (hcall : call.OnBlocks) :
    (call.step gc pc s).ledger.DoubleEntry ∧ Bootstrapped gc (call.step gc pc s).ledger := by
  obtain ⟨hentry, hboot⟩ := hs
  cases call with
  | start =>
    rw [NodeCall.start_step hboot]
    exact ⟨hentry, hboot⟩
  | ledger call =>
    refine ⟨doubleEntry_step pc s call hentry, ?_⟩
    have happends (htip : ∀ o, call ≠ .removeTip o)
        (hrestore : ∀ timestamp doc r, call ≠ .restore timestamp doc r) :
        Bootstrapped gc (call.step pc s).ledger := by
      obtain ⟨es, hentries, -, -⟩ := LedgerCall.step_appends pc s htip hrestore
      exact hboot.mono fun e he _ => hentries ▸ List.mem_append_left es he
    cases call with
    | removeTip o =>
      refine hboot.mono fun e he hheight => List.mem_filter.mpr ⟨he, ?_⟩
      -- the entries of the genesis are below every block
      unfold stampedFrom
      cases hstamp : e.blockHeight with
      | none => rfl
      | some height =>
        have hlow := hheight height hstamp
        have hhigh : 0 < o.height := hcall
        simp
        omega
    | restore timestamp doc replaceExisting => exact hcall.elim
    | _ => exact happends (by simp) (by simp)

/-- The genesis entry. -/
def mintPosting (supplyUnits : ℤ) : Posting where
  accountId := genesisAccountId
  accountType := "genesis"
  amountUnits := supplyUnits
  entryType := "genesis"
  blockHeight := some 0
  relatedId := some "genesis"
  description := some "genesis allocation"
  createdAt := genesisTimestamp

/-- The genesis supply is one posting to an empty account. -/
theorem mintGenesis_posts {l : Ledger} {supplyUnits : ℤ} (h : l.balanceUnits genesisAccountId = 0)
    (hsupply : 0 ≤ supplyUnits) : Posts l (l.mintGenesis supplyUnits) [mintPosting supplyUnits] ∧
      ((l.mintGenesis supplyUnits).accountType? genesisAccountId).isSome := by
  have hwrite : l.mintGenesis supplyUnits = l.write "genesis" (mintPosting supplyUnits) := by
    unfold Ledger.mintGenesis Ledger.write mintPosting
    simp [h]
  rw [hwrite]
  refine ⟨.of_write "genesis" ?_, ?_⟩
  · change 0 ≤ l.balanceUnits genesisAccountId + supplyUnits
    omega
  · rw [Ledger.accountType?_write]
    exact Option.isSome_iff_exists.mpr ⟨"genesis", if_pos rfl⟩

/-- The first start of a mainnet node. -/
theorem first_start {gc : GenesisConfig} {raw : RawGenesisDocument} {document : GenesisDocument}
    (hmainnet : gc.OnMainnet) (hfile : gc.allocationsFile = some raw)
    (h : normalizeGenesisAllocations raw = .ok document)
    (hvalid : validateMainnetGenesisAllocations gc.toConfig document.toRaw = .ok ()) :
    ∃ l, ensureGenesisBalance gc false ⟨.empty, []⟩ = .ok l ∧ Bootstrapped gc l ∧ l.DoubleEntry ∧
      l.totalUnits = toUnits mainnetProfile.genesisSupply ∧
      l.balanceUnits genesisAccountId = 0 ∧
      ∀ a ∈ document.allocations, l.balanceUnits a.accountId = a.units := by
  have hdocument := genesisAllocations_mainnet hmainnet hfile h hvalid
  have hlist := allocations_of_valid h hvalid
  let empty : Ledger := ⟨.empty, []⟩
  let supplyUnits := toUnits mainnetProfile.genesisSupply
  have hzero : ∀ accountId, empty.balanceUnits accountId = 0 := fun _ => rfl
  obtain ⟨hmint, hrow⟩ := mintGenesis_posts (hzero genesisAccountId)
    (show 0 ≤ supplyUnits by decide)
  have hnew : ∀ a ∈ document.allocations,
      (empty.mintGenesis supplyUnits).hasEntry a.accountId "genesis_allocation" = false := by
    intro a _
    rw [Ledger.hasEntry_of_posts hmint]
    simp [Ledger.hasEntry, mintPosting, empty]
  have hbalance : (empty.mintGenesis supplyUnits).balanceUnits genesisAccountId = supplyUnits := by
    rw [hmint.balance, hzero]
    simp [mintPosting]
  obtain ⟨l, hloop, hfund⟩ := ensureAllocations_posts document.createdAt
    hlist.nodup hlist.ne_genesis hlist.units_nonneg hrow
    (hmint.nonneg fun accountId => (hzero accountId).ge) hnew (by rw [hlist.sum, hbalance])
  -- the whole supply is minted to genesis and paid out of it
  have hposts : Posts empty l
      (mintPosting supplyUnits :: fundingPostings document.createdAt document.allocations) :=
    hmint.trans hfund
  refine ⟨l, ?_, ⟨?_, some document, hdocument, ?_⟩, ?_, ?_, ?_, fun a ha => ?_⟩
  · unfold ensureGenesisBalance ensureGenesisAllocations
    rw [hmainnet.profile]
    exact bind_eq_ok.mpr ⟨some document, hdocument, hloop⟩
  · exact .of_posts (p := mintPosting supplyUnits) hposts List.mem_cons_self fun height hheight =>
      (Option.some.inj hheight).ge
  · intro d hd a ha
    obtain rfl := Option.some.inj hd
    refine .of_posts (p := (allocationPostings document.createdAt a).2) hposts ?_ nofun
    exact List.mem_cons_of_mem _ (List.mem_flatMap.mpr ⟨a, ha, by simp⟩)
  · exact (Appends.of_posts (P := fun _ => True) hposts fun _ _ => trivial).doubleEntry fun _ => rfl
  · rw [hposts.total, posted_cons, posted_fundingPostings]
    exact zero_add _
  · rw [hposts.balance, postedTo_cons, postedTo_genesis hlist.ne_genesis, hlist.sum, hzero]
    simp [mintPosting, supplyUnits]
  · rw [hposts.balance, postedTo_cons, postedTo_of_mem hlist.nodup hlist.ne_genesis ha, hzero]
    simp [mintPosting, (hlist.ne_genesis a ha).symm]

/-- On the mainnet a validated file is paid out in full by the first start: the genesis account is
left empty, every listed wallet holds its allocation, and the coins are the genesis supply. However
the later calls and starts follow each other, no start changes the node again. -/
theorem genesis_minted_once {gc : GenesisConfig} (pc : ImportRewardConfig) {raw : RawGenesisDocument}
    {document : GenesisDocument} (hmainnet : gc.OnMainnet) (hfile : gc.allocationsFile = some raw)
    (h : normalizeGenesisAllocations raw = .ok document)
    (hvalid : validateMainnetGenesisAllocations gc.toConfig document.toRaw = .ok ())
    {fresh : NodeState} (hfresh : fresh.ledger = ⟨.empty, []⟩) (calls : List NodeCall)
    (hcalls : ∀ call ∈ calls, call.OnBlocks) :
    let started := NodeCall.start.step gc pc fresh
    started.ledger.totalUnits = toUnits mainnetProfile.genesisSupply ∧
    started.ledger.balanceUnits genesisAccountId = 0 ∧
    (∀ a ∈ document.allocations, started.ledger.balanceUnits a.accountId = a.units) ∧
    ∀ s ∈ Run.states (NodeCall.step gc pc) started calls,
      s.ledger.DoubleEntry ∧ NodeCall.start.step gc pc s = s := by
  obtain ⟨l, hstart, hboot, hentry, htotal, hgenesis, hfunded⟩ :=
    first_start hmainnet hfile h hvalid
  have hstarted : NodeCall.start.step gc pc fresh = { fresh with ledger := l } := by
    unfold NodeCall.step
    dsimp only
    rw [hfresh, hstart]
    rfl
  intro started
  rw [show started = { fresh with ledger := l } from hstarted]
  refine ⟨htotal, hgenesis, hfunded, fun s hs => ?_⟩
  have hstep : ∀ (s : NodeState) (call : NodeCall), s.ledger.DoubleEntry ∧ Bootstrapped gc s.ledger →
      call.OnBlocks → (call.step gc pc s).ledger.DoubleEntry ∧
        Bootstrapped gc (call.step gc pc s).ledger := fun _ _ => bootstrapped_step
  obtain ⟨hsEntry, hsBoot⟩ := Run.invariant_of_eachStep hstep calls { fresh with ledger := l }
    ⟨hentry, hboot⟩ (Run.eachStep_of_forall calls _ hcalls) s hs
  exact ⟨hsEntry, NodeCall.start_step hsBoot⟩

def foundersAddress : String := "PIAAAAAAAAAAAAAAAAAAAAAAAAAAAAAAAAAAAAAA00000000"
def communityAddress : String := "PIBBBBBBBBBBBBBBBBBBBBBBBBBBBBBBBBBBBBBB00000000"

def mainnetFile : RawGenesisDocument where
  version := none
  networkId := some "picoin-mainnet-v1"
  chainId := some (.text " 314159 ")
  createdAt := none
  allocations := [⟨foundersAddress, none, ⟨200, 0⟩, some "founders"⟩,
    ⟨communityAddress, some "wallet", ⟨1000, 1⟩, none⟩]

/-- A mainnet node, with a digest that is easy to evaluate. -/
def mainnetGenesis : GenesisConfig where
  toConfig := { localConfig with
    networkId := "picoin-mainnet-v1"
    chainId := .number 314159
    sha256Text := fun _ => "00000000" }
  profile := mainnetProfile
  allocationsFile := some mainnetFile

def mainnetDocument : GenesisDocument where
  version := 1
  networkId := "picoin-mainnet-v1"
  chainId := .number 314159
  createdAt := genesisTimestamp
  allocations := [⟨foundersAddress, "wallet", 20000000000, "founders"⟩,
    ⟨communityAddress, "wallet", 10000000000, "genesis allocation funding"⟩]

/-- The local file is normalized to its document. -/
theorem normalizeGenesisAllocations_mainnetFile :
    normalizeGenesisAllocations mainnetFile = .ok mainnetDocument := by
  have hread : mainnetFile.allocations.mapM normalizeAllocation =
      .ok mainnetDocument.allocations := by decide +kernel
  rw [normalizeGenesisAllocations_of_sorted hread (by decide +kernel)]
  decide +kernel

/-- The document passes the mainnet validation. -/
theorem validate_mainnetDocument :
    validateMainnetGenesisAllocations mainnetGenesis.toConfig mainnetDocument.toRaw = .ok () := by
  have hread : mainnetDocument.toRaw.allocations.mapM normalizeAllocation =
      .ok mainnetDocument.allocations := by decide +kernel
  unfold validateMainnetGenesisAllocations
  rw [normalizeGenesisAllocations_of_sorted hread (by decide +kernel)]
  decide +kernel

/-- A node with two founding wallets pays for an imported block, loses it again and starts twice. -/
theorem genesis_minted_once_local :
    let started := NodeCall.start.step mainnetGenesis localImportRewards (localNode [])
    started.ledger.totalUnits = 300000000 ∧
    started.ledger.balanceUnits foundersAddress = 200000000 ∧
    ∀ s ∈ Run.states (NodeCall.step mainnetGenesis localImportRewards) started
        [.ledger (.replay (localImportedBlock 251328000)), .start,
          .ledger (.removeTip ⟨1, "", "", fun _ => ""⟩), .start],
      s.ledger.DoubleEntry ∧ NodeCall.start.step mainnetGenesis localImportRewards s = s := by
  obtain ⟨htotal, -, hfunded, hrun⟩ := genesis_minted_once localImportRewards
    (show mainnetGenesis.OnMainnet from ⟨rfl, rfl, rfl⟩) rfl normalizeGenesisAllocations_mainnetFile
    validate_mainnetDocument (show (localNode []).ledger = _ from rfl)
    [.ledger (.replay (localImportedBlock 251328000)), .start,
      .ledger (.removeTip ⟨1, "", "", fun _ => ""⟩), .start]
    (by simp [NodeCall.OnBlocks])
  refine ⟨htotal.trans (by decide), ?_, hrun⟩
  exact (hfunded ⟨foundersAddress, "wallet", 20000000000, "founders"⟩ (by decide)).trans (by decide)

end Picoin
