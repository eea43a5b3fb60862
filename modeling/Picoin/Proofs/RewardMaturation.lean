import Picoin.Lib.Run
import Picoin.Services.LocalMining
import Picoin.Proofs.SupplySchedule

/-!
# Rewards are credited once

A reward that matures is credited unless the ledger has an entry of its account, its related id and its
amount already. Nothing else keeps two rewards apart: of two rewards with one key the second is marked
and not credited (`matured_uncredited`). Where the keys of the rewards that mature together differ and
none has an entry, each reward that turns mature has one entry of its own (`CreditedOnce`).

* **`Fits`** — what a call of `mature_block_rewards` must find;
* **`rewards_credited_once_of_run`** — every run of such calls, from any state, credits each reward once.
-/

namespace Picoin

/-! ## Calls -/

/-- A call of the rewards module. -/
inductive RewardCall where
  | record (r : MinerReward)
  | mature (currentHeight : ℤ) (timestamp : String)

/-- What a call does. -/
def RewardCall.apply (rc : RewardConfig) (s : NodeState) : RewardCall → NodeState
  | .record r => recordMinerBlockReward rc s r
  | .mature currentHeight timestamp => matureBlockRewards currentHeight timestamp s

/-- The account that a reward is recorded for. -/
def RewardRow.account (row : RewardRow) : String := row.accountId.getD row.minerId

/-- The posting is the credit of the reward. -/
structure Pays (r : ℤ × RewardRow) (p : Posting) : Prop where
  entryType : p.entryType = "block_reward"
  account : p.accountId = r.2.account
  amount : p.amountUnits = r.2.amountUnits
  related : p.relatedId = r.2.relatedId ∨
    p.relatedId = some (textOr r.2.relatedId ("reward:" ++ toString r.1))

/-- The rewards that are mature now and were not before. -/
def newlyMature (before after : Sql.Table ℤ RewardRow) : List (ℤ × RewardRow) :=
  after.rows.filter fun r => r.2.mature && !(before.find? r.1).any RewardRow.mature

/-- The ledger has one new entry for each reward that has turned mature, and no other. -/
structure CreditedOnce (start s : NodeState) : Prop where
  paired : ∃ postings rewards, Written start.ledger s.ledger postings ∧
    rewards.Perm (newlyMature start.chain.rewards s.chain.rewards) ∧
      List.Forall₂ Pays rewards postings
  balance : ∀ a, s.ledger.balanceUnits a = start.ledger.balanceUnits a +
    ((newlyMature start.chain.rewards s.chain.rewards).map fun r =>
      if r.2.account = a then r.2.amountUnits else 0).sum
  total : s.ledger.totalUnits = start.ledger.totalUnits +
    ((newlyMature start.chain.rewards s.chain.rewards).map fun r => r.2.amountUnits).sum

/-- The reward is mature. -/
def MatureIn (s : NodeState) (rewardId : ℤ) : Prop :=
  ∃ row, s.chain.rewards.find? rewardId = some row ∧ row.mature = true

/-- The call is one of `mature_block_rewards` at the height that the reward matures at, or later. -/
def RewardCall.Reaches (s : NodeState) (rewardId : ℤ) : RewardCall → Prop
  | .record _ => False
  | .mature currentHeight _ => ∃ row, s.chain.rewards.find? rewardId = some row ∧
      row.maturesAtHeight.any (· ≤ currentHeight) = true

/-- The height of the reward is reached in the run. -/
def HeightReached (rc : RewardConfig) (rewardId : ℤ) : NodeState → List RewardCall → Prop
  | _, [] => False
  | s, call :: calls => call.Reaches s rewardId ∨ HeightReached rc rewardId (call.apply rc s) calls

/-- The account, the related id and the amount that an entry is looked for with. -/
def rewardKey (r : ℤ × RewardRow) : String × Option String × ℤ :=
  (textOr r.2.accountId r.2.minerId, some (textOr r.2.relatedId ("reward:" ++ toString r.1)),
    r.2.amountUnits)

/-- The keys of the block rewards in the ledger. -/
def Ledger.rewardKeys (l : Ledger) : List (String × Option String × ℤ) :=
  (l.entries.filter fun e => e.entryType = "block_reward").map fun e =>
    (e.accountId, e.relatedId, e.amountUnits)

/-- Rewards with keys of their own that the ledger does not have; the account of each is not the empty
text, behind which the miner would be credited. -/
def Payable (l : Ledger) (rs : List (ℤ × RewardRow)) : Prop :=
  (rs.map rewardKey).Nodup ∧
    ∀ r ∈ rs, rewardKey r ∉ l.rewardKeys ∧ textOr r.2.accountId r.2.minerId = r.2.account

/-- The rewards that a call matures can be credited one by one. -/
def RewardCall.Fits (s : NodeState) : RewardCall → Prop
  | .record _ => True
  | .mature currentHeight _ =>
    Payable s.ledger (maturingRewards s.chain.rewards currentHeight)

instance (l : Ledger) (rs : List (ℤ × RewardRow)) : Decidable (Payable l rs) :=
  inferInstanceAs (Decidable (_ ∧ ∀ r ∈ rs, _ ∧ _))

instance (s : NodeState) : (call : RewardCall) → Decidable (call.Fits s)
  | .record _ => .isTrue trivial
  | .mature currentHeight _ =>
    inferInstanceAs (Decidable (Payable s.ledger (maturingRewards s.chain.rewards currentHeight)))

/-! ## What is written for a reward -/

theorem hasReward_eq_false {l : Ledger} {r : ℤ × RewardRow} (h : rewardKey r ∉ l.rewardKeys)
    (currentHeight : ℤ) (timestamp : String) :
    l.hasReward (maturedPosting currentHeight timestamp r) = false := by
  rw [← Bool.not_eq_true]
  intro hentry
  obtain ⟨e, he, hsame⟩ := List.any_eq_true.mp hentry
  simp only [Bool.and_eq_true, decide_eq_true_eq] at hsame
  obtain ⟨⟨⟨htype, haccount⟩, hrelated⟩, hamount⟩ := hsame
  refine h (List.mem_map.mpr ⟨e, List.mem_filter.mpr ⟨he, decide_eq_true htype⟩, ?_⟩)
  rw [haccount, hrelated, hamount]
  show (_, _, unitsOf (unitsToFloat r.2.amountUnits)) = rewardKey r
  rw [unitsOf_unitsToFloat]
  rfl

/-- A credit adds its own key. -/
theorem rewardKeys_credit (l : Ledger) (currentHeight : ℤ) (timestamp : String) (r : ℤ × RewardRow) :
    (creditLedgerEntry l (maturedPosting currentHeight timestamp r)).rewardKeys =
      l.rewardKeys ++ [rewardKey r] := by
  unfold Ledger.rewardKeys creditLedgerEntry Ledger.write
  rw [List.filter_append, List.map_append]
  congr 1
  show [(_, _, unitsOf (unitsToFloat r.2.amountUnits))] = [rewardKey r]
  rw [unitsOf_unitsToFloat]
  rfl

theorem pays_maturedPosting {r : ℤ × RewardRow}
    (haccount : textOr r.2.accountId r.2.minerId = r.2.account) (currentHeight : ℤ)
    (timestamp : String) :
    Pays (r.1, { r.2 with mature := true }) (maturedPosting currentHeight timestamp r) where
  entryType := rfl
  account := haccount
  amount := unitsOf_unitsToFloat r.2.amountUnits
  related := .inr rfl

/-! ## The invariant -/

/-- The rewards of the start are kept, the mature ones mature, and the credits are paired with the
rewards that have turned mature. -/
structure Credits (start s : NodeState) : Prop where
  kept : ∀ id row, start.chain.rewards.find? id = some row →
    ∃ row', s.chain.rewards.find? id = some row' ∧ (row.mature = true → row'.mature = true)
  paired : ∃ postings rewards, Written start.ledger s.ledger postings ∧
    rewards.Perm (newlyMature start.chain.rewards s.chain.rewards) ∧
      List.Forall₂ Pays rewards postings

theorem Credits.refl (s : NodeState) : Credits s s where
  kept _ row hrow := ⟨row, hrow, id⟩
  paired := by
    refine ⟨[], [], Written.refl _, ?_, .nil⟩
    have hnone : newlyMature s.chain.rewards s.chain.rewards = [] := by
      refine List.filter_eq_nil_iff.mpr fun r hr hnew => ?_
      rw [Sql.Table.find?_eq_some_iff.mpr hr, Option.any_some] at hnew
      cases hmature : r.2.mature <;> rw [hmature] at hnew <;> cases hnew
    rw [hnone]

/-- One more credit for one more reward. -/
theorem Credits.add {start s s' : NodeState} (h : Credits start s) {r : ℤ × RewardRow} {p : Posting}
    (hwritten : Written s.ledger s'.ledger [p]) (hpays : Pays r p)
    (hperm : (newlyMature start.chain.rewards s'.chain.rewards).Perm
      (r :: newlyMature start.chain.rewards s.chain.rewards))
    (hkept : ∀ id row, s.chain.rewards.find? id = some row →
      ∃ row', s'.chain.rewards.find? id = some row' ∧ (row.mature = true → row'.mature = true)) :
    Credits start s' where
  kept id row hrow := by
    obtain ⟨row₁, hrow₁, hmature₁⟩ := h.kept id row hrow
    obtain ⟨row₂, hrow₂, hmature₂⟩ := hkept id row₁ hrow₁
    exact ⟨row₂, hrow₂, fun hm => hmature₂ (hmature₁ hm)⟩
  paired := by
    obtain ⟨postings, rewards, hold, hrewards, hpaired⟩ := h.paired
    refine ⟨postings ++ [p], rewards ++ [r], hold.trans hwritten, ?_, ?_⟩
    · have hlast : (rewards ++ [r]).Perm (r :: rewards) := List.perm_append_singleton r rewards
      exact hlast.trans ((hrewards.cons r).trans hperm.symm)
    · exact List.rel_append hpaired (.cons hpays .nil)

/-! ## Recording -/

theorem rewards_recordMinerBlockReward (rc : RewardConfig) (s : NodeState) (r : MinerReward) :
    (recordMinerBlockReward rc s r).chain.rewards.rows =
      s.chain.rewards.rows ++ [(nextId s.chain.rewards, r.row rc)] :=
  Sql.Table.upsertRows_of_none (find?_nextId s.chain.rewards)

theorem find?_recordMinerBlockReward (rc : RewardConfig) (s : NodeState) (r : MinerReward) (id : ℤ) :
    (recordMinerBlockReward rc s r).chain.rewards.find? id =
      if id = nextId s.chain.rewards then some (r.row rc) else s.chain.rewards.find? id :=
  Sql.Table.find?_upsert _ _ _ _

theorem Credits.record {start s : NodeState} (h : Credits start s) (rc : RewardConfig)
    (r : MinerReward) : Credits start (recordMinerBlockReward rc s r) := by
  have hfresh := find?_nextId s.chain.rewards
  have hkept : ∀ id row, s.chain.rewards.find? id = some row →
      ∃ row', (recordMinerBlockReward rc s r).chain.rewards.find? id = some row' ∧
        (row.mature = true → row'.mature = true) := by
    intro id row hrow
    refine ⟨row, ?_, fun hm => hm⟩
    have hne : id ≠ nextId s.chain.rewards := fun heq => by
      rw [heq, hfresh] at hrow
      cases hrow
    rw [find?_recordMinerBlockReward, if_neg hne, hrow]
  -- the new id is not one of the start's
  have hnew : start.chain.rewards.find? (nextId s.chain.rewards) = none := by
    cases hrow : start.chain.rewards.find? (nextId s.chain.rewards) with
    | none => rfl
    | some row =>
      obtain ⟨row', hrow', -⟩ := h.kept _ row hrow
      rw [hfresh] at hrow'
      cases hrow'
  have hmatures : newlyMature start.chain.rewards (recordMinerBlockReward rc s r).chain.rewards =
      newlyMature start.chain.rewards s.chain.rewards ++
        if rc.blockMaturityDepth = 0 then [(nextId s.chain.rewards, r.row rc)] else [] := by
    unfold newlyMature
    rw [rewards_recordMinerBlockReward, List.filter_append, List.filter_singleton, hnew]
    simp [MinerReward.row]
  have hensure := Written.of_ensure s.ledger r.accountId r.accountType
  by_cases hdepth : rc.blockMaturityDepth = 0
  · have hledger : (recordMinerBlockReward rc s r).ledger =
        creditLedgerEntry (ensureBalanceAccount s.ledger r.accountId r.accountType) r.posting :=
      if_pos hdepth
    have hwritten : Written s.ledger (recordMinerBlockReward rc s r).ledger [r.posting] := by
      rw [hledger]
      exact hensure.trans (Written.of_credit _ r.posting)
    have hpays : Pays (nextId s.chain.rewards, r.row rc) r.posting := ⟨rfl, rfl, rfl, .inl rfl⟩
    rw [if_pos hdepth] at hmatures
    refine h.add hwritten hpays ?_ hkept
    rw [hmatures]
    exact List.perm_append_singleton _ _
  · have hledger : (recordMinerBlockReward rc s r).ledger =
        ensureBalanceAccount s.ledger r.accountId r.accountType := if_neg hdepth
    rw [if_neg hdepth, List.append_nil] at hmatures
    obtain ⟨postings, rewards, hold, hrewards, hpaired⟩ := h.paired
    refine ⟨fun id row hrow => ?_, postings, rewards, ?_, ?_, hpaired⟩
    · obtain ⟨row₁, hrow₁, hmature₁⟩ := h.kept id row hrow
      obtain ⟨row₂, hrow₂, hmature₂⟩ := hkept id row₁ hrow₁
      exact ⟨row₂, hrow₂, fun hm => hmature₂ (hmature₁ hm)⟩
    · rw [hledger, ← List.append_nil postings]
      exact hold.trans hensure
    · rw [hmatures]
      exact hrewards

/-! ## Maturation -/

theorem find?_matureReward (currentHeight : ℤ) (timestamp : String) (s : NodeState)
    (r : ℤ × RewardRow) (id : ℤ) :
    (matureReward currentHeight timestamp s r).chain.rewards.find? id =
      if id = r.1 then (s.chain.rewards.find? r.1).map fun row => { row with mature := true }
      else s.chain.rewards.find? id :=
  Sql.Table.find?_modify _ _ _ _

/-- An immature reward that can be credited turns mature with a credit of its own. -/
theorem Credits.matureReward {start s : NodeState} (h : Credits start s) {r : ℤ × RewardRow}
    (hrow : s.chain.rewards.find? r.1 = some r.2) (himmature : r.2.mature = false)
    (hkey : rewardKey r ∉ s.ledger.rewardKeys)
    (haccount : textOr r.2.accountId r.2.minerId = r.2.account) (currentHeight : ℤ)
    (timestamp : String) : Credits start (matureReward currentHeight timestamp s r) := by
  have hledger : (Picoin.matureReward currentHeight timestamp s r).ledger =
      creditLedgerEntry s.ledger (maturedPosting currentHeight timestamp r) := by
    simp [Picoin.matureReward, hasReward_eq_false hkey]
  -- it was not mature at the start
  have hstart : (start.chain.rewards.find? r.1).any RewardRow.mature = false := by
    cases hold : start.chain.rewards.find? r.1 with
    | none => rfl
    | some row =>
      obtain ⟨row', hrow', hmature⟩ := h.kept _ row hold
      rw [hrow] at hrow'
      cases hrow'
      rw [Option.any_some, ← Bool.not_eq_true]
      intro hm
      rw [hmature hm] at himmature
      cases himmature
  refine h.add (hledger ▸ Written.of_credit _ _)
    (pays_maturedPosting haccount currentHeight timestamp) ?_ fun id row hid => ?_
  · refine Sql.Table.perm_filter_modify hrow ?_ ?_
    · dsimp only
      rw [himmature, Bool.false_and]
    · dsimp only
      rw [hstart]
      rfl
  · rw [find?_matureReward]
    split
    · rename_i heq
      rw [heq, hrow] at hid
      cases hid
      rw [hrow]
      exact ⟨_, rfl, fun _ => rfl⟩
    · exact ⟨row, hid, fun hm => hm⟩

theorem Credits.foldl_matureReward {start : NodeState} {currentHeight : ℤ} {timestamp : String}
    {rs : List (ℤ × RewardRow)} {s : NodeState} (h : Credits start s) (hids : (rs.map Prod.fst).Nodup)
    (hrows : ∀ r ∈ rs, s.chain.rewards.find? r.1 = some r.2 ∧ r.2.mature = false)
    (hpayable : Payable s.ledger rs) :
    Credits start (rs.foldl (Picoin.matureReward currentHeight timestamp) s) := by
  induction rs generalizing s with
  | nil => exact h
  | cons r rest ih =>
    obtain ⟨hrow, himmature⟩ := hrows r List.mem_cons_self
    obtain ⟨hkey, haccount⟩ := hpayable.2 r List.mem_cons_self
    obtain ⟨hid, hids⟩ := List.nodup_cons.mp hids
    obtain ⟨hown, hkeys⟩ := List.nodup_cons.mp hpayable.1
    refine ih (h.matureReward hrow himmature hkey haccount currentHeight timestamp) hids
      (fun r' hr' => ?_) ⟨hkeys, fun r' hr' => ?_⟩
    · have hne : r'.1 ≠ r.1 := fun heq => hid (heq ▸ List.mem_map_of_mem hr')
      rw [find?_matureReward, if_neg hne]
      exact hrows r' (List.mem_cons_of_mem _ hr')
    · obtain ⟨hkey', haccount'⟩ := hpayable.2 r' (List.mem_cons_of_mem _ hr')
      refine ⟨?_, haccount'⟩
      have hledger : (Picoin.matureReward currentHeight timestamp s r).ledger =
          creditLedgerEntry s.ledger (maturedPosting currentHeight timestamp r) := by
        simp [Picoin.matureReward, hasReward_eq_false hkey]
      rw [hledger, rewardKeys_credit]
      intro hmem
      rcases List.mem_append.mp hmem with hold | hlast
      · exact hkey' hold
      · exact hown (List.mem_singleton.mp hlast ▸ List.mem_map_of_mem hr')

theorem perm_maturingRewards (rewards : Sql.Table ℤ RewardRow) (currentHeight : ℤ) :
    (maturingRewards rewards currentHeight).Perm
      (rewards.rows.filter fun r => r.2.maturesBy currentHeight) :=
  List.mergeSort_perm _ _

theorem nodup_maturingRewards (rewards : Sql.Table ℤ RewardRow) (currentHeight : ℤ) :
    ((maturingRewards rewards currentHeight).map Prod.fst).Nodup := by
  rw [((perm_maturingRewards rewards currentHeight).map Prod.fst).nodup_iff]
  exact rewards.nodup.sublist (List.filter_sublist.map Prod.fst)

theorem mem_maturingRewards {rewards : Sql.Table ℤ RewardRow} {currentHeight : ℤ}
    {r : ℤ × RewardRow} : r ∈ maturingRewards rewards currentHeight ↔
      rewards.find? r.1 = some r.2 ∧ r.2.maturesBy currentHeight = true := by
  rw [(perm_maturingRewards rewards currentHeight).mem_iff, List.mem_filter,
    Sql.Table.find?_eq_some_iff]

theorem RewardRow.maturesBy_iff {row : RewardRow} {currentHeight : ℤ} :
    row.maturesBy currentHeight = true ↔
      row.mature = false ∧ row.maturesAtHeight.any (· ≤ currentHeight) = true := by
  unfold RewardRow.maturesBy
  rw [Bool.and_eq_true, Bool.not_eq_true']

theorem Credits.mature {start s : NodeState} (h : Credits start s) {currentHeight : ℤ}
    {timestamp : String}
    (hpayable : Payable s.ledger (maturingRewards s.chain.rewards currentHeight)) :
    Credits start (matureBlockRewards currentHeight timestamp s) := by
  refine h.foldl_matureReward (nodup_maturingRewards _ _) (fun r hr => ?_) hpayable
  obtain ⟨hrow, hmatures⟩ := mem_maturingRewards.mp hr
  exact ⟨hrow, (RewardRow.maturesBy_iff.mp hmatures).1⟩

/-! ## Which rewards are mature -/

/-- A maturing call marks the rewards of the query and leaves the other rows. -/
theorem find?_matureBlockRewards (currentHeight : ℤ) (timestamp : String) (s : NodeState) (id : ℤ) :
    (matureBlockRewards currentHeight timestamp s).chain.rewards.find? id =
      (s.chain.rewards.find? id).map fun row =>
        if row.maturesBy currentHeight then { row with mature := true } else row := by
  -- along the loop the rows of the list are marked, by induction on it
  have hfold : ∀ (rs : List (ℤ × RewardRow)) (s : NodeState),
      (rs.foldl (matureReward currentHeight timestamp) s).chain.rewards.find? id =
        (s.chain.rewards.find? id).map fun row =>
          if id ∈ rs.map Prod.fst then { row with mature := true } else row := by
    intro rs
    induction rs with
    | nil => intro s; simp
    | cons r rest ih =>
      intro s
      rw [List.foldl_cons, ih, find?_matureReward]
      by_cases hid : id = r.1
      · rw [if_pos hid, hid, Option.map_map]
        congr 1
        funext row
        simp
      · rw [if_neg hid]
        refine congrArg (fun g => Option.map g (s.chain.rewards.find? id)) (funext fun row => ?_)
        -- and the list has the ids of the rows that mature
        have hmem : id ∈ (r :: rest).map Prod.fst ↔ id ∈ rest.map Prod.fst := by simp [hid]
        exact if_congr hmem.symm rfl rfl
  unfold matureBlockRewards
  rw [hfold]
  cases hrow : s.chain.rewards.find? id with
  | none => rfl
  | some row =>
    have hmem : id ∈ (maturingRewards s.chain.rewards currentHeight).map Prod.fst ↔
        row.maturesBy currentHeight = true := by
      constructor
      · intro hmem
        obtain ⟨r, hr, rfl⟩ := List.mem_map.mp hmem
        obtain ⟨hfind, hmatures⟩ := mem_maturingRewards.mp hr
        rw [hrow] at hfind
        rwa [Option.some.inj hfind]
      · intro hmatures
        exact List.mem_map.mpr ⟨(id, row), mem_maturingRewards.mpr ⟨hrow, hmatures⟩, rfl⟩
    simp only [Option.map_some, hmem]

/-- A call makes mature what it records without a depth, and what it reaches. -/
theorem matureIn_apply (rc : RewardConfig) (s : NodeState) (call : RewardCall) (id : ℤ) :
    (MatureIn (call.apply rc s) id ∨ rc.blockMaturityDepth = 0 ∧
        (call.apply rc s).chain.rewards.find? id = none) ↔
      (MatureIn s id ∨ rc.blockMaturityDepth = 0 ∧ s.chain.rewards.find? id = none) ∨
        call.Reaches s id := by
  cases call with
  | record r =>
    have hfind := find?_recordMinerBlockReward rc s r id
    unfold MatureIn RewardCall.Reaches RewardCall.apply
    rw [hfind, or_false]
    by_cases hid : id = nextId s.chain.rewards
    · rw [if_pos hid, hid, find?_nextId]
      simp [MinerReward.row]
    · rw [if_neg hid]
  | mature currentHeight timestamp =>
    have hfind := find?_matureBlockRewards currentHeight timestamp s id
    unfold MatureIn RewardCall.Reaches RewardCall.apply
    rw [hfind]
    cases hrow : s.chain.rewards.find? id with
    | none => simp
    | some row =>
      cases hmature : row.mature <;> cases hreached : row.maturesAtHeight.any (· ≤ currentHeight) <;>
        simp [RewardRow.maturesBy, hmature, hreached]

/-- After a run the mature rewards are those that were mature before, those that were recorded without a
depth, and those whose height was reached. -/
theorem matureIn_run (rc : RewardConfig) (id : ℤ) (calls : List RewardCall) (s : NodeState) :
    (MatureIn (calls.foldl (RewardCall.apply rc) s) id ∨ rc.blockMaturityDepth = 0 ∧
        (calls.foldl (RewardCall.apply rc) s).chain.rewards.find? id = none) ↔
      (MatureIn s id ∨ rc.blockMaturityDepth = 0 ∧ s.chain.rewards.find? id = none) ∨
        HeightReached rc id s calls := by
  induction calls generalizing s with
  | nil => exact (or_iff_left fun h => h).symm
  | cons call calls ih =>
    rw [List.foldl_cons, ih, matureIn_apply, HeightReached, or_assoc]

/-! ## Runs -/

theorem Credits.creditedOnce {start s : NodeState} (h : Credits start s) : CreditedOnce start s := by
  obtain ⟨postings, rewards, hwritten, hperm, hpaired⟩ := h.paired
  have hamounts : posted postings = (rewards.map fun r => r.2.amountUnits).sum := by
    clear hwritten hperm
    induction hpaired with
    | nil => rfl
    | cons hpays _ ih => rw [posted_cons, ih, List.map_cons, List.sum_cons, hpays.amount]
  have hshares : ∀ a, postedTo postings a =
      (rewards.map fun r => if r.2.account = a then r.2.amountUnits else 0).sum := by
    clear hwritten hperm hamounts
    intro a
    induction hpaired with
    | nil => rfl
    | cons hpays _ ih =>
      rw [postedTo_cons, ih, List.map_cons, List.sum_cons, hpays.amount, hpays.account]
  refine ⟨h.paired, fun a => ?_, ?_⟩
  · rw [hwritten.balance, hshares, (hperm.map _).sum_eq]
  · rw [hwritten.total, hamounts, (hperm.map _).sum_eq]

theorem credits_of_run {rc : RewardConfig} (calls : List RewardCall) (start : NodeState)
    (hrun : Run.EachStep (RewardCall.apply rc) RewardCall.Fits start calls) :
    Credits start (calls.foldl (RewardCall.apply rc) start) := by
  have hstep : ∀ (s : NodeState) (call : RewardCall), Credits start s → RewardCall.Fits s call →
      Credits start (call.apply rc s) := by
    intro s call hs hfits
    cases call with
    | record r => exact hs.record rc r
    | mature currentHeight timestamp => exact hs.mature hfits
  have hstates := Run.invariant_of_eachStep hstep calls start (.refl start) hrun
  exact hstates _ (Run.foldl_mem_states _ calls start)

/-- **Credited once**: in a run of calls whose maturing rewards can be credited one by one, the ledger
has one new entry for each reward that has turned mature and no other, the balances and their total have
grown by these amounts, and a reward is mature if and only if it was before, was recorded without a
maturity depth, or its height was reached. -/
theorem rewards_credited_once_of_run (rc : RewardConfig) (start : NodeState) (calls : List RewardCall)
    (hrun : Run.EachStep (RewardCall.apply rc) RewardCall.Fits start calls) :
    CreditedOnce start (calls.foldl (RewardCall.apply rc) start) ∧
      ∀ id row, (calls.foldl (RewardCall.apply rc) start).chain.rewards.find? id = some row →
        (row.mature = true ↔ MatureIn start id ∨
          rc.blockMaturityDepth = 0 ∧ start.chain.rewards.find? id = none ∨
            HeightReached rc id start calls) := by
  refine ⟨(credits_of_run calls start hrun).creditedOnce, fun id row hrow => ?_⟩
  have hmature := matureIn_run rc id calls start
  rw [or_assoc] at hmature
  rw [← hmature]
  constructor
  · exact fun hm => .inl ⟨row, hrow, hm⟩
  · rintro (⟨row', hrow', hm⟩ | ⟨-, hnone⟩)
    · rw [hrow] at hrow'
      rwa [Option.some.inj hrow']
    · rw [hrow] at hnone
      cases hnone

/-! ## Two rewards of one task -/

/-- A reward of one coin for a task. -/
def taskReward (taskId : String) (blockHeight : ℤ) : MinerReward where
  minerId := "miner-1"
  accountId := "PI_MINER"
  accountType := "wallet"
  blockHeight := blockHeight
  amount := 100000000
  reason := "block accepted"
  relatedId := some taskId
  description := "miner block reward"
  timestamp := "2026-05-10T00:00:00+00:00"

/-- Two rewards at the heights 1 and 2, and the maturation at the height 3. -/
def twoRewards (firstTask secondTask : String) : List RewardCall :=
  [.record (taskReward firstTask 1), .record (taskReward secondTask 2),
    .mature 3 "2026-05-10T00:10:00+00:00"]

/-- The node when both rewards are recorded. -/
def recordedRewards (firstTask secondTask : String) : NodeState :=
  recordMinerBlockReward localRewards
    (recordMinerBlockReward localRewards (localNode []) (taskReward firstTask 1))
    (taskReward secondTask 2)

theorem maturingRewards_recorded (firstTask secondTask : String) :
    maturingRewards (recordedRewards firstTask secondTask).chain.rewards 3 =
      (recordedRewards firstTask secondTask).chain.rewards.rows :=
  -- they are in the order of their heights
  List.mergeSort_of_pairwise (List.pairwise_pair.mpr rfl)

/-- Rewards of two tasks are both credited. -/
theorem rewards_credited_once_local :
    Run.EachStep (RewardCall.apply localRewards) RewardCall.Fits (localNode [])
        (twoRewards "task-1" "task-2") ∧
      CreditedOnce (localNode [])
        ((twoRewards "task-1" "task-2").foldl (RewardCall.apply localRewards) (localNode [])) := by
  have hpayable : Payable (recordedRewards "task-1" "task-2").ledger
      (maturingRewards (recordedRewards "task-1" "task-2").chain.rewards 3) := by
    rw [maturingRewards_recorded]
    decide +kernel
  have hrun : Run.EachStep (RewardCall.apply localRewards) RewardCall.Fits (localNode [])
      (twoRewards "task-1" "task-2") := ⟨trivial, trivial, hpayable, trivial⟩
  exact ⟨hrun, (rewards_credited_once_of_run localRewards (localNode []) _ hrun).1⟩

/-- Of two rewards of one task both are marked as mature and one is credited. -/
theorem matured_uncredited :
    ¬ CreditedOnce (localNode [])
      ((twoRewards "task-1" "task-1").foldl (RewardCall.apply localRewards) (localNode [])) := by
  intro h
  have htotal := h.total
  have hend : (twoRewards "task-1" "task-1").foldl (RewardCall.apply localRewards) (localNode []) =
      (recordedRewards "task-1" "task-1").chain.rewards.rows.foldl
        (matureReward 3 "2026-05-10T00:10:00+00:00") (recordedRewards "task-1" "task-1") := by
    rw [← maturingRewards_recorded]
    rfl
  rw [hend] at htotal
  revert htotal
  decide +kernel

end Picoin
