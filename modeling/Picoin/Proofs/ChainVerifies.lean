import Mathlib.Algebra.Order.Group.Multiset
import Mathlib.Tactic.Abel
import Picoin.Lib.JsonScan
import Picoin.Lib.JsonText
import Picoin.Lib.Run
import Picoin.Services.ChainCheck
import Picoin.Services.LocalMining

/-!
# The node's own chain verifies

A block is hashed when it is accepted, and its hash is rebuilt from the stored row when the chain
is verified. The two payloads are the same dict unless the reward goes to a wallet, which only the
first one tells, or the block has no timing, which only the first one writes as null. A block
without timing never gets that far: the node's own proposal leaves the timing out as well, so its
check refuses the block (`not_validatesLocalProposal`) and the acceptance is rolled back.

* **`acceptedPayload_perm`** — the two payloads of a plain block are equal;
* **`chain_verifies`** — a chain of blocks without wallet rewards verifies in every state;
* **`wallet_block_not_verified`** — a block whose reward goes to a wallet does not.
-/

/-! ## Linked chains

A list of blocks that continues a tip, each block linked to the tip before it and leaving a tip
after it. -/

namespace Chain

universe u v
variable {τ : Type u} {β : Type v}

/-- Every block links to the tip before it. -/
def Linked (link : τ → β → Prop) (tip : β → τ) : τ → List β → Prop
  | _, [] => True
  | t, b :: bs => link t b ∧ Linked link tip (tip b) bs

/-- The tip after the blocks. -/
def lastTip (tip : β → τ) (t : τ) (bs : List β) : τ := (bs.getLast?).elim t tip

theorem lastTip_cons (tip : β → τ) (t : τ) (b : β) (bs : List β) :
    lastTip tip t (b :: bs) = lastTip tip (tip b) bs := by
  unfold lastTip
  rw [List.getLast?_cons]
  cases bs.getLast? <;> rfl

variable {link : τ → β → Prop} {tip : β → τ}

theorem linked_append_singleton :
    ∀ {bs : List β} {t : τ} {b : β}, Linked link tip t bs → link (lastTip tip t bs) b →
      Linked link tip t (bs ++ [b])
  | [], _, _, _, hlink => ⟨hlink, trivial⟩
  | b' :: bs, t, b, ⟨hhead, hrest⟩, hlink => by
    rw [lastTip_cons] at hlink
    exact ⟨hhead, linked_append_singleton hrest hlink⟩

theorem linked_map {f : β → β} (hlink : ∀ t b, link t b → link t (f b))
    (htip : ∀ b, tip (f b) = tip b) :
    ∀ {bs : List β} {t : τ}, Linked link tip t bs → Linked link tip t (bs.map f)
  | [], _, _ => trivial
  | b :: bs, t, ⟨hhead, hrest⟩ => by
    refine ⟨hlink t b hhead, ?_⟩
    rw [htip b]
    exact linked_map hlink htip hrest

end Chain

namespace Picoin

open Outcome Run Chain

/-! ## The two payloads -/

/-- The block's reward goes to the miner's own account, and its timing is known. -/
def BlockDraft.Plain (block : BlockDraft) : Prop :=
  block.minerRewardAddress = none ∧ block.totalBlockMs ≠ none

/-- The number of transactions is a length. -/
def BlockDraft.Counted (block : BlockDraft) : Prop := 0 ≤ block.txCount

/-- The fields of a plain block are the same, in another order. -/
theorem acceptedPayload_perm {block : BlockDraft} (hplain : block.Plain) (hcount : block.Counted) :
    (acceptedPayload block).Perm (blockPayload block true) := by
  obtain ⟨haddress, htiming⟩ := hplain
  obtain ⟨ms, hms⟩ := Option.ne_none_iff_exists'.mp htiming
  have htx : (if block.txCount ≠ 0 then transactionFields block else []) =
      if 0 < block.txCount then transactionFields block else [] := by
    rcases (show 0 ≤ block.txCount from hcount).eq_or_lt with hzero | hpos
    · rw [← hzero, if_neg (lt_irrefl 0), if_neg (not_not.mpr rfl)]
    · rw [if_pos hpos.ne', if_pos hpos]
  unfold acceptedPayload blockPayload
  rw [htx, haddress, hms, ← Multiset.coe_eq_coe]
  simp only [← Multiset.coe_add, ← Multiset.cons_coe, ← Multiset.singleton_add, Option.map_none,
    Option.map_some, Json.Value.field?, Option.elim_none, Option.elim_some, Json.Value.optInt,
    if_true]
  abel

/-- No key of the payload is written twice. -/
theorem acceptedPayload_nodup (block : BlockDraft) :
    ((acceptedPayload block).map Prod.fst).Nodup := by
  have hroot : Json.Value.field? "merkle_root"
      ((block.merkleRoot.filter fun root => root ≠ "").map Json.Value.str) = [] ∨
      ∃ root, Json.Value.field? "merkle_root"
        ((block.merkleRoot.filter fun root => root ≠ "").map Json.Value.str) =
          [("merkle_root", root)] := by
    cases (block.merkleRoot.filter fun root => root ≠ "") with
    | none => exact .inl rfl
    | some root => exact .inr ⟨_, rfl⟩
  unfold acceptedPayload
  rcases hroot with hroot | ⟨root, hroot⟩ <;> rw [hroot] <;>
    cases block.minerRewardAddress <;> split <;>
    simp [Json.Value.field?, transactionFields]

/-- A plain block that keeps the hash of its acceptance has the hash of its rebuilt payload. -/
theorem blockHashMatches_of_plain {cfg : Config} {block : MinedBlockRow}
    (hplain : block.toBlockDraft.Plain) (hcount : block.Counted)
    (hhash : block.blockHash = hashBlock cfg (acceptedPayload block.toBlockDraft))
    (proposals : List MinedBlockRow) : blockHashMatches cfg proposals block = true := by
  have hrebuilt : hashBlock cfg (blockPayload block.toBlockDraft true) = block.blockHash := by
    rw [hhash]
    unfold hashBlock Config.hashJson
    rw [Json.canonicalJson_perm (acceptedPayload_nodup _) (acceptedPayload_perm hplain hcount)]
  have hany : (rebuiltPayloads block).any
      (fun payload => hashBlock cfg payload = block.blockHash) = true :=
    List.any_eq_true.mpr ⟨_, List.mem_cons_self, decide_eq_true hrebuilt⟩
  unfold blockHashMatches
  rw [hany, Bool.true_or]

/-- The block has a timing, or none of its forms that the proposal check tries has the hash of the
payload that it was accepted with. -/
def CollisionFree (cfg : Config) (block : MinedBlockRow) : Prop :=
  block.totalBlockMs = none → ∀ payload ∈ localVariantPayloads cfg block,
    hashBlock cfg payload ≠ hashBlock cfg (acceptedPayload block.toBlockDraft)

/-- The proposal check refuses a block without timing. -/
theorem not_validatesLocalProposal {cfg : Config} {block : MinedBlockRow}
    (hcollision : CollisionFree cfg block) (htiming : block.totalBlockMs = none)
    (hhash : block.blockHash = hashBlock cfg (acceptedPayload block.toBlockDraft)) :
    validatesLocalProposal cfg block = false := by
  rw [validatesLocalProposal, List.any_eq_false]
  intro payload hpayload
  rw [hhash, decide_eq_true_iff]
  exact hcollision htiming payload hpayload

/-- The proposal check passes a block with timing, if its address and its texts are in the form that
the check gives them. -/
theorem validatesLocalProposal_of_timing {cfg : Config} {block : MinedBlockRow}
    (hcount : block.Counted) (htiming : block.totalBlockMs ≠ none)
    (haddress : ∀ address, block.minerRewardAddress = some address →
      address ≠ "" ∧ upper (strip address) = address)
    (hversion : textOr (some block.protocolVersion) cfg.protocolVersion = block.protocolVersion)
    (hmode : textOr (some block.validationMode) validationMode = block.validationMode)
    (hhash : block.blockHash = hashBlock cfg (acceptedPayload block.toBlockDraft)) :
    validatesLocalProposal cfg block = true := by
  obtain ⟨ms, hms⟩ := Option.ne_none_iff_exists'.mp htiming
  have htx : (if block.txCount ≠ 0 then transactionFields block.toBlockDraft else []) =
      if 0 < block.txCount then transactionFields block.toBlockDraft else [] := by
    rcases (show 0 ≤ block.txCount from hcount).eq_or_lt with hzero | hpos
    · rw [← hzero, if_neg (lt_irrefl 0), if_neg (not_not.mpr rfl)]
    · rw [if_pos hpos.ne', if_pos hpos]
  have hfield : (block.minerRewardAddress.filter fun address => address ≠ "").map (fun address =>
      Json.Value.str (upper (strip address))) = block.minerRewardAddress.map .str := by
    cases hcase : block.minerRewardAddress with
    | none => rw [Option.filter_none, Option.map_none, Option.map_none]
    | some address =>
      obtain ⟨hne, hupper⟩ := haddress address hcase
      rw [Option.filter_some, if_pos (decide_eq_true hne), Option.map_some, Option.map_some, hupper]
  -- the first form that is tried has all the fields
  have hperm : (acceptedPayload block.toBlockDraft).Perm
      (localMandatoryFields block.toBlockDraft ++ (localLeadingGroups block.toBlockDraft).flatten ++
        (if 0 < block.txCount then transactionFields block.toBlockDraft else []) ++
          (localProtocolGroups cfg block.toBlockDraft).flatten) := by
    unfold acceptedPayload localMandatoryFields localLeadingGroups localProtocolGroups
    rw [htx, hfield, hversion, hmode, hms, ← Multiset.coe_eq_coe]
    simp only [← Multiset.coe_add, ← Multiset.cons_coe, ← Multiset.singleton_add, Option.map_some,
      Json.Value.field?, Option.elim_some, Json.Value.optInt, List.flatten_cons, List.flatten_nil,
      Multiset.coe_nil]
    abel
  rw [validatesLocalProposal, List.any_eq_true]
  refine ⟨_, List.mem_append_left _ List.mem_cons_self, decide_eq_true ?_⟩
  rw [hhash]
  unfold hashBlock Config.hashJson
  rw [Json.canonicalJson_perm (acceptedPayload_nodup _) hperm]

/-! ## Runs -/

variable {σ : Type}

/-- A block is accepted, an old one is found fraudulent, or anything else that leaves the blocks
alone. -/
inductive ChainStep (σ : Type) where
  | accept (now : String) (claim : BlockClaim) (params : ℤ × ProtocolParamsRow)
      (validationMs : Option ℤ)
  | markFraudulent (mark : FraudMark)
  | other (s : MiningState σ)

/-- One step; an acceptance that raises changes nothing. -/
def ChainStep.apply (mc : MiningConfig) (services : BlockServices σ) (s : MiningState σ) :
    ChainStep σ → MiningState σ
  | .accept now claim params validationMs =>
    attempt ((acceptBlock mc services now s claim params validationMs).map Prod.snd) s
  | .markFraudulent mark => { s with blocks := markBlockFraudulent s.blocks mark }
  | .other s' => { s' with blocks := s.blocks, base := s.base }

/-- An accepted block's miner is paid to its own account. -/
def PlainStep (mc : MiningConfig) (s : MiningState σ) : ChainStep σ → Prop
  | .accept now claim params validationMs =>
    (rewardAccountForMiner mc.toConfig s.miners claim.minerId).2 ≠ "wallet" ∧
      ∀ commitment, CollisionFree mc.toConfig
        (newBlockRow mc.toConfig (draftBlock mc now s claim params s.tip commitment) validationMs)
  | _ => True

/-- No height, previous hash or block hash is reported, whatever proposals the node has stored. -/
def ChainVerifies (cfg : Config) (s : MiningState σ) : Prop :=
  ∀ proposals, ∀ issue ∈ verifyChain cfg proposals s, issue.2 = .duplicateResult

/-! ## The invariant -/

/-- The tip that a block leaves. -/
def blockTip (block : MinedBlockRow) : ChainTip := ⟨block.height, block.blockHash⟩

/-- A plain block on the tip, with the hash of its acceptance. -/
structure Follows (cfg : Config) (tip : ChainTip) (block : MinedBlockRow) : Prop where
  height : block.height = tip.height + 1
  previousHash : block.previousHash = tip.blockHash
  plain : block.toBlockDraft.Plain
  counted : block.Counted
  hash : block.blockHash = hashBlock cfg (acceptedPayload block.toBlockDraft)

/-- The blocks follow each other from the base on. -/
def OwnChain (cfg : Config) (s : MiningState σ) : Prop :=
  Linked (Follows cfg) blockTip s.base s.blocks

theorem tip_eq_lastTip (s : MiningState σ) : s.tip = lastTip blockTip s.base s.blocks := by
  unfold MiningState.tip lastTip
  cases s.blocks.getLast? <;> rfl

theorem chainIssues_of_linked {cfg : Config} (proposals : List MinedBlockRow) :
    ∀ {blocks : List MinedBlockRow} {tip : ChainTip} (seen : List String),
      Linked (Follows cfg) blockTip tip blocks →
        ∀ issue ∈ chainIssues cfg proposals tip seen blocks, issue.2 = .duplicateResult
  | [], _, _, _, _, hissue => nomatch hissue
  | block :: rest, tip, seen, ⟨hfollows, hrest⟩, issue, hissue => by
    have htip : blockTip block = ⟨tip.height + 1, block.blockHash⟩ := by
      rw [blockTip, hfollows.height]
    rw [htip] at hrest
    rcases List.mem_append.mp hissue with hhere | hlater
    · obtain ⟨kind, hkind, rfl⟩ := List.mem_map.mp hhere
      unfold blockIssues at hkind
      rw [if_neg (not_not.mpr hfollows.height), if_neg (not_not.mpr hfollows.previousHash),
        if_pos (blockHashMatches_of_plain hfollows.plain hfollows.counted hfollows.hash proposals),
        List.append_nil, List.nil_append] at hkind
      split at hkind
      · exact List.mem_singleton.mp hkind
      · cases hkind
    · exact chainIssues_of_linked proposals _ hrest issue hlater

theorem OwnChain.verifies {cfg : Config} {s : MiningState σ} (h : OwnChain cfg s) :
    ChainVerifies cfg s := by
  intro proposals
  unfold verifyChain
  cases hblocks : s.blocks with
  | nil => exact fun _ hissue => nomatch hissue
  | cons block rest =>
    unfold OwnChain at h
    rw [hblocks] at h
    have hstart : verifyStart cfg s = s.base := by
      unfold verifyStart
      rw [hblocks, List.head?_cons, Option.any_some, if_pos (decide_eq_true h.1.height)]
    rw [hstart]
    exact chainIssues_of_linked proposals [] h

/-! ## One step -/

theorem linked_markBlockFraudulent {cfg : Config} {tip : ChainTip} {blocks : List MinedBlockRow}
    (h : Linked (Follows cfg) blockTip tip blocks) (mark : FraudMark) :
    Linked (Follows cfg) blockTip tip (markBlockFraudulent blocks mark) := by
  refine linked_map (fun t block hfollows => ?_) (fun block => ?_) h
  · split
    · exact ⟨hfollows.height, hfollows.previousHash, hfollows.plain, hfollows.counted,
        hfollows.hash⟩
    · exact hfollows
  · split <;> rfl

/-- The new block follows the tip it was built on, if its proposal is valid. -/
theorem newBlock_follows {mc : MiningConfig} {now : String} {s : MiningState σ}
    {claim : BlockClaim} {params : ℤ × ProtocolParamsRow} {validationMs : Option ℤ}
    {commitment : TxCommitment}
    (hplain : PlainStep mc s (.accept now claim params validationMs))
    (hvalid : validatesLocalProposal mc.toConfig (newBlockRow mc.toConfig
      (draftBlock mc now s claim params s.tip commitment) validationMs) = true) :
    Follows mc.toConfig s.tip
      (newBlockRow mc.toConfig (draftBlock mc now s claim params s.tip commitment) validationMs) := by
  obtain ⟨haccount, hcollision⟩ := hplain
  refine ⟨rfl, rfl, ⟨if_neg haccount, fun htiming => ?_⟩, Int.natCast_nonneg _, rfl⟩
  rw [not_validatesLocalProposal (hcollision commitment) htiming rfl] at hvalid
  cases hvalid

theorem OwnChain.step (mc : MiningConfig) (services : BlockServices σ) (s : MiningState σ)
    (step : ChainStep σ) (h : OwnChain mc.toConfig s) (hplain : PlainStep mc s step) :
    OwnChain mc.toConfig (step.apply mc services s) := by
  cases step with
  | accept now claim params validationMs =>
    refine attempt_of h fun s' hs' => ?_
    obtain ⟨⟨block, s''⟩, haccept, rfl⟩ := map_eq_ok.mp hs'
    rcases acceptBlock_eq_ok haccept with ⟨-, rfl⟩ | ⟨transactions, settlement, -, -, -,
      hblock, ⟨-, hvalid⟩, rfl⟩
    · exact h
    · obtain ⟨hblocks, hbase, -⟩ := closeCompetitiveRoundAfterBlock_blocks
        (insertBlock services s block settlement) claim.taskId claim.task _ _
      unfold OwnChain
      dsimp only
      rw [hblocks, hbase]
      have hlinked : Linked (Follows mc.toConfig) blockTip s.base (s.blocks ++ [block]) := by
        refine linked_append_singleton h ?_
        rw [hblock] at hvalid
        rw [← tip_eq_lastTip, hblock]
        exact newBlock_follows hplain hvalid
      unfold insertBlock
      dsimp only
      cases settlement.fraud with
      | none => exact hlinked
      | some mark => exact linked_markBlockFraudulent hlinked mark
  | markFraudulent mark => exact linked_markBlockFraudulent h mark
  | other s' => exact h

/-! ## Every run -/

/-- A chain of blocks without wallet rewards verifies in every state of its run. -/
theorem chain_verifies (mc : MiningConfig) (services : BlockServices σ) (s : MiningState σ)
    (hempty : s.blocks = []) (steps : List (ChainStep σ))
    (hplain : EachStep (ChainStep.apply mc services) (PlainStep mc) s steps) :
    ∀ s' ∈ states (ChainStep.apply mc services) s steps, ChainVerifies mc.toConfig s' := by
  intro s' hs'
  have hbase : OwnChain mc.toConfig s := by
    unfold OwnChain
    rw [hempty]
    trivial
  exact (invariant_of_eachStep (fun s step h hstep => OwnChain.step mc services s step h hstep)
    steps s hbase hplain s' hs').verifies

/-! ## Two miners -/

/-- A task that tells how long it was computed gives its block a timing. -/
theorem collisionFree_of_computeMs {mc : MiningConfig} {now : String} {s : MiningState σ}
    {claim : BlockClaim} {params : ℤ × ProtocolParamsRow} {anchor : ChainTip}
    {commitment : TxCommitment} {validationMs : Option ℤ} {ms : ℤ}
    (hms : claim.task.computeMs = some ms) : CollisionFree mc.toConfig
      (newBlockRow mc.toConfig (draftBlock mc now s claim params anchor commitment)
        validationMs) := by
  intro htiming
  unfold newBlockRow draftBlock validationBlockElapsedMs at htiming
  simp only [hms] at htiming
  cases htiming

/-- The acceptance of the local task's block. -/
def acceptLocalBlock : ChainStep Unit :=
  .accept "2026-05-10T00:00:00+00:00" localClaim (1, localParamsRow) (some 40)

theorem plainStep_acceptLocalBlock :
    PlainStep localMining (localMiningState none) acceptLocalBlock := by
  refine ⟨by decide +kernel, fun commitment => ?_⟩
  exact collisionFree_of_computeMs rfl

/-- A miner that is paid to its own account; its block is marked fraudulent later. -/
theorem unpaid_block_verifies :
    ChainVerifies localMining.toConfig
      ([acceptLocalBlock, .markFraudulent ⟨1, "bad digits", "2026-05-10T00:00:00+00:00"⟩].foldl
        (ChainStep.apply localMining localServices) (localMiningState none)) :=
  chain_verifies localMining localServices (localMiningState none) rfl
    [acceptLocalBlock, .markFraudulent ⟨1, "bad digits", "2026-05-10T00:00:00+00:00"⟩]
    ⟨plainStep_acceptLocalBlock, trivial, trivial⟩ _ (foldl_mem_states _ _ _)

/-- Digests of objects on the local network are their texts. -/
theorem render_of_hashBlock_eq {payload payload' : List (String × Json.Value)}
    (h : hashBlock localMining.toConfig payload = hashBlock localMining.toConfig payload') :
    Json.render (.obj payload) = Json.render (.obj payload') := by
  have htext : ∀ fields, localSha256Text (Json.canonicalJson (.obj fields)) =
      Json.canonicalJson (.obj fields) := by
    intro fields
    have hne : ∀ key : String, key.toList.head? ≠ some '{' →
        Json.canonicalJson (.obj fields) ≠ key := by
      rintro key hkey rfl
      refine hkey ?_
      rw [Json.canonicalJson, String.toList_ofList, Json.render_obj]
      rfl
    unfold localSha256Text
    rw [if_neg (hne aliceKey (by decide)), if_neg (hne bobKey (by decide))]
  change localSha256Text _ = localSha256Text _ at h
  rw [htext, htext] at h
  simpa [Json.canonicalJson] using congrArg String.toList h

/-- Where the reward goes to a wallet, no rebuilt payload has the hash of the acceptance. -/
theorem not_blockHashMatches_of_wallet {block : MinedBlockRow} {address : String}
    (haddress : block.minerRewardAddress = some address)
    (hhash : block.blockHash =
      hashBlock localMining.toConfig (acceptedPayload block.toBlockDraft)) :
    blockHashMatches localMining.toConfig [] block = false := by
  have hfield : ("miner_reward_address", Json.Value.str address) ∈
      acceptedPayload block.toBlockDraft := by
    unfold acceptedPayload
    rw [haddress]
    simp [Json.Value.field?]
  -- none of the rebuilt payloads tells the address
  have hkeys : ∀ payload ∈ rebuiltPayloads block, ∀ value,
      ("miner_reward_address", value) ∉ payload := by
    intro payload hpayload value hmem
    have hplain : ∀ includeProtocol, ("miner_reward_address", value) ∉
        blockPayload block.toBlockDraft includeProtocol := by
      intro includeProtocol hmem
      unfold blockPayload at hmem
      generalize block.merkleRoot.filter (fun root => root ≠ "") = root at hmem
      cases htiming : block.totalBlockMs <;> cases root <;> cases includeProtocol <;>
        split at hmem <;> simp [htiming, Json.Value.field?, transactionFields] at hmem
    have hfraud : ("miner_reward_address", value) ∉ fraudFields block := by
      simp [fraudFields]
    simp only [rebuiltPayloads, List.mem_cons, List.not_mem_nil, or_false] at hpayload
    rcases hpayload with rfl | rfl | rfl | rfl
    · exact hplain _ hmem
    · exact hplain _ hmem
    · exact (List.mem_append.mp hmem).elim (hplain _) hfraud
    · exact (List.mem_append.mp hmem).elim (hplain _) hfraud
  have hnone : ((rebuiltPayloads block).any fun payload =>
      hashBlock localMining.toConfig payload = block.blockHash) = false := by
    rw [List.any_eq_false]
    intro payload hpayload hsame
    rw [decide_eq_true_iff, hhash] at hsame
    -- equal texts would have equal keys
    obtain ⟨value, hvalue, -⟩ :=
      Json.exists_field_of_render_eq (render_of_hashBlock_eq hsame).symm hfield
    exact hkeys payload hpayload value hvalue
  unfold blockHashMatches
  rw [hnone]
  rfl

/-- The block of the local task; its reward goes to a wallet. -/
def walletBlock : MinedBlockRow :=
  newBlockRow localMining.toConfig
    (draftBlock localMining "2026-05-10T00:00:00+00:00" (localMiningState (some aliceAddress))
      localClaim (1, localParamsRow) (localMiningState (some aliceAddress)).tip
      (transactionCommitment localMining.toConfig [])) (some 40)

theorem minerRewardAddress_walletBlock : walletBlock.minerRewardAddress = some aliceAddress := by
  decide +kernel

theorem blockHash_walletBlock : walletBlock.blockHash =
    hashBlock localMining.toConfig (acceptedPayload walletBlock.toBlockDraft) := by
  unfold walletBlock newBlockRow
  dsimp only

theorem validatesLocalProposal_walletBlock :
    validatesLocalProposal localMining.toConfig walletBlock = true := by
  refine validatesLocalProposal_of_timing (Int.natCast_nonneg _) (by decide +kernel) ?_
    (by decide +kernel) (by decide +kernel) blockHash_walletBlock
  rw [minerRewardAddress_walletBlock]
  rintro address ⟨⟩
  decide +kernel

/-- The first block is accepted, if its task is not of a round and its proposal is valid. -/
theorem acceptBlock_first {mc : MiningConfig} {services : BlockServices σ} {now : String}
    {s : MiningState σ} {claim : BlockClaim} {params : ℤ × ProtocolParamsRow}
    {validationMs : Option ℤ} {transactions : List (String × ℤ)} {settlement : Settlement σ}
    {block : MinedBlockRow} (hempty : s.blocks = [])
    (hanchor : blockAnchorForTask s claim.task = (s.tip, false))
    (hload : loadSnapshotTransactions mc s claim.taskId = .ok transactions)
    (hmatches : (transactionCommitment mc.toConfig transactions).matchesTask mc.toConfig claim.task =
      true)
    (hblock : newBlockRow mc.toConfig (draftBlock mc now s claim params s.tip
      (transactionCommitment mc.toConfig transactions)) validationMs = block)
    (hsettle : services.settle s.validators s.services block.toBlockDraft = .ok settlement)
    (hfraud : settlement.fraud = none)
    (hvalid : validatesLocalProposal mc.toConfig block = true) :
    ∃ s', acceptBlock mc services now s claim params validationMs = .ok (block, s') ∧
      s'.blocks = [block] := by
  -- without blocks no round is won
  have hcurrent : ensureCompetitiveTaskCanFinalize s claim.taskId claim.task = .ok () := by
    unfold ensureCompetitiveTaskCanFinalize competitiveRoundWinner
    dsimp only
    rw [hempty, List.find?_nil, ite_self]
  have hlocal : ensureBlockAnchorIsLocalTip s (s.tip, false) = .ok () := if_pos (.inl rfl)
  refine ⟨closeCompetitiveRoundAfterBlock (insertBlock services s block settlement) claim.taskId
    claim.task block.height block.timestamp, ?_, ?_⟩
  · subst hblock
    unfold acceptBlock
    rw [hempty, List.find?_nil]
    dsimp only
    rw [hanchor]
    refine bind_eq_ok.mpr ⟨_, hlocal, bind_eq_ok.mpr ⟨_, hcurrent, bind_eq_ok.mpr ⟨_, hload, ?_⟩⟩⟩
    rw [hmatches, Bool.not_true, if_neg Bool.false_ne_true, List.any_nil, if_neg Bool.false_ne_true]
    refine bind_eq_ok.mpr ⟨settlement, hsettle, ?_⟩
    rw [hvalid, Bool.not_true, if_neg Bool.false_ne_true]
    rfl
  · rw [(closeCompetitiveRoundAfterBlock_blocks _ _ _ _ _).1]
    unfold insertBlock
    dsimp only
    rw [hfraud, hempty]
    rfl

/-- The block of a miner that is paid to a wallet is accepted. -/
theorem blocks_walletBlock :
    ([acceptLocalBlock].foldl (ChainStep.apply localMining localServices)
      (localMiningState (some aliceAddress))).blocks = [walletBlock] := by
  have haccept : ∃ s', acceptBlock localMining localServices "2026-05-10T00:00:00+00:00"
      (localMiningState (some aliceAddress)) localClaim (1, localParamsRow) (some 40) =
        .ok (walletBlock, s') ∧ s'.blocks = [walletBlock] :=
    acceptBlock_first rfl rfl rfl (by decide +kernel) rfl rfl rfl
      validatesLocalProposal_walletBlock
  obtain ⟨s', haccept, hblocks⟩ := haccept
  rw [List.foldl_cons, List.foldl_nil]
  unfold acceptLocalBlock ChainStep.apply
  dsimp only
  rw [haccept]
  exact hblocks

/-- A block whose hash is not rebuilt is reported. -/
theorem mem_chainIssues_of_hash {cfg : Config} {proposals : List MinedBlockRow}
    {block : MinedBlockRow} (hmatches : blockHashMatches cfg proposals block = false)
    (tip : ChainTip) (seen : List String) (rest : List MinedBlockRow) :
    (block.height, ChainIssue.blockHash) ∈ chainIssues cfg proposals tip seen (block :: rest) := by
  unfold chainIssues blockIssues
  rw [hmatches, if_neg Bool.false_ne_true]
  refine List.mem_append_left _ (List.mem_map.mpr ⟨.blockHash, ?_, rfl⟩)
  exact List.mem_append_right _ List.mem_cons_self

/-- A miner that is paid to a wallet: the hash of its block is reported. -/
theorem wallet_block_not_verified :
    ∃ s ∈ states (ChainStep.apply localMining localServices) (localMiningState (some aliceAddress))
      [acceptLocalBlock], s.blocks.length = 1 ∧ ¬ChainVerifies localMining.toConfig s := by
  refine ⟨_, foldl_mem_states _ _ _, by rw [blocks_walletBlock, List.length_singleton],
    fun hverifies => ?_⟩
  have hmatches := not_blockHashMatches_of_wallet minerRewardAddress_walletBlock
    blockHash_walletBlock
  have hkind := hverifies [] (walletBlock.height, .blockHash) (by
    unfold verifyChain
    rw [blocks_walletBlock]
    exact mem_chainIssues_of_hash hmatches _ _ _)
  cases hkind

end Picoin
