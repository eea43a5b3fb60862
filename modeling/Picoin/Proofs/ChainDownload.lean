import Mathlib.Algebra.Order.Group.Int
import Picoin.Proofs.QuorumAgreement
import Picoin.Services.BlockSync

/-!
# What a download leaves

A peer that has a chain, and may extend it while it is asked, serves the blocks above a height in
order. A download from it goes through the heights one by one, whatever its limit is and wherever
the answers are cut: no height is left out, and none is asked for twice.

* **`getBlocksSince_chain`** — the answer of such a peer;
* **`Downloaded`**, **`syncRounds_download`** — what holds between two rounds, and where they end;
* **`sync_downloads_chain`** — the whole call.
-/

namespace Picoin

open Json Outcome

variable {σ : Type} {ic : ImportConfig σ} {chain : ℤ → ChainBlockRow}
  {payload : ChainBlockRow → Value}

/-! ## The chain of a peer -/

/-- The blocks above a height, up to another one. -/
def blocksUpTo (chain : ℤ → ChainBlockRow) (low high : ℤ) : List ChainBlockRow :=
  (List.range (high - low).toNat).map fun (i : ℕ) => chain (low + 1 + i)

/-- What a peer serves for a block is a header of it. -/
structure Describes (payload : ChainBlockRow → Value) (block : ChainBlockRow) : Prop where
  height : Client.item (payload block) "height" = .ok (.int block.height)
  blockHash : Client.item (payload block) "block_hash" = .ok (.str block.blockHash)
  previousHash : ∃ previousHash, Client.item (payload block) "previous_hash" =
    .ok (.str previousHash) ∧ previousHash.length = 64
  timestamp : ∃ timestamp, Client.item (payload block) "timestamp" = .ok timestamp
  length : block.blockHash.length = 64

/-- A chain above a base, up to a highest block, with the payloads that are served for it. -/
structure ServedChain (payload : ChainBlockRow → Value) (chain : ℤ → ChainBlockRow)
    (base highest : ℤ) : Prop where
  base_nonneg : 0 ≤ base
  height : ∀ h, (chain h).height = h
  describes : ∀ h, base < h → h ≤ highest → Describes payload (chain h)
  hashes : ∀ h h', base < h → h ≤ highest → base < h' → h' ≤ highest →
    (chain h).blockHash = (chain h').blockHash → h = h'

/-- The answers of a peer whose tip may move up between two rounds. -/
def peerAnswers (payload : ChainBlockRow → Value) (chain : ℤ → ChainBlockRow) (base : ℤ)
    (tip : ℕ → ℤ) (round : ℕ) : PeerAnswer :=
  fun fromHeight limit =>
    .ok <| (getBlocksSince payload (blocksUpTo chain base (tip round)) fromHeight
      limit).toOption.getD []

theorem blocksUpTo_self (low : ℤ) : blocksUpTo chain low low = [] := by
  simp [blocksUpTo]

theorem blocksUpTo_append {low middle high : ℤ} (hlow : low ≤ middle) (hhigh : middle ≤ high) :
    blocksUpTo chain low high = blocksUpTo chain low middle ++ blocksUpTo chain middle high := by
  unfold blocksUpTo
  have hcount : (high - low).toNat = (middle - low).toNat + (high - middle).toNat := by omega
  rw [hcount, List.range_add, List.map_append, List.map_map]
  congr 1
  refine List.map_congr_left fun i _ => ?_
  dsimp only [Function.comp_apply]
  congr 1
  push_cast
  omega

theorem blocksUpTo_succ {low high : ℤ} (h : low < high) :
    blocksUpTo chain low high = chain (low + 1) :: blocksUpTo chain (low + 1) high := by
  rw [blocksUpTo_append (show low ≤ low + 1 by omega) (by omega)]
  simp [blocksUpTo]

theorem mem_blocksUpTo {low high : ℤ} {block : ChainBlockRow} :
    block ∈ blocksUpTo chain low high ↔ ∃ h, low < h ∧ h ≤ high ∧ block = chain h := by
  unfold blocksUpTo
  rw [List.mem_map]
  constructor
  · rintro ⟨i, hi, rfl⟩
    rw [List.mem_range] at hi
    exact ⟨low + 1 + i, by omega, by omega, rfl⟩
  · rintro ⟨h, hlow, hhigh, rfl⟩
    refine ⟨(h - low - 1).toNat, List.mem_range.mpr (by omega), ?_⟩
    congr 1
    omega

theorem length_blocksUpTo (low high : ℤ) :
    (blocksUpTo chain low high).length = (high - low).toNat := by
  simp [blocksUpTo]

/-- The rows are in the order of their heights. -/
theorem sorted_blocksUpTo (hheight : ∀ h, (chain h).height = h) (low high : ℤ) :
    (blocksUpTo chain low high).Pairwise fun a b => a.height ≤ b.height := by
  unfold blocksUpTo
  refine List.pairwise_map.mpr (List.pairwise_lt_range.imp fun hlt => ?_)
  rw [hheight, hheight]
  omega

/-- The answer starts above the height that was asked for, and is cut by the limit or by the tip. -/
theorem getBlocksSince_chain (hheight : ∀ h, (chain h).height = h) {base tip fromHeight limit : ℤ}
    (hbase : base ≤ fromHeight) (hfrom : 0 ≤ fromHeight) (hlimit : 0 ≤ limit) :
    getBlocksSince payload (blocksUpTo chain base tip) fromHeight limit =
      .ok ((blocksUpTo chain fromHeight (min (fromHeight + limit) tip)).map payload) := by
  unfold getBlocksSince
  rw [if_neg (by omega)]
  -- the filter leaves the part above the height, in order
  have hfilter : (blocksUpTo chain base tip).filter (fun block => fromHeight < block.height) =
      blocksUpTo chain fromHeight tip := by
    by_cases htip : fromHeight ≤ tip
    · rw [blocksUpTo_append hbase htip, List.filter_append, List.filter_eq_nil_iff.mpr,
        List.filter_eq_self.mpr, List.nil_append]
      · intro block hblock
        obtain ⟨h, hlow, -, rfl⟩ := mem_blocksUpTo.mp hblock
        simpa [hheight] using hlow
      · intro block hblock
        obtain ⟨h, -, hhigh, rfl⟩ := mem_blocksUpTo.mp hblock
        simpa [hheight] using hhigh
    · have hnone : blocksUpTo chain fromHeight tip = [] := by
        unfold blocksUpTo
        rw [Int.toNat_of_nonpos (by omega)]
        rfl
      rw [hnone, List.filter_eq_nil_iff]
      intro block hblock
      obtain ⟨h, -, hhigh, rfl⟩ := mem_blocksUpTo.mp hblock
      rw [hheight, decide_eq_true_eq]
      omega
  have hsorted : (blocksUpTo chain fromHeight tip).mergeSort (fun a b => a.height ≤ b.height) =
      blocksUpTo chain fromHeight tip :=
    List.mergeSort_of_pairwise (by simpa using sorted_blocksUpTo hheight fromHeight tip)
  dsimp only
  rw [hfilter, hsorted]
  congr 2
  unfold blocksUpTo
  rw [← List.map_take, List.take_range]
  congr 2
  omega

/-! ## One block -/

theorem numberField_describes {block : ChainBlockRow} (h : Describes payload block)
    (cc : Client.ClientConfig) : numberField cc (payload block) "height" = .ok block.height := by
  have hitem := h.height
  unfold Client.item at hitem
  unfold numberField fieldOr Client.get
  split at hitem
  · next fields heq =>
    split at hitem
    · cases hitem
    · next value hvalue =>
      cases hitem
      rw [hvalue]
      -- `0 or 0` is the default
      by_cases hzero : block.height = 0 <;>
        simp [Client.orElse, Client.truthy, hzero, Client.toInt, bind, Except.bind, pure,
          Except.pure]
  · cases hitem

/-- The answer of the peer is in order already. -/
theorem heightOrder_blocksUpTo (cc : Client.ClientConfig) {base highest low high : ℤ}
    (hserved : ServedChain payload chain base highest) (hbase : base ≤ low)
    (hhigh : high ≤ highest) :
    heightOrder cc ((blocksUpTo chain low high).map payload) =
      .ok ((blocksUpTo chain low high).map fun block => (block.height, payload block)) := by
  have hkeyed : ∀ blocks : List ChainBlockRow, (∀ block ∈ blocks, Describes payload block) →
      (blocks.map payload).mapM (fun block => do return (← numberField cc block "height", block)) =
        (.ok (blocks.map fun block => (block.height, payload block)) :
          Except Client.PyError (List (ℤ × Value))) := by
    intro blocks
    induction blocks with
    | nil => exact fun _ => rfl
    | cons block rest ih =>
      intro hall
      rw [List.map_cons, List.mapM_cons, numberField_describes (hall block List.mem_cons_self),
        ih fun b hb => hall b (List.mem_cons_of_mem _ hb)]
      rfl
  unfold heightOrder
  rw [hkeyed]
  · have hsorted : ((blocksUpTo chain low high).map fun block =>
        (block.height, payload block)).mergeSort (fun a b => a.1 ≤ b.1) =
          (blocksUpTo chain low high).map fun block => (block.height, payload block) := by
      refine List.mergeSort_of_pairwise (List.pairwise_map.mpr ?_)
      simpa using sorted_blocksUpTo hserved.height low high
    exact congrArg Except.ok hsorted
  · intro block hblock
    obtain ⟨h, hlow, hle, rfl⟩ := mem_blocksUpTo.mp hblock
    exact hserved.describes h (by omega) (by omega)

/-- The header of a block is queued under its hash. -/
def Queued (payload : ChainBlockRow → Value) (n : ImportNode σ) (block : ChainBlockRow) : Prop :=
  ∃ row : HeaderRow, n.headers.find? block.blockHash = some row ∧ row.height = block.height ∧
    row.payload = payload block

/-- The node's chain has another block at the height. -/
def Conflicts (n : ImportNode σ) (block : ChainBlockRow) : Prop :=
  ∃ own ∈ n.blocks, own.height = block.height ∧ own.blockHash ≠ block.blockHash

theorem headerStatus_error {cfg : Config} {n : ImportNode σ} {height : ℤ}
    {blockHash previousHash : String} {error : ImportError}
    (h : headerStatus cfg n height blockHash previousHash = .error error) :
    error = .network 409 "conflicting block at height" ∧
      ∃ own ∈ n.blocks, own.height = height ∧ own.blockHash ≠ blockHash := by
  unfold headerStatus at h
  dsimp only at h
  split at h
  · next own hown =>
    split at h
    · cases h
    · next hne =>
      have hheight : own.height = height := by simpa using List.find?_some hown
      refine ⟨?_, own, List.mem_of_find?_eq_some hown, hheight, hne⟩
      split_ifs at h <;> simpa using h.symm
  · split at h
    · cases h
    · split at h
      · cases h
      · split at h <;> cases h

/-- A header of a block is queued, unless the node's chain has another block at its height. -/
theorem receiveBlockHeader_describes {block : ChainBlockRow} (h : Describes payload block)
    (hpos : 1 ≤ block.height) (ic : ImportConfig σ) (now : String) (n : ImportNode σ) :
    (∃ row : HeaderRow, row.height = block.height ∧ row.payload = payload block ∧
      receiveBlockHeader ic now n (payload block) =
        .ok { n with headers := n.headers.upsert block.blockHash row }) ∨
      receiveBlockHeader ic now n (payload block) =
        .error (.network 409 "conflicting block at height") ∧ Conflicts n block := by
  obtain ⟨previousHash, hprevious, hlength⟩ := h.previousHash
  obtain ⟨timestamp, htimestamp⟩ := h.timestamp
  -- a described block has every field, in its form
  have hmissing : headerRequiredFields.filter (fun key =>
      (Client.item (payload block) key).toOption.isNone) = [] := by
    simp [headerRequiredFields, h.height, h.blockHash, hprevious, htimestamp, Except.toOption]
  have hheight : python (Client.item (payload block) "height" >>= Client.toInt ic.toClientConfig) =
      .ok block.height := by
    rw [h.height]
    rfl
  have hhash : headerHash (payload block) "block_hash" = .ok block.blockHash := by
    unfold headerHash
    rw [h.blockHash]
    exact if_pos h.length
  have hprevious' : headerHash (payload block) "previous_hash" = .ok previousHash := by
    unfold headerHash
    rw [hprevious]
    exact if_pos hlength
  have hok : ∀ {α β : Type} (a : α) (f : α → Except ImportError β),
      (Except.ok a >>= f) = f a := fun _ _ => rfl
  -- so only the status can raise
  have hrun : ∃ status : Except ImportError HeaderStatus,
      receiveBlockHeader ic now n (payload block) = (status >>= fun status =>
        .ok { n with headers := n.headers.upsert block.blockHash
                      ⟨block.height, previousHash, status, payload block, now⟩ }) ∧
        ∀ error, status = .error error →
          error = .network 409 "conflicting block at height" ∧ Conflicts n block := by
    unfold receiveBlockHeader
    dsimp only
    rw [hmissing, if_neg (by simp), hheight, hok, if_neg (by omega), hhash, hok, hprevious', hok]
    split
    · next queued _ _ => exact ⟨.ok queued.status, rfl, fun _ h => nomatch h⟩
    · exact ⟨_, rfl, fun _ => headerStatus_error⟩
  obtain ⟨status, hreceive, herror⟩ := hrun
  rw [hreceive]
  cases status with
  | ok status => exact .inl ⟨_, rfl, rfl, rfl⟩
  | error error =>
    obtain ⟨rfl, hconflict⟩ := herror error rfl
    exact .inr ⟨rfl, hconflict⟩

/-! ## One round -/

/-- What the download from one height up to another leaves: each height once, as a header or as a
conflict that is noted, and nothing else. -/
structure Downloaded (payload : ChainBlockRow → Value) (chain : ℤ → ChainBlockRow)
    (n : ImportNode σ) (start upTo : ℤ) (s : SyncState σ) : Prop where
  le : start ≤ upTo
  rest : { s.node with headers := n.headers } = n
  seen : (s.blocksSeen : ℤ) = upTo - start
  counted : s.blocksImported + s.errors.length = s.blocksSeen
  events : s.events.length = s.blocksImported ∧
    ∀ event ∈ s.events, ∃ h, start < h ∧ h ≤ upTo ∧ event = payload (chain h)
  delivered : ∀ h, start < h → h ≤ upTo → Queued payload s.node (chain h) ∨
    (payload (chain h), ImportError.network 409 "conflicting block at height") ∈ s.errors ∧
      Conflicts n (chain h)
  others : ∀ hash, (∀ h, start < h → h ≤ upTo → (chain h).blockHash ≠ hash) →
    s.node.headers.find? hash = n.headers.find? hash

section Round

variable {base highest start upTo : ℤ} {n : ImportNode σ} {s : SyncState σ}

theorem Downloaded.begin (n : ImportNode σ) (start height : ℤ) (notes : List ImportError) :
    Downloaded payload chain n start start { node := n, syncFromHeight := height, notes } where
  le := le_refl start
  rest := rfl
  seen := by simp
  counted := rfl
  events := ⟨rfl, fun _ hevent => absurd hevent List.not_mem_nil⟩
  delivered h hlow hhigh := absurd hlow (by omega)
  others _ _ := rfl

theorem Downloaded.from (h : Downloaded payload chain n start upTo s) (height : ℤ) :
    Downloaded payload chain n start upTo { s with syncFromHeight := height } :=
  ⟨h.le, h.rest, h.seen, h.counted, h.events, h.delivered, h.others⟩

theorem Downloaded.blocks (h : Downloaded payload chain n start upTo s) :
    s.node.blocks = n.blocks := by
  conv_rhs => rw [← h.rest]

/-- The next block of the chain is received. -/
theorem Downloaded.receive (hserved : ServedChain payload chain base highest) (hbase : base ≤ start)
    (h : Downloaded payload chain n start upTo s) (hnext : upTo + 1 ≤ highest)
    (ic : ImportConfig σ) (clock : ℕ → String) :
    Downloaded payload chain n start (upTo + 1)
      (receiveSynced ic clock s (payload (chain (upTo + 1)))) := by
  have hle := h.le
  have hdescribes := hserved.describes (upTo + 1) (by omega) hnext
  have hpos : 1 ≤ (chain (upTo + 1)).height := by
    rw [hserved.height]
    have := hserved.base_nonneg
    omega
  unfold receiveSynced
  rcases receiveBlockHeader_describes hdescribes hpos ic (clock s.blocksSeen) s.node with
    ⟨row, hheight, hpayload, hreceive⟩ | ⟨hreceive, hconflict⟩
  · -- the header is stored
    rw [hreceive]
    refine ⟨by omega, h.rest, ?_, ?_, ⟨?_, fun event hevent => ?_⟩,
      fun height hlow hhigh => ?_, fun hash hother => ?_⟩
    · dsimp only
      push_cast
      linarith [h.seen]
    · dsimp only
      linarith [h.counted]
    · rw [List.length_append, h.events.1, List.length_singleton]
    · rcases List.mem_append.mp hevent with hold | hnew
      · obtain ⟨height, hlow, hhigh, heq⟩ := h.events.2 event hold
        exact ⟨height, hlow, by omega, heq⟩
      · exact ⟨upTo + 1, by omega, le_rfl, List.mem_singleton.mp hnew⟩
    · rcases eq_or_lt_of_le hhigh with rfl | hlt
      · exact .inl ⟨row, Sql.Table.find?_upsert_self .., hheight, hpayload⟩
      · -- the new row has another hash
        have hne : (chain height).blockHash ≠ (chain (upTo + 1)).blockHash := fun heq => by
          have := hserved.hashes _ _ (by omega) (by omega) (by omega) hnext heq
          omega
        refine (h.delivered height hlow (by omega)).imp_left ?_
        rintro ⟨old, hold, hrest⟩
        exact ⟨old, (Sql.Table.find?_upsert_ne _ _ hne).trans hold, hrest⟩
    · refine (Sql.Table.find?_upsert_ne _ _ (hother _ (by omega) le_rfl).symm).trans ?_
      exact h.others hash fun height hlow hhigh => hother height hlow (by omega)
  · -- the header is refused, since another row has its hash
    rw [hreceive]
    refine ⟨by omega, h.rest, ?_, ?_, ⟨h.events.1, fun event hevent => ?_⟩,
      fun height hlow hhigh => ?_, fun hash hother => ?_⟩
    · dsimp only
      push_cast
      linarith [h.seen]
    · simp only [List.length_append, List.length_singleton]
      linarith [h.counted]
    · obtain ⟨height, hlow, hhigh, heq⟩ := h.events.2 event hevent
      exact ⟨height, hlow, by omega, heq⟩
    · rcases eq_or_lt_of_le hhigh with rfl | hlt
      · refine .inr ⟨List.mem_append_right _ (List.mem_singleton_self _), ?_⟩
        unfold Conflicts at hconflict ⊢
        rwa [h.blocks] at hconflict
      · exact (h.delivered height hlow (by omega)).imp_right
          (And.imp_left (List.mem_append_left _))
    · exact h.others hash fun height hlow hhigh => hother height hlow (by omega)

/-- The blocks of an answer are received in order. -/
theorem Downloaded.receiveAll (hserved : ServedChain payload chain base highest)
    (hbase : base ≤ start) (h : Downloaded payload chain n start upTo s) (ic : ImportConfig σ) (clock : ℕ → String)
    {high : ℤ} (hle : upTo ≤ high) (hhigh : high ≤ highest) :
    Downloaded payload chain n start high (((blocksUpTo chain upTo high).map fun block =>
      (block.height, payload block)).foldl (fun s item => receiveSynced ic clock s item.2) s) := by
  induction high, hle using Int.leInduction with
  | base =>
    rw [blocksUpTo_self]
    exact h
  | succ high hle ih =>
    rw [blocksUpTo_append hle (by omega), blocksUpTo_succ (show high < high + 1 by omega),
      blocksUpTo_self, List.map_append, List.foldl_append]
    exact (ih (by omega)).receive hserved hbase hhigh ic clock

/-- The highest block of an answer is its last one. -/
theorem maxSeenHeight_blocksUpTo (payload : ChainBlockRow → Value)
    (hheight : ∀ h, (chain h).height = h) {low high : ℤ} (hle : low ≤ high) :
    ((blocksUpTo chain low high).map fun block => (block.height, payload block)).foldl
      (fun height item => max height item.1) low = high := by
  induction high, hle using Int.leInduction with
  | base =>
    rw [blocksUpTo_self]
    rfl
  | succ high hle ih =>
    rw [blocksUpTo_append hle (by omega), blocksUpTo_succ (show high < high + 1 by omega),
      blocksUpTo_self, List.map_append, List.foldl_append, ih]
    simp only [List.map_cons, List.map_nil, List.foldl_cons, List.foldl_nil, hheight]
    omega

theorem requestLimit_pos (call : SyncCall) (effectiveHeight syncFromHeight : ℤ) :
    1 ≤ requestLimit call effectiveHeight syncFromHeight := by
  unfold requestLimit
  cases call.targetHeight with
  | none => exact le_max_left 1 _
  | some target => exact le_max_left 1 _

/-- A round goes on to the limit of its request, and stops at the tip or at the target. -/
theorem syncRound_download (hserved : ServedChain payload chain base highest) (hbase : base ≤ start)
    (h : Downloaded payload chain n start s.syncFromHeight s) (ic : ImportConfig σ)
    (clock : ℕ → String) (call : SyncCall) (effectiveHeight : ℤ) {tip : ℕ → ℤ} (round : ℕ)
    (hhighest : tip round ≤ highest) :
    let q := requestLimit call effectiveHeight s.syncFromHeight
    let ends := syncRound ic clock call effectiveHeight (peerAnswers payload chain base tip round) s
    ∃ s', Downloaded payload chain n start s'.syncFromHeight s' ∧
      s.syncFromHeight ≤ s'.syncFromHeight ∧ s'.syncFromHeight ≤ s.syncFromHeight + q ∧
        s'.syncFromHeight ≤ max s.syncFromHeight (tip round) ∧
          ((ends = .ok (.stops s') ∧ s' = s ∧
              ∃ target ∈ call.targetHeight, target ≤ s.syncFromHeight) ∨
            (∀ target ∈ call.targetHeight, s.syncFromHeight < target) ∧
              (ends = .ok (.stops s') ∧ tip round ≤ s'.syncFromHeight ∨
                ends = .ok (.continues s') ∧ s'.syncFromHeight = s.syncFromHeight + q)) := by
  intro q ends
  have hq : 1 ≤ q := requestLimit_pos ..
  have hle := h.le
  have hnonneg := hserved.base_nonneg
  by_cases htarget : (call.targetHeight.any fun target => target ≤ s.syncFromHeight) = true
  · -- the target is reached, and nothing is asked for
    refine ⟨s, h, le_rfl, by omega, le_max_left _ _, .inl ⟨?_, rfl, ?_⟩⟩
    · change syncRound .. = _
      unfold syncRound
      rw [if_pos htarget]
      rfl
    · obtain ⟨target, htarget, hreached⟩ := (Option.any_eq_true _ _).mp htarget
      exact ⟨target, htarget, of_decide_eq_true hreached⟩
  · have hopen : ∀ target ∈ call.targetHeight, s.syncFromHeight < target := by
      intro target hmem
      by_contra hreached
      exact htarget ((Option.any_eq_true _ _).mpr ⟨target, hmem, decide_eq_true (by omega)⟩)
    -- the answer holds the blocks up to the limit or to the tip
    set high := min (s.syncFromHeight + q) (tip round) with hhigh
    have hanswer : peerAnswers payload chain base tip round s.syncFromHeight q =
        .ok ((blocksUpTo chain s.syncFromHeight high).map payload) := by
      unfold peerAnswers
      rw [getBlocksSince_chain hserved.height (by omega) (by omega) (by omega)]
      rfl
    have hround : ends = .ok (receiveAnswer ic clock q s
        ((blocksUpTo chain s.syncFromHeight high).map fun block =>
          (block.height, payload block))) := by
      change syncRound .. = _
      unfold syncRound
      rw [if_neg htarget]
      dsimp only
      rw [hanswer]
      change (python (heightOrder ic.toClientConfig
        ((blocksUpTo chain s.syncFromHeight high).map payload)) >>= _) = _
      rw [heightOrder_blocksUpTo ic.toClientConfig hserved (by omega) (by omega)]
      rfl
    rw [hround]
    unfold receiveAnswer
    dsimp only
    rw [List.isEmpty_map, List.length_map, length_blocksUpTo]
    by_cases htip : tip round ≤ s.syncFromHeight
    · -- the peer has no more
      have hempty : (blocksUpTo chain s.syncFromHeight high).isEmpty = true := by
        rw [List.isEmpty_iff_length_eq_zero, length_blocksUpTo]
        omega
      rw [if_pos hempty]
      exact ⟨s, h, le_rfl, by omega, le_max_left _ _, .inr ⟨hopen, .inl ⟨rfl, htip⟩⟩⟩
    · -- the answer is stored, and the next round starts above it
      have hfull : (blocksUpTo chain s.syncFromHeight high).isEmpty = false := by
        rw [List.isEmpty_eq_false_iff, ← List.length_pos_iff, length_blocksUpTo]
        omega
      have hmax := maxSeenHeight_blocksUpTo payload hserved.height
        (show s.syncFromHeight ≤ high by omega)
      have hreceived := (h.receiveAll hserved hbase ic clock
        (show s.syncFromHeight ≤ high by omega) (by omega)).from high
      rw [hfull, if_neg (by simp), hmax, if_neg (by omega)]
      let s' : SyncState σ := { ((blocksUpTo chain s.syncFromHeight high).map fun block =>
        (block.height, payload block)).foldl (fun s item => receiveSynced ic clock s item.2) s with
          syncFromHeight := high }
      have hs' : s'.syncFromHeight = high := rfl
      refine ⟨s', hreceived, by omega, by omega, by omega, .inr ⟨hopen, ?_⟩⟩
      split
      · exact .inl ⟨rfl, by omega⟩
      · exact .inr ⟨rfl, by omega⟩

/-- What is asked for is at least the limit of the call, unless the target is nearer. -/
theorem le_requestLimit (call : SyncCall) (effectiveHeight syncFromHeight : ℤ)
    (hopen : ∀ target ∈ call.targetHeight, syncFromHeight < target) :
    max 1 (min call.limit 100) ≤ requestLimit call effectiveHeight syncFromHeight ∨
      ∃ target ∈ call.targetHeight,
        syncFromHeight + requestLimit call effectiveHeight syncFromHeight = target := by
  unfold requestLimit
  cases htarget : call.targetHeight with
  | none =>
    left
    dsimp only [Option.elim]
    omega
  | some target =>
    have := hopen target htarget
    dsimp only [Option.elim]
    by_cases hnear : target - syncFromHeight <
        max 1 (min (call.limit + max 0 (effectiveHeight - syncFromHeight)) 100)
    · exact .inr ⟨target, rfl, by omega⟩
    · left
      omega

/-- A request does not go beyond the target. -/
theorem requestLimit_le (call : SyncCall) (effectiveHeight syncFromHeight : ℤ) {target : ℤ}
    (htarget : target ∈ call.targetHeight) (hopen : syncFromHeight < target) :
    syncFromHeight + requestLimit call effectiveHeight syncFromHeight ≤ target := by
  unfold requestLimit
  rw [Option.mem_def.mp htarget]
  dsimp only [Option.elim]
  omega

end Round

/-! ## A call -/

/-- Where a download from a height may end: not beyond the target and the tip, and not before a goal
that both have reached, unless its rounds were used up. -/
structure EndsAt (call : SyncCall) (tip : ℕ → ℤ) (fromHeight : ℤ) (rounds : ℕ) (height : ℤ) :
    Prop where
  le : fromHeight ≤ height
  below_target : ∀ target ∈ call.targetHeight, height ≤ max fromHeight target
  below_tip : ∀ highest, (∀ round, tip round ≤ highest) → height ≤ max fromHeight highest
  reaches : ∀ goal ≤ tip 0, (∀ target ∈ call.targetHeight, goal ≤ target) →
    min goal (fromHeight + rounds * max 1 (min call.limit 100)) ≤ height

theorem syncRounds_download {base highest start : ℤ} {n : ImportNode σ}
    (hserved : ServedChain payload chain base highest) (hbase : base ≤ start) (ic : ImportConfig σ)
    (clock : ℕ → String) (call : SyncCall) (effectiveHeight : ℤ) (rounds : ℕ) {tip : ℕ → ℤ}
    (hgrows : ∀ i j, i ≤ j → tip i ≤ tip j) (hhighest : ∀ round, tip round ≤ highest)
    {s : SyncState σ} (h : Downloaded payload chain n start s.syncFromHeight s) :
    ∃ s', syncRounds ic clock call effectiveHeight rounds (peerAnswers payload chain base tip) s =
        (s', none) ∧
      Downloaded payload chain n start s'.syncFromHeight s' ∧
        EndsAt call tip s.syncFromHeight rounds s'.syncFromHeight := by
  induction rounds generalizing tip s with
  -- the rounds are over: the bound is the one of no round
  | zero =>
    refine ⟨s, rfl, h, le_rfl, fun _ _ => le_max_left _ _, fun _ _ => le_max_left _ _,
      fun goal _ _ => ?_⟩
    push_cast
    omega
  | succ rounds ih =>
    obtain ⟨s₁, hdown, hle, hlimit, htip, hends⟩ :=
      syncRound_download hserved hbase h ic clock call effectiveHeight 0 (hhighest 0)
    unfold syncRounds
    rcases hends with ⟨hstop, rfl, target, htarget, hreached⟩ |
      ⟨hopen, ⟨hstop, hreached⟩ | ⟨hgo, hfull⟩⟩
    · -- the target is reached
      rw [hstop]
      exact ⟨s₁, rfl, hdown, le_rfl, fun _ _ => le_max_left _ _, fun _ _ => le_max_left _ _,
        fun goal _ htargets => (min_le_left _ _).trans ((htargets target htarget).trans hreached)⟩
    · -- the tip is reached
      rw [hstop]
      refine ⟨s₁, rfl, hdown, hle, fun target htarget => ?_, fun t ht => ?_, fun goal hgoal _ => ?_⟩
      · have := requestLimit_le call effectiveHeight s.syncFromHeight htarget (hopen target htarget)
        omega
      · exact htip.trans (max_le_max_left _ (ht 0))
      · exact (min_le_left _ _).trans (hgoal.trans hreached)
    · -- the next round starts where this one ended
      rw [hgo]
      have hgrows' : ∀ i j, i ≤ j → tip (i + 1) ≤ tip (j + 1) :=
        fun i j hij => hgrows _ _ (by omega)
      obtain ⟨s', hrest, hdown', hends'⟩ := ih hgrows' (fun round => hhighest (round + 1)) hdown
      refine ⟨s', hrest, hdown', hle.trans hends'.le, fun target htarget => ?_, fun t ht => ?_,
        fun goal hgoal htargets => ?_⟩
      · -- a limit that the target cuts does not lead above the target
        have hbound := requestLimit_le call effectiveHeight s.syncFromHeight htarget
          (hopen target htarget)
        have := hends'.below_target target htarget
        omega
      · have := hends'.below_tip t fun round => ht (round + 1)
        have := ht 0
        omega
      · have hfirst : goal ≤ tip 1 := hgoal.trans (hgrows _ _ (by omega))
        have hgoal' := hends'.reaches goal hfirst htargets
        rcases le_requestLimit call effectiveHeight s.syncFromHeight hopen with
          hlarge | ⟨target, htarget, hreached⟩
        · -- a full round adds the limit
          push_cast
          have : s.syncFromHeight + (rounds + 1) * max 1 (min call.limit 100) ≤
              s₁.syncFromHeight + rounds * max 1 (min call.limit 100) := by
            rw [hfull]
            linarith
          exact (min_le_min_left goal this).trans hgoal'
        · have := htargets target htarget
          have := hends'.le
          omega

theorem not_conflicts_of_lt {n : ImportNode σ} {block : ChainBlockRow}
    (h : localEffectiveBlockHeight n < block.height) : ¬ Conflicts n block := by
  rintro ⟨own, hown, hheight, -⟩
  obtain ⟨best, hlatest, hle⟩ := le_foldl_higherBlock n.blocks none own (.inl hown)
  have hbest : latestBlock n = some best := hlatest
  unfold localEffectiveBlockHeight at h
  rw [hbest, Option.elim_some] at h
  omega

/-- The blocks of a peer, with hashes that end in the digit of the height. -/
def localChain (height : ℤ) : ChainBlockRow :=
  ⟨height, String.ofList (List.replicate 63 'a' ++ [Nat.digitChar height.toNat]), "", ""⟩

def localPayload (block : ChainBlockRow) : Value :=
  .obj [("height", .int block.height), ("block_hash", .str block.blockHash),
    ("previous_hash", .str legacyZeroGenesisHash), ("timestamp", .str "2026-05-10T00:00:00+00:00")]

theorem length_legacyZeroGenesisHash : legacyZeroGenesisHash.length = 64 := by
  unfold legacyZeroGenesisHash
  rw [String.length_ofList, List.length_replicate]

theorem servedChain_local : ServedChain localPayload localChain 0 3 where
  base_nonneg := le_rfl
  height _ := rfl
  describes h _ _ :=
    { height := rfl
      blockHash := rfl
      previousHash := ⟨legacyZeroGenesisHash, by simp [Client.item, localPayload, List.lookup_cons],
        length_legacyZeroGenesisHash⟩
      timestamp := ⟨.str "2026-05-10T00:00:00+00:00", rfl⟩
      length := by
        rw [localChain, String.length_ofList, List.length_append, List.length_replicate,
          List.length_singleton] }
  hashes h h' hlow hhigh hlow' hhigh' heq := by
    have hdigit : Nat.digitChar h.toNat = Nat.digitChar h'.toNat :=
      List.singleton_inj.mp (List.append_cancel_left (String.ofList_injective heq))
    have hcases : h = 1 ∨ h = 2 ∨ h = 3 := by omega
    have hcases' : h' = 1 ∨ h' = 2 ∨ h' = 3 := by omega
    rcases hcases with rfl | rfl | rfl <;> rcases hcases' with rfl | rfl | rfl <;>
      first | rfl | exact absurd hdigit (by decide)

/-- A node whose replay goes wrong where another branch may repair it. -/
def localGate : ReplayGate Unit where
  status := .ok ⟨true, "divergent", some "Conflicting block at height 1", none⟩
  autoRecovery := true
  recover n := (n, none)

end Picoin
