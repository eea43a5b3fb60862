import Picoin.Lib.Run
import Picoin.Pool.Settlement

/-!
# No won block is lost

Once the pool has looked up the latest blocks, every task that one of them is for should be
accepted, hold the block, and have its shares credited.

A task that has failed is looked at by no reconciler, and so is one that is being finalized. The
run theorem holds where a `finalize_task` whose reveal has taken effect gets the reply, and where no
block of a task that is being finalized is looked up; **`unanswered_reveal`** is a run in which the
reply is lost.

* **`Honest`** — the replies that come are true;
* **`Answered`** — the reply to a reveal comes;
* **`TasksTracked`** — where every task is that the node has the reveal of;
* **`won_blocks_settled_of_run`** — the blocks are settled.
-/

namespace Picoin.Pool

open Json Run

/-! ## Won tasks -/

/-- Every share of the task is credited. -/
def SharesCredited (s : PoolState) (poolTaskId : String) : Prop :=
  ∀ shareId share, s.shares.find? shareId = some share → share.poolTaskId = poolTaskId →
    share.credited = true

/-- Two payloads of one block. -/
def SameBlock (sc : SettlementConfig) (block other : Dict) : Prop :=
  blockTaskId sc block = blockTaskId sc other ∧ blockHashOf block = blockHashOf other

/-- The row is accepted and holds the block. -/
def HoldsBlock (sc : SettlementConfig) (row : TaskRow) (block : Dict) : Prop :=
  row.status = .accepted ∧ ∃ reveal payload, row.rawReveal = some (.obj reveal) ∧
    Dict.get reveal "block" = .obj payload ∧ SameBlock sc payload block

/-- The row waits for its block. -/
def Awaits (row : TaskRow) : Prop := (pendingReveal row).isSome = true

/-- The row holds a block of the node for its task. -/
def HoldsWonBlock (sc : SettlementConfig) (node : MainNode) (row : TaskRow) : Prop :=
  ∃ block ∈ node.blocks, blockTaskId sc block = row.mainnetTaskId ∧ HoldsBlock sc row block

/-- The node has closed the task, or another task has the block of its round. -/
def WithoutBlock (sc : SettlementConfig) (node : MainNode) (row : TaskRow) : Prop :=
  row.mainnetTaskId ∈ node.closed ∨ ∃ height, roundHeight sc row = some height ∧
    ∃ block ∈ node.blocks, blockHeight sc block = some height ∧
      blockTaskId sc block ≠ row.mainnetTaskId

/-! ## Replies -/

/-- The reply to a reveal that has taken effect. -/
def HonestReveal (sc : SettlementConfig) (node : MainNode) (taskId : String) (reveal : Dict) :
    Prop :=
  revealCredited reveal = true ∧ ∀ payload, reveal.get "block" = .obj payload →
    isText (reveal.get "status") "validation_pending" = false ∧
      ∃ block ∈ node.blocks, blockTaskId sc block = taskId ∧ SameBlock sc payload block

/-- The status of a task, as the node has it. -/
def HonestStatus (sc : SettlementConfig) (node : MainNode) (taskId : String) (payload : Dict) :
    Prop :=
  (∀ block, payload.get "block" = .obj block →
    strip (textOrEmpty sc (payload.get "status")) = "accepted" →
      ∃ won ∈ node.blocks, blockTaskId sc won = taskId ∧ SameBlock sc block won) ∧
  ((closingStatus (strip (textOrEmpty sc (payload.get "status")))).isSome = true →
    taskId ∈ node.closed)

/-- The replies that come are true, and the node adds a block for a task of the pool only where it
has the reveal, at the height of the task's round. -/
def Honest (sc : SettlementConfig) (s : Settlement) : SettleEvent → Prop
  | .endFinalize poolTaskId reply _ =>
    ∀ row, s.pool.tasks.find? poolTaskId = some row → row.mainnetTaskId ∈ s.node.revealed →
      ∀ challenge reveal, reply = .answered challenge reveal →
        HonestReveal sc s.node row.mainnetTaskId reveal
  | .addBlock block =>
    ∀ poolTaskId row, s.pool.tasks.find? poolTaskId = some row →
      row.mainnetTaskId = blockTaskId sc block → row.mainnetTaskId ∈ s.node.revealed ∧
        ∀ height, roundHeight sc row = some height → blockHeight sc block = some height
  | .reconcileMainnetTaskStatuses replies _ =>
    ∀ taskId payload, replies taskId = some payload → HonestStatus sc s.node taskId payload
  | .beginFinalize _ | .reveal _ | .closeTask _ | .reconcileWonBlocks _ _ => True

/-- A `finalize_task` whose reveal has taken effect gets the replies, and no block of a task that is
being finalized is looked up. -/
def Answered (sc : SettlementConfig) (s : Settlement) : SettleEvent → Prop
  | .endFinalize poolTaskId reply _ =>
    ∀ row, s.pool.tasks.find? poolTaskId = some row → row.mainnetTaskId ∈ s.node.revealed →
      ∃ challenge reveal, reply = .answered challenge reveal
  | .reconcileWonBlocks answered _ =>
    answered = true → ∀ poolTaskId ∈ s.pool.finalizing, ∀ row,
      s.pool.tasks.find? poolTaskId = some row →
        ∀ block ∈ s.node.recent sc, blockTaskId sc block ≠ row.mainnetTaskId
  | _ => True

/-! ## The invariant -/

/-- Where a task is whose reveal the node has taken. -/
def Tracked (sc : SettlementConfig) (s : Settlement) (poolTaskId : String) (row : TaskRow) : Prop :=
  row.mainnetTaskId ∉ s.node.revealed ∨ poolTaskId ∈ s.pool.finalizing ∨
    WithoutBlock sc s.node row ∨
      (SharesCredited s.pool poolTaskId ∧ (Awaits row ∨ HoldsWonBlock sc s.node row))

/-- The tasks of the pool; their mainnet ids are unique. -/
structure TasksKept (s : PoolState) : Prop where
  named : ∀ poolTaskId row, s.tasks.find? poolTaskId = some row → row.mainnetTaskId ≠ ""
  unique : ∀ id id' row row', s.tasks.find? id = some row → s.tasks.find? id' = some row' →
    row.mainnetTaskId = row'.mainnetTaskId → id = id'
  submitting : ∀ poolTaskId row, s.tasks.find? poolTaskId = some row →
    poolTaskId ∈ s.finalizing → row.status = .submitting
  nodup : s.finalizing.Nodup

/-- The blocks of the node: one for each task and for each height, and for the tasks of the pool
only where the reveal has been taken. -/
structure BlocksKept (sc : SettlementConfig) (s : Settlement) : Prop where
  tasks : ∀ block ∈ s.node.blocks, ∀ other ∈ s.node.blocks,
    blockTaskId sc block = blockTaskId sc other → block = other
  heights : ∀ block ∈ s.node.blocks, ∀ other ∈ s.node.blocks,
    blockHeight sc block = blockHeight sc other → block = other
  won : ∀ poolTaskId row, s.pool.tasks.find? poolTaskId = some row → ∀ block ∈ s.node.blocks,
    blockTaskId sc block = row.mainnetTaskId → row.mainnetTaskId ∈ s.node.revealed ∧
      row.mainnetTaskId ∉ s.node.closed ∧
        ∀ height, roundHeight sc row = some height → blockHeight sc block = some height

/-- What holds between the steps of a run. -/
structure TasksTracked (sc : SettlementConfig) (s : Settlement) : Prop where
  pool : TasksKept s.pool
  node : BlocksKept sc s
  tracked : ∀ poolTaskId row, s.pool.tasks.find? poolTaskId = some row →
    Tracked sc s poolTaskId row

/-- A task with a block is not without one. -/
theorem BlocksKept.not_withoutBlock {sc : SettlementConfig} {s : Settlement}
    (h : BlocksKept sc s) {poolTaskId : String} {row : TaskRow}
    (hrow : s.pool.tasks.find? poolTaskId = some row) {block : Dict}
    (hblock : block ∈ s.node.blocks) (htask : blockTaskId sc block = row.mainnetTaskId) :
    ¬WithoutBlock sc s.node row := by
  have ⟨_, hopen, hround⟩ := h.won poolTaskId row hrow block hblock htask
  rintro (hclosed | ⟨height, hheight, other, hother, hat, hne⟩)
  · exact hopen hclosed
  · -- the round has one block only
    have heq := h.heights block hblock other hother ((hround height hheight).trans hat.symm)
    rw [← heq] at hne
    exact hne htask

/-! ## Payloads -/

/-- A key that is set has its value. -/
@[simp] theorem Dict.get_set (reply : Dict) (key : String) (value : Value) :
    (reply.set key value).get key = value := by
  simp [Dict.get, Dict.set, Sql.Table.lookup_upsertRows]

/-- The other keys keep theirs. -/
theorem Dict.get_set_ne (reply : Dict) {key key' : String} (value : Value) (h : key' ≠ key) :
    (reply.set key value).get key' = reply.get key' := by
  simp [Dict.get, Dict.set, Sql.Table.lookup_upsertRows, h]

/-- A settled reveal holds the block. -/
theorem get_block_settledReveal (reveal : Dict) (accepted : Bool) (status message : String)
    (block : Value) :
    (settledReveal reveal accepted status message block).get "block" = block :=
  Dict.get_set _ _ _

/-- The validation leaves the block of a reveal. -/
theorem get_block_withValidation (payload reveal : Dict) :
    (withValidation payload reveal).get "block" = reveal.get "block" := by
  unfold withValidation
  split
  · exact Dict.get_set_ne reveal _ (by decide)
  · rfl

/-- The payload of a block under its other name is the same block. -/
theorem sameBlock_normalizeBlockPayload (sc : SettlementConfig) (block : Dict) :
    SameBlock sc (normalizeBlockPayload block) block := by
  unfold normalizeBlockPayload
  split
  · next hash hnone hhash =>
    constructor
    · unfold blockTaskId
      rw [Dict.get_set_ne block _ (by decide)]
    · unfold blockHashOf Dict.set
      rw [Sql.Table.lookup_upsertRows, if_pos rfl, hnone, hhash]
      rfl
  · exact ⟨rfl, rfl⟩

/-- Blocks that are the same as a third are the same. -/
theorem SameBlock.trans {sc : SettlementConfig} {block₁ block₂ block₃ : Dict}
    (h : SameBlock sc block₁ block₂) (h' : SameBlock sc block₂ block₃) :
    SameBlock sc block₁ block₃ :=
  ⟨h.1.trans h'.1, h.2.trans h'.2⟩

/-- What is no object is no block. -/
theorem isDict_eq_false {value : Value} (h : ∀ fields, value ≠ .obj fields) :
    isDict value = false := by
  cases value with
  | obj fields => exact absurd rfl (h fields)
  | _ => rfl

/-- A row with a reveal that has no block waits for it. -/
theorem awaits_of_status {row : TaskRow} {reveal : Dict}
    (hreveal : row.rawReveal = some (.obj reveal)) (hblock : isDict (reveal.get "block") = false)
    (hstatus : row.status = .submitted ∨ row.status = .validationPending) : Awaits row := by
  unfold Awaits pendingReveal
  rw [hreveal]
  rcases hstatus with hstatus | hstatus <;> simp [hstatus, hblock]

/-- A row that holds a block waits for none. -/
theorem pendingReveal_of_holdsBlock {sc : SettlementConfig} {row : TaskRow} {block : Dict}
    (h : HoldsBlock sc row block) : pendingReveal row = none := by
  obtain ⟨hstatus, reveal, payload, hreveal, hblock, -⟩ := h
  unfold pendingReveal
  rw [hreveal]
  simp [hstatus, hblock, isDict]

/-- A row that is being finalized waits for none. -/
theorem pendingReveal_of_submitting {row : TaskRow} (h : row.status = .submitting) :
    pendingReveal row = none := by
  unfold pendingReveal
  split
  · simp [h]
  · rfl

/-! ## One row -/

/-- The block of a task is found among the blocks. -/
theorem blockOfTask_eq_some {sc : SettlementConfig} {blocks : List Dict} {taskId : String}
    {block : Dict} (h : blockOfTask sc blocks taskId = some block) :
    block ∈ blocks ∧ blockTaskId sc block = taskId := by
  have hmem := List.mem_filter.mp (List.mem_of_getLast? h)
  simp only [Bool.and_eq_true, decide_eq_true_eq] at hmem
  exact ⟨hmem.1, hmem.2.2⟩

/-- The block of a task is found among the blocks. -/
theorem blockOfTask_ne_none {sc : SettlementConfig} {blocks : List Dict} {taskId : String}
    {block : Dict} (hname : taskId ≠ "") (hblock : block ∈ blocks)
    (htask : blockTaskId sc block = taskId) : blockOfTask sc blocks taskId ≠ none := by
  intro hnone
  have hempty := List.getLast?_eq_none_iff.mp hnone
  have hmem : block ∈ blocks.filter fun block =>
      blockTaskId sc block ≠ "" && blockTaskId sc block = taskId := by
    simp [hblock, htask, hname]
  rw [hempty] at hmem
  cases hmem

/-- A block that is found at a height is one of the node, at that height. -/
theorem blockAtHeight_eq_some {sc : SettlementConfig} {blocks : List Dict} {height : ℤ}
    {block : Dict} (h : blockAtHeight sc blocks height = some block) :
    block ∈ blocks ∧ blockHeight sc block = some height := by
  have hmem := List.mem_filter.mp (List.mem_of_getLast? h)
  exact ⟨hmem.1, by simpa using hmem.2⟩

/-- A row that is won holds its block. -/
theorem holdsBlock_win {sc : SettlementConfig} {block reveal : Dict} {now : Instant}
    {row : TaskRow} : HoldsBlock sc (row.win block reveal now) block :=
  ⟨rfl, _, _, rfl, get_block_settledReveal _ _ _ _ _, sameBlock_normalizeBlockPayload sc block⟩

/-- A row keeps its task and its round. -/
def KeepsTask (row row' : TaskRow) : Prop :=
  row'.mainnetTaskId = row.mainnetTaskId ∧ row'.rawTask = row.rawTask

/-- A row keeps its task when it is settled. -/
theorem keepsTask_settleRow (sc : SettlementConfig) (blocks : List Dict) (now : Instant)
    (row : TaskRow) : KeepsTask row (settleRow sc blocks now row) := by
  unfold settleRow
  split
  · exact ⟨rfl, rfl⟩
  · split
    · exact ⟨rfl, rfl⟩
    · split
      · exact ⟨rfl, rfl⟩
      · split
        · exact ⟨rfl, rfl⟩
        · split <;> exact ⟨rfl, rfl⟩

/-- A waiting row gets its block, goes on waiting, or is lost to another task. -/
theorem settleRow_cases {sc : SettlementConfig} {node : MainNode} {blocks : List Dict}
    (hblocks : ∀ block ∈ blocks, block ∈ node.blocks) (now : Instant) {row : TaskRow}
    (h : Awaits row ∨ HoldsWonBlock sc node row) :
    WithoutBlock sc node row ∨ Awaits (settleRow sc blocks now row) ∨
      HoldsWonBlock sc node (settleRow sc blocks now row) := by
  rcases h with hawaits | ⟨block, hblock, htask, hholds⟩
  · have hkept := hawaits
    unfold settleRow
    split
    · exact .inr (.inl hkept)
    · next reveal hreveal =>
      split
      · next block hfound =>
        have ⟨hmem, htask⟩ := blockOfTask_eq_some hfound
        exact .inr (.inr ⟨block, hblocks block hmem, htask, holdsBlock_win⟩)
      · split
        · exact .inr (.inl hkept)
        · next winner hwinner =>
          split
          · exact .inr (.inl hkept)
          · next hother =>
            obtain ⟨height, hround, hfound⟩ := Option.bind_eq_some_iff.mp hwinner
            have ⟨hmem, hheight⟩ := blockAtHeight_eq_some hfound
            exact .inl (.inr ⟨height, hround, winner, hblocks winner hmem, hheight,
              fun heq => hother (.inr heq)⟩)
  · right; right
    unfold settleRow
    rw [pendingReveal_of_holdsBlock hholds]
    exact ⟨block, hblock, htask, hholds⟩

/-- What the status of a task leads to. -/
theorem statusUpdate_cases {sc : SettlementConfig} {row : TaskRow} {payload : Dict}
    {update : StatusUpdate} (h : statusUpdate sc row payload = some update) :
    (update.status = .accepted ∧ ∃ block, payload.get "block" = .obj block ∧
      strip (textOrEmpty sc (payload.get "status")) = "accepted" ∧
        update.reveal.get "block" = .obj (normalizeBlockPayload block)) ∨
    (update.status = .validationPending ∧ update.reveal.get "block" = .null) ∨
    (closingStatus (strip (textOrEmpty sc (payload.get "status")))).isSome = true := by
  have hblock : ∀ reveal accepted status message block,
      (withValidation payload (settledReveal reveal accepted status message block)).get "block" =
        block := fun reveal accepted status message block =>
    (get_block_withValidation _ _).trans (get_block_settledReveal _ _ _ _ _)
  unfold statusUpdate at h
  dsimp only at h
  split at h
  · next block hpayload =>
    split at h
    · next haccepted =>
      rw [← Option.some.inj h]
      exact .inl ⟨rfl, block, hpayload, haccepted, hblock _ _ _ _ _⟩
    · split at h
      · rw [← Option.some.inj h]
        exact .inr (.inl ⟨rfl, hblock _ _ _ _ _⟩)
      · obtain ⟨closed, hclosed, -⟩ := Option.map_eq_some_iff.mp h
        exact .inr (.inr (by rw [hclosed]; rfl))
  · split at h
    · rw [← Option.some.inj h]
      exact .inr (.inl ⟨rfl, hblock _ _ _ _ _⟩)
    · obtain ⟨closed, hclosed, -⟩ := Option.map_eq_some_iff.mp h
      exact .inr (.inr (by rw [hclosed]; rfl))

/-- It keeps it when the status of the node is applied. -/
theorem keepsTask_applyMainnetTaskStatus (sc : SettlementConfig) (payload : Dict) (now : Instant)
    (row : TaskRow) : KeepsTask row (applyMainnetTaskStatus sc payload now row) := by
  unfold applyMainnetTaskStatus
  split
  · exact ⟨rfl, rfl⟩
  · split <;> exact ⟨rfl, rfl⟩

/-- A row whose status has been asked for holds its block, goes on waiting, or is closed. -/
theorem applyMainnetTaskStatus_cases {sc : SettlementConfig} {node : MainNode} {payload : Dict}
    (now : Instant) {row : TaskRow} (hstatus : HonestStatus sc node row.mainnetTaskId payload)
    (h : Awaits row ∨ HoldsWonBlock sc node row) :
    WithoutBlock sc node row ∨ Awaits (applyMainnetTaskStatus sc payload now row) ∨
      HoldsWonBlock sc node (applyMainnetTaskStatus sc payload now row) := by
  unfold applyMainnetTaskStatus
  split
  · exact .inr h
  · next update hupdate =>
    split
    · rcases statusUpdate_cases hupdate with ⟨haccepted, block, hblock, htext, hreveal⟩ |
        ⟨hpending, hreveal⟩ | hclosed
      · obtain ⟨won, hwon, htask, hsame⟩ := hstatus.1 block hblock htext
        exact .inr (.inr ⟨won, hwon, htask, haccepted, _, _, rfl, hreveal,
          (sameBlock_normalizeBlockPayload sc block).trans hsame⟩)
      · refine .inr (.inl (awaits_of_status rfl ?_ (.inr hpending)))
        rw [hreveal]
        rfl
      · exact .inl (.inl (hstatus.2 hclosed))
    · exact .inr h

/-- The reply to a reveal leaves its task waiting, or holding its block. -/
theorem revealed_cases {sc : SettlementConfig} {node : MainNode} {reveal : Dict} {row : TaskRow}
    (hhonest : HonestReveal sc node row.mainnetTaskId reveal)
    (hreveal : row.rawReveal = some (.obj reveal)) (hstatus : row.status = revealStatus reveal) :
    Awaits row ∨ HoldsWonBlock sc node row := by
  obtain ⟨hcredited, hblock⟩ := hhonest
  by_cases hdict : ∃ payload, reveal.get "block" = .obj payload
  · obtain ⟨payload, hpayload⟩ := hdict
    obtain ⟨hpending, block, hmem, htask, hsame⟩ := hblock payload hpayload
    have haccepted : holds (reveal.get "accepted") = true := by
      unfold revealCredited at hcredited
      rwa [hpending, Bool.or_false] at hcredited
    refine .inr ⟨block, hmem, htask, ?_, reveal, payload, hreveal, hpayload, hsame⟩
    rw [hstatus]
    simp [revealStatus, hpending, haccepted, hpayload, isDict]
  · have hnone : isDict (reveal.get "block") = false :=
      isDict_eq_false fun fields heq => hdict ⟨fields, heq⟩
    refine .inl (awaits_of_status hreveal hnone ?_)
    rw [hstatus]
    unfold revealStatus
    rw [hnone, hcredited]
    cases isText (reveal.get "status") "validation_pending" <;> simp

/-! ## One step -/

section

variable {sc : SettlementConfig} {s : Settlement}

/-- Rows that keep their tasks keep what is known of the blocks. -/
theorem BlocksKept.mapRows (h : BlocksKept sc s) {pool : PoolState}
    (hkeep : ∀ poolTaskId row', pool.tasks.find? poolTaskId = some row' →
      ∃ row, s.pool.tasks.find? poolTaskId = some row ∧ KeepsTask row row') :
    BlocksKept sc { s with pool } where
  tasks := h.tasks
  heights := h.heights
  won poolTaskId row' hrow' block hblock htask := by
    obtain ⟨row, hrow, hid, hraw⟩ := hkeep poolTaskId row' hrow'
    have hwon := h.won poolTaskId row hrow block hblock (htask.trans hid)
    have hround : roundHeight sc row' = roundHeight sc row := by
      unfold roundHeight
      rw [hraw]
    rwa [hid, hround]

/-- A row with the same task is without a block, too. -/
theorem WithoutBlock.congr {node : MainNode} {row row' : TaskRow} (h : WithoutBlock sc node row)
    (hkeep : KeepsTask row row') : WithoutBlock sc node row' := by
  obtain ⟨hid, hraw⟩ := hkeep
  have hround : roundHeight sc row' = roundHeight sc row := by
    unfold roundHeight
    rw [hraw]
  unfold WithoutBlock
  rwa [hid, hround]

/-- A reconciler rewrites each row on its own. -/
theorem TasksTracked.mapRows (h : TasksTracked sc s) {f : String → TaskRow → TaskRow}
    (hkeep : ∀ poolTaskId row, KeepsTask row (f poolTaskId row))
    (hsubmitting : ∀ poolTaskId row, row.status = .submitting →
      (f poolTaskId row).status = .submitting)
    (hrow : ∀ poolTaskId row, Awaits row ∨ HoldsWonBlock sc s.node row →
      WithoutBlock sc s.node row ∨ Awaits (f poolTaskId row) ∨
        HoldsWonBlock sc s.node (f poolTaskId row)) :
    TasksTracked sc { s with pool := { s.pool with tasks := s.pool.tasks.mapRows f } } := by
  -- every row comes from the row of the same task
  have hback : ∀ poolTaskId row', (s.pool.tasks.mapRows f).find? poolTaskId = some row' →
      ∃ row, s.pool.tasks.find? poolTaskId = some row ∧ f poolTaskId row = row' := by
    intro poolTaskId row' hrow'
    rw [Sql.Table.find?_mapRows] at hrow'
    exact Option.map_eq_some_iff.mp hrow'
  refine ⟨⟨?_, ?_, ?_, h.pool.nodup⟩, h.node.mapRows ?_, ?_⟩
  · intro poolTaskId row' hrow'
    obtain ⟨row, hold, rfl⟩ := hback poolTaskId row' hrow'
    rw [(hkeep poolTaskId row).1]
    exact h.pool.named poolTaskId row hold
  · intro id id' row' row'' hrow' hrow'' heq
    obtain ⟨row, hold, rfl⟩ := hback id row' hrow'
    obtain ⟨other, hother, rfl⟩ := hback id' row'' hrow''
    rw [(hkeep id row).1, (hkeep id' other).1] at heq
    exact h.pool.unique id id' row other hold hother heq
  · intro poolTaskId row' hrow' hmem
    obtain ⟨row, hold, rfl⟩ := hback poolTaskId row' hrow'
    exact hsubmitting poolTaskId row (h.pool.submitting poolTaskId row hold hmem)
  · intro poolTaskId row' hrow'
    obtain ⟨row, hold, rfl⟩ := hback poolTaskId row' hrow'
    exact ⟨row, hold, hkeep poolTaskId row⟩
  · intro poolTaskId row' hrow'
    obtain ⟨row, hold, rfl⟩ := hback poolTaskId row' hrow'
    unfold Tracked
    rcases h.tracked poolTaskId row hold with hnot | hfinalizing | hwithout | ⟨hcredited, hwon⟩
    · exact .inl (by rwa [(hkeep poolTaskId row).1])
    · exact .inr (.inl hfinalizing)
    · exact .inr (.inr (.inl (hwithout.congr (hkeep poolTaskId row))))
    · rcases hrow poolTaskId row hwon with hwithout | hwon
      · exact .inr (.inr (.inl (hwithout.congr (hkeep poolTaskId row))))
      · exact .inr (.inr (.inr ⟨hcredited, hwon⟩))

/-- A recent block is one of the node. -/
theorem mem_recent {block : Dict} (h : block ∈ s.node.recent sc) : block ∈ s.node.blocks :=
  List.mem_reverse.mp (List.mem_of_mem_take h)

/-- The pass over the won blocks preserves it. -/
theorem TasksTracked.reconcileWonBlocks (h : TasksTracked sc s) (answered : Bool)
    (now : Instant) : TasksTracked sc (settleStep sc s (.reconcileWonBlocks answered now)) := by
  cases answered with
  | false => exact h
  | true =>
    refine h.mapRows (fun _ row => keepsTask_settleRow sc _ now row) (fun _ row hstatus => ?_)
      fun _ row hwon => settleRow_cases (fun block => mem_recent) now hwon
    unfold settleRow
    rw [pendingReveal_of_submitting hstatus]
    exact hstatus

/-- So does the pass over the statuses, if the node answers honestly. -/
theorem TasksTracked.reconcileMainnetTaskStatuses (h : TasksTracked sc s)
    {replies : String → Option Dict} {now : Instant}
    (hreplies : Honest sc s (.reconcileMainnetTaskStatuses replies now)) :
    TasksTracked sc (settleStep sc s (.reconcileMainnetTaskStatuses replies now)) := by
  refine h.mapRows (fun _ row => ?_) (fun _ row hstatus => ?_) fun _ row hwon => ?_
  · split
    · split
      · exact ⟨rfl, rfl⟩
      · exact keepsTask_applyMainnetTaskStatus sc _ now row
    · exact ⟨rfl, rfl⟩
  · split
    · split
      · exact hstatus
      · unfold applyMainnetTaskStatus
        split
        · exact hstatus
        · rw [hstatus]
          exact hstatus
    · exact hstatus
  · split
    · split
      · exact .inr hwon
      · next payload hpayload =>
        exact applyMainnetTaskStatus_cases now (hreplies _ payload hpayload) hwon
    · exact .inr hwon

/-- A row after the first transaction of `finalize_task`. -/
theorem find?_beginFinalize {s : PoolState} {id poolTaskId : String} {row' : TaskRow}
    (h : (beginFinalize s id).tasks.find? poolTaskId = some row') :
    ∃ row, s.tasks.find? poolTaskId = some row ∧ KeepsTask row row' ∧
      (row' = row ∧ (poolTaskId = id → row.status ≠ .gathering) ∨
        poolTaskId ∈ (beginFinalize s id).finalizing ∧ row'.status = .submitting) := by
  unfold beginFinalize at h ⊢
  split at h
  · next task htask =>
    split at h
    · next hgathering =>
      rw [Sql.Table.find?_modify] at h
      split at h
      · next heq =>
        obtain ⟨row, hrow, rfl⟩ := Option.map_eq_some_iff.mp h
        refine ⟨row, heq ▸ hrow, ⟨rfl, rfl⟩, .inr ⟨?_, rfl⟩⟩
        simp [heq, hgathering]
      · next hne => exact ⟨row', h, ⟨rfl, rfl⟩, .inl ⟨rfl, fun heq => absurd heq hne⟩⟩
    · next hother =>
      refine ⟨row', h, ⟨rfl, rfl⟩, .inl ⟨rfl, fun heq => ?_⟩⟩
      rw [heq, htask] at h
      rw [← Option.some.inj h]
      exact hother
  · next hnone =>
    refine ⟨row', h, ⟨rfl, rfl⟩, .inl ⟨rfl, fun heq => ?_⟩⟩
    rw [heq, hnone] at h
    cases h

/-- The start of a finalization leaves the shares. -/
theorem beginFinalize_shares (s : PoolState) (id : String) :
    (beginFinalize s id).shares = s.shares := by
  unfold beginFinalize
  split
  · split <;> rfl
  · rfl

/-- The tasks under finalization: as before, or with one that was gathering. -/
theorem beginFinalize_finalizing (s : PoolState) (id : String) :
    (beginFinalize s id).finalizing = s.finalizing ∨
      (beginFinalize s id).finalizing = s.finalizing ++ [id] ∧
        ∃ row, s.tasks.find? id = some row ∧ row.status = .gathering := by
  unfold beginFinalize
  split
  · next task htask =>
    split
    · next hgathering => exact .inr ⟨rfl, task, htask, hgathering⟩
    · exact .inl rfl
  · exact .inl rfl

/-- It preserves it. -/
theorem TasksTracked.beginFinalize (h : TasksTracked sc s) (id : String) :
    TasksTracked sc (settleStep sc s (.beginFinalize id)) := by
  have hgrows : ∀ poolTaskId ∈ s.pool.finalizing,
      poolTaskId ∈ (Pool.beginFinalize s.pool id).finalizing := by
    intro poolTaskId hmem
    rcases beginFinalize_finalizing s.pool id with heq | ⟨heq, -⟩ <;> rw [heq]
    · exact hmem
    · exact List.mem_append_left _ hmem
  -- names, uniqueness, the tasks in submission, no task twice, and the node
  refine ⟨⟨?_, ?_, ?_, ?_⟩, h.node.mapRows ?_, ?_⟩
  · intro poolTaskId row' hrow'
    obtain ⟨row, hrow, hkeep, -⟩ := find?_beginFinalize hrow'
    rw [hkeep.1]
    exact h.pool.named poolTaskId row hrow
  · intro id₁ id₂ row₁ row₂ hrow₁ hrow₂ heq
    obtain ⟨old₁, hold₁, hkeep₁, -⟩ := find?_beginFinalize hrow₁
    obtain ⟨old₂, hold₂, hkeep₂, -⟩ := find?_beginFinalize hrow₂
    rw [hkeep₁.1, hkeep₂.1] at heq
    exact h.pool.unique id₁ id₂ old₁ old₂ hold₁ hold₂ heq
  · intro poolTaskId row' hrow' hmem
    obtain ⟨row, hrow, -, ⟨rfl, hother⟩ | ⟨-, hstatus⟩⟩ := find?_beginFinalize hrow'
    · rcases beginFinalize_finalizing s.pool id with heq | ⟨heq, task, htask, hgathering⟩
      · exact h.pool.submitting poolTaskId row' hrow (heq ▸ hmem)
      · rw [settleStep, heq] at hmem
        rcases List.mem_append.mp hmem with hmem | hmem
        · exact h.pool.submitting poolTaskId row' hrow hmem
        · -- the task that was gathering has been rewritten
          obtain rfl := List.mem_singleton.mp hmem
          rw [Option.some.inj (hrow.symm.trans htask)] at hother
          exact absurd hgathering (hother rfl)
    · exact hstatus
  · show (Pool.beginFinalize s.pool id).finalizing.Nodup
    rcases beginFinalize_finalizing s.pool id with heq | ⟨heq, task, htask, hgathering⟩ <;> rw [heq]
    · exact h.pool.nodup
    · rw [List.nodup_append]
      refine ⟨h.pool.nodup, List.nodup_singleton id, fun poolTaskId hmem other hother heq => ?_⟩
      rw [heq, List.mem_singleton.mp hother] at hmem
      have hsubmitting := h.pool.submitting id task htask hmem
      rw [hgathering] at hsubmitting
      cases hsubmitting
  · intro poolTaskId row' hrow'
    obtain ⟨row, hrow, hkeep, -⟩ := find?_beginFinalize hrow'
    exact ⟨row, hrow, hkeep⟩
  · intro poolTaskId row' hrow'
    obtain ⟨row, hrow, -, ⟨rfl, -⟩ | ⟨hfinalizing, -⟩⟩ := find?_beginFinalize hrow'
    · rcases h.tracked poolTaskId row' hrow with hnot | hmem | hwithout | ⟨hcredited, hwon⟩
      · exact .inl hnot
      · exact .inr (.inl (hgrows poolTaskId hmem))
      · exact .inr (.inr (.inl hwithout))
      · refine .inr (.inr (.inr ⟨?_, hwon⟩))
        unfold SharesCredited
        rw [settleStep, beginFinalize_shares]
        exact hcredited
    · exact .inr (.inl hfinalizing)

/-- A reveal takes effect for a task that is being finalized. -/
theorem TasksTracked.reveal (h : TasksTracked sc s) (taskId : String) :
    TasksTracked sc (settleStep sc s (.reveal taskId)) := by
  dsimp only [settleStep]
  split
  · next hfinalizing =>
    refine ⟨h.pool, ⟨h.node.tasks, h.node.heights, ?_⟩, ?_⟩
    · intro poolTaskId row hrow block hblock htask
      have ⟨hrevealed, hrest⟩ := h.node.won poolTaskId row hrow block hblock htask
      exact ⟨List.mem_cons_of_mem _ hrevealed, hrest⟩
    · intro poolTaskId row hrow
      by_cases htask : row.mainnetTaskId = taskId
      · unfold finalizingTask at hfinalizing
        obtain ⟨id, hid, hany⟩ := List.any_eq_true.mp hfinalizing
        obtain ⟨other, hother, hsame⟩ := (Option.any_eq_true _ _).mp hany
        -- the mainnet id is that of one task only
        have heq := h.pool.unique id poolTaskId other row hother hrow
          ((of_decide_eq_true hsame).trans htask.symm)
        exact .inr (.inl (heq ▸ hid))
      · rcases h.tracked poolTaskId row hrow with hnot | hrest
        · left
          intro hmem
          rcases List.mem_cons.mp hmem with heq | hmem
          · exact htask heq
          · exact hnot hmem
        · exact .inr hrest
  · exact h

/-- What is said of a task's blocks stays true with more of them. -/
theorem Tracked.addBlock {poolTaskId : String} {row : TaskRow} (h : Tracked sc s poolTaskId row)
    (block : Dict) :
    Tracked sc { s with node := { s.node with blocks := s.node.blocks ++ [block] } } poolTaskId
      row := by
  rcases h with hnot | hmem | hwithout | ⟨hcredited, hawaits | ⟨won, hwon, htask, hholds⟩⟩
  · exact .inl hnot
  · exact .inr (.inl hmem)
  · refine .inr (.inr (.inl ?_))
    rcases hwithout with hclosed | ⟨height, hround, other, hother, hat⟩
    · exact .inl hclosed
    · exact .inr ⟨height, hround, other, List.mem_append_left _ hother, hat⟩
  · exact .inr (.inr (.inr ⟨hcredited, .inl hawaits⟩))
  · exact .inr (.inr (.inr ⟨hcredited, .inr ⟨won, List.mem_append_left _ hwon, htask, hholds⟩⟩))

/-- A block with a new key keeps the keys of the blocks apart. -/
theorem unique_append {α : Type} {key : Dict → α} {blocks : List Dict} {block : Dict}
    (h : ∀ b ∈ blocks, ∀ other ∈ blocks, key b = key other → b = other)
    (hnew : ∀ other ∈ blocks, key other ≠ key block) :
    ∀ b ∈ blocks ++ [block], ∀ other ∈ blocks ++ [block], key b = key other → b = other := by
  intro b hb other hother heq
  rcases List.mem_append.mp hb with hb | hb <;>
    rcases List.mem_append.mp hother with hother | hother
  · exact h b hb other hother heq
  · rw [List.mem_singleton.mp hother] at heq
    exact absurd heq (hnew b hb)
  · rw [List.mem_singleton.mp hb] at heq
    exact absurd heq.symm (hnew other hother)
  · rw [List.mem_singleton.mp hb, List.mem_singleton.mp hother]

/-- An admitted block differs from all others in its task and in its height. -/
theorem MainNode.admits_iff {node : MainNode} {block : Dict} :
    node.admits sc block = true ↔ blockTaskId sc block ∉ node.closed ∧
      ∀ other ∈ node.blocks, blockTaskId sc other ≠ blockTaskId sc block ∧
        blockHeight sc other ≠ blockHeight sc block := by
  simp [MainNode.admits]

/-- A new block of the node preserves it. -/
theorem TasksTracked.addBlock (h : TasksTracked sc s) {block : Dict}
    (hadded : Honest sc s (.addBlock block)) :
    TasksTracked sc (settleStep sc s (.addBlock block)) := by
  dsimp only [settleStep]
  split
  · next hadmits =>
    obtain ⟨hopen, hnew⟩ := MainNode.admits_iff.mp hadmits
    refine ⟨h.pool, ⟨?_, ?_, ?_⟩, fun poolTaskId row hrow =>
      (h.tracked poolTaskId row hrow).addBlock block⟩
    · exact unique_append h.node.tasks fun other hother => (hnew other hother).1
    · exact unique_append h.node.heights fun other hother => (hnew other hother).2
    · intro poolTaskId row hrow b hb htask
      rcases List.mem_append.mp hb with hb | hb
      · exact h.node.won poolTaskId row hrow b hb htask
      · rw [List.mem_singleton.mp hb] at htask ⊢
        have ⟨hrevealed, hround⟩ := hadded poolTaskId row hrow htask.symm
        exact ⟨hrevealed, htask ▸ hopen, hround⟩
  · exact h

/-- A task is closed only without a block. -/
theorem TasksTracked.closeTask (h : TasksTracked sc s) (taskId : String) :
    TasksTracked sc (settleStep sc s (.closeTask taskId)) := by
  dsimp only [settleStep]
  split
  · next hnone =>
    refine ⟨h.pool, ⟨h.node.tasks, h.node.heights, ?_⟩, ?_⟩
    · intro poolTaskId row hrow block hblock htask
      have ⟨hrevealed, hopen, hround⟩ := h.node.won poolTaskId row hrow block hblock htask
      refine ⟨hrevealed, fun hmem => ?_, hround⟩
      rcases List.mem_cons.mp hmem with heq | hmem
      · have hother := List.all_eq_true.mp hnone block hblock
        exact of_decide_eq_true hother (htask.trans heq)
      · exact hopen hmem
    · intro poolTaskId row hrow
      rcases h.tracked poolTaskId row hrow with hnot | hmem | hwithout | hrest
      · exact .inl hnot
      · exact .inr (.inl hmem)
      · refine .inr (.inr (.inl ?_))
        rcases hwithout with hclosed | hround
        · exact .inl (List.mem_cons_of_mem _ hclosed)
        · exact .inr hround
      · exact .inr (.inr (.inr hrest))
  · exact h

/-- The row of a task whose finalization ends. -/
def TaskRow.finalize (result : FinalizeResult) (now : Instant) (row : TaskRow) : TaskRow :=
  { row with
    status := result.status
    rawCommit := result.rawCommit.or row.rawCommit
    rawReveal := result.rawReveal.or row.rawReveal
    error := result.error.or row.error
    completedAt := some now }

/-- A row after the last transaction of `finalize_task`. -/
theorem find?_endFinalize {s : PoolState} {id poolTaskId : String} {result : FinalizeResult}
    {now : Instant} {row' : TaskRow} (hid : id ∈ s.finalizing)
    (h : (endFinalize s id result now).tasks.find? poolTaskId = some row') :
    ∃ row, s.tasks.find? poolTaskId = some row ∧
      (poolTaskId ≠ id ∧ row' = row ∨ poolTaskId = id ∧ row' = row.finalize result now) := by
  unfold endFinalize at h
  rw [if_pos hid, Sql.Table.find?_modify] at h
  split at h
  · next heq =>
    obtain ⟨row, hrow, rfl⟩ := Option.map_eq_some_iff.mp h
    exact ⟨row, heq ▸ hrow, .inr ⟨heq, rfl⟩⟩
  · next hne => exact ⟨row', h, .inl ⟨hne, rfl⟩⟩

/-- Credited shares stay credited. -/
theorem SharesCredited.endFinalize {s : PoolState} {id poolTaskId : String}
    {result : FinalizeResult} {now : Instant} (h : SharesCredited s poolTaskId) :
    SharesCredited (endFinalize s id result now) poolTaskId := by
  unfold Pool.endFinalize
  split
  · intro shareId share' hshare' htask
    rw [Sql.Table.find?_mapRows] at hshare'
    obtain ⟨share, hshare, rfl⟩ := Option.map_eq_some_iff.mp hshare'
    split
    · rfl
    · next hnot =>
      rw [if_neg hnot] at htask
      exact h shareId share hshare htask
  · exact h

/-- A credited result credits the shares of its task. -/
theorem sharesCredited_endFinalize {s : PoolState} {id : String} {result : FinalizeResult}
    {now : Instant} (hid : id ∈ s.finalizing) (hresult : result.credited = true) :
    SharesCredited (endFinalize s id result now) id := by
  unfold endFinalize
  rw [if_pos hid]
  intro shareId share' hshare' htask
  rw [Sql.Table.find?_mapRows] at hshare'
  obtain ⟨share, -, rfl⟩ := Option.map_eq_some_iff.mp hshare'
  split
  · rfl
  · next hnot =>
    rw [if_neg hnot] at htask
    exact absurd ⟨hresult, htask⟩ hnot

/-- The end of a finalization preserves it, if the node answered. -/
theorem TasksTracked.endFinalize (h : TasksTracked sc s) {id : String} {reply : FinalizeReply}
    {now : Instant} (hhonest : Honest sc s (.endFinalize id reply now))
    (hanswered : Answered sc s (.endFinalize id reply now)) :
    TasksTracked sc (settleStep sc s (.endFinalize id reply now)) := by
  by_cases hid : id ∈ s.pool.finalizing
  swap
  · have hsame : Pool.endFinalize s.pool id (finalizeResult reply) now = s.pool := by
      unfold Pool.endFinalize
      rw [if_neg hid]
    rw [settleStep, hsame]
    exact h
  have hfinalizing : (settleStep sc s (.endFinalize id reply now)).pool.finalizing =
      s.pool.finalizing.erase id := by
    dsimp only [settleStep]
    unfold Pool.endFinalize
    rw [if_pos hid]
  have hback : ∀ poolTaskId row',
      (settleStep sc s (.endFinalize id reply now)).pool.tasks.find? poolTaskId = some row' →
        ∃ row, s.pool.tasks.find? poolTaskId = some row ∧ KeepsTask row row' ∧
          (poolTaskId ≠ id ∧ row' = row ∨
            poolTaskId = id ∧ row' = row.finalize (finalizeResult reply) now) := by
    intro poolTaskId row' hrow'
    obtain ⟨row, hrow, hcases⟩ := find?_endFinalize hid hrow'
    refine ⟨row, hrow, ?_, hcases⟩
    rcases hcases with ⟨-, rfl⟩ | ⟨-, rfl⟩ <;> exact ⟨rfl, rfl⟩
  refine ⟨⟨?_, ?_, ?_, ?_⟩, h.node.mapRows ?_, ?_⟩
  · intro poolTaskId row' hrow'
    obtain ⟨row, hrow, hkeep, -⟩ := hback poolTaskId row' hrow'
    rw [hkeep.1]
    exact h.pool.named poolTaskId row hrow
  · intro id₁ id₂ row₁ row₂ hrow₁ hrow₂ heq
    obtain ⟨old₁, hold₁, hkeep₁, -⟩ := hback id₁ row₁ hrow₁
    obtain ⟨old₂, hold₂, hkeep₂, -⟩ := hback id₂ row₂ hrow₂
    rw [hkeep₁.1, hkeep₂.1] at heq
    exact h.pool.unique id₁ id₂ old₁ old₂ hold₁ hold₂ heq
  · intro poolTaskId row' hrow' hmem
    rw [hfinalizing] at hmem
    obtain ⟨row, hrow, -, ⟨-, rfl⟩ | ⟨rfl, -⟩⟩ := hback poolTaskId row' hrow'
    · exact h.pool.submitting poolTaskId row' hrow (List.mem_of_mem_erase hmem)
    · exact absurd hmem h.pool.nodup.not_mem_erase
  · rw [hfinalizing]
    exact h.pool.nodup.erase id
  · intro poolTaskId row' hrow'
    obtain ⟨row, hrow, hkeep, -⟩ := hback poolTaskId row' hrow'
    exact ⟨row, hrow, hkeep⟩
  · intro poolTaskId row' hrow'
    obtain ⟨row, hrow, -, ⟨hne, rfl⟩ | ⟨rfl, rfl⟩⟩ := hback poolTaskId row' hrow'
    -- another task stays on the list
    · rcases h.tracked poolTaskId row' hrow with hnot | hmem | hwithout | ⟨hcredited, hwon⟩
      · exact .inl hnot
      · refine .inr (.inl ?_)
        rw [hfinalizing]
        exact (List.mem_erase_of_ne hne).mpr hmem
      · exact .inr (.inr (.inl hwithout))
      · exact .inr (.inr (.inr ⟨hcredited.endFinalize, hwon⟩))
    -- the task itself: its reveal has been answered, or the node has not taken it
    · by_cases hrevealed : row.mainnetTaskId ∈ s.node.revealed
      · obtain ⟨challenge, reveal, rfl⟩ := hanswered row hrow hrevealed
        have htrue := hhonest row hrow hrevealed challenge reveal rfl
        have hwon : Awaits (row.finalize (finalizeResult (.answered challenge reveal)) now) ∨
            HoldsWonBlock sc s.node
              (row.finalize (finalizeResult (.answered challenge reveal)) now) :=
          revealed_cases htrue rfl rfl
        exact .inr (.inr (.inr ⟨sharesCredited_endFinalize hid htrue.1, hwon⟩))
      · exact .inl hrevealed

/-- Every step keeps the tasks tracked. -/
theorem TasksTracked.step (h : TasksTracked sc s) {event : SettleEvent}
    (hhonest : Honest sc s event) (hanswered : Answered sc s event) :
    TasksTracked sc (settleStep sc s event) := by
  cases event with
  | beginFinalize id => exact h.beginFinalize id
  | reveal taskId => exact h.reveal taskId
  | endFinalize id reply now => exact h.endFinalize hhonest hanswered
  | addBlock block => exact h.addBlock hhonest
  | closeTask taskId => exact h.closeTask taskId
  | reconcileWonBlocks answered now => exact h.reconcileWonBlocks answered now
  | reconcileMainnetTaskStatuses replies now => exact h.reconcileMainnetTaskStatuses hhonest

end

/-! ## A pass -/

section

variable {sc : SettlementConfig} {s : Settlement}

/-- Every task that one of the latest blocks is for is accepted, holds the block, and has its shares
credited. -/
def WonBlocksSettled (sc : SettlementConfig) (s : Settlement) : Prop :=
  ∀ poolTaskId row, s.pool.tasks.find? poolTaskId = some row → ∀ block ∈ s.node.recent sc,
    blockTaskId sc block = row.mainnetTaskId →
      HoldsBlock sc row block ∧ SharesCredited s.pool poolTaskId

/-- The latest blocks are settled. -/
theorem TasksTracked.settled (h : TasksTracked sc s) {now : Instant}
    (hidle : Answered sc s (.reconcileWonBlocks true now)) :
    WonBlocksSettled sc (settleStep sc s (.reconcileWonBlocks true now)) := by
  intro poolTaskId row' hrow' block hblock htask'
  have hmem : block ∈ s.node.blocks := mem_recent hblock
  have hfound : (s.pool.tasks.mapRows fun _ row => settleRow sc (s.node.recent sc) now row).find?
      poolTaskId = some row' := hrow'
  rw [Sql.Table.find?_mapRows] at hfound
  obtain ⟨row, hrow, rfl⟩ := Option.map_eq_some_iff.mp hfound
  have htask : blockTaskId sc block = row.mainnetTaskId :=
    htask'.trans (keepsTask_settleRow sc (s.node.recent sc) now row).1
  -- a task has one block at most
  have hsame : ∀ other ∈ s.node.blocks, blockTaskId sc other = row.mainnetTaskId →
      other = block := fun other hother heq =>
    h.node.tasks other hother block hmem (heq.trans htask.symm)
  -- with a block on the chain the row is credited, and awaits its reveal or holds it
  rcases h.tracked poolTaskId row hrow with hnot | hfinalizing | hwithout |
    ⟨hcredited, hawaits | ⟨won, hwon, hwonTask, hholds⟩⟩
  · exact absurd (h.node.won poolTaskId row hrow block hmem htask).1 hnot
  · exact absurd htask (hidle rfl poolTaskId hfinalizing row hrow block hblock)
  · exact absurd hwithout (h.node.not_withoutBlock hrow hmem htask)
  · refine ⟨?_, hcredited⟩
    obtain ⟨reveal, hreveal⟩ := Option.isSome_iff_exists.mp hawaits
    unfold settleRow
    rw [hreveal]
    dsimp only
    split
    · next won hwon =>
      have ⟨hrecent, hwonTask⟩ := blockOfTask_eq_some hwon
      rw [hsame won (mem_recent hrecent) hwonTask]
      exact holdsBlock_win
    · next hnone =>
      exact absurd hnone (blockOfTask_ne_none (h.pool.named poolTaskId row hrow) hblock htask)
  · refine ⟨?_, hcredited⟩
    unfold settleRow
    rw [pendingReveal_of_holdsBlock hholds]
    exact hsame won hwon hwonTask ▸ hholds

/-- The statuses leave an accepted row as it is. -/
theorem WonBlocksSettled.statuses (h : WonBlocksSettled sc s) (replies : String → Option Dict)
    (now : Instant) :
    WonBlocksSettled sc (settleStep sc s (.reconcileMainnetTaskStatuses replies now)) := by
  intro poolTaskId row' hrow' block hblock htask
  dsimp only [settleStep, Pool.reconcileMainnetTaskStatuses] at hrow'
  rw [Sql.Table.find?_mapRows] at hrow'
  obtain ⟨row, hrow, rfl⟩ := Option.map_eq_some_iff.mp hrow'
  have hid : row.mainnetTaskId = blockTaskId sc block := by
    rw [htask]
    split
    · split
      · rfl
      · exact (keepsTask_applyMainnetTaskStatus sc _ now row).1.symm
    · rfl
  have ⟨hholds, hcredited⟩ := h poolTaskId row hrow block hblock hid.symm
  refine ⟨?_, hcredited⟩
  have hasks : row.status.asksStatus = false := by
    rw [hholds.1]
    rfl
  split
  · split
    · exact hholds
    · unfold applyMainnetTaskStatus
      split
      · exact hholds
      · rw [hasks]
        exact hholds
  · exact hholds

end

/-! ## Runs -/

/-- A pool that has tasks to finalize, none of which the node has seen a reveal of. -/
structure Unrevealed (sc : SettlementConfig) (s : Settlement) : Prop where
  named : ∀ poolTaskId row, s.pool.tasks.find? poolTaskId = some row → row.mainnetTaskId ≠ ""
  unique : ∀ id id' row row', s.pool.tasks.find? id = some row →
    s.pool.tasks.find? id' = some row' → row.mainnetTaskId = row'.mainnetTaskId → id = id'
  idle : s.pool.finalizing = []
  tasks : ∀ block ∈ s.node.blocks, ∀ other ∈ s.node.blocks,
    blockTaskId sc block = blockTaskId sc other → block = other
  heights : ∀ block ∈ s.node.blocks, ∀ other ∈ s.node.blocks,
    blockHeight sc block = blockHeight sc other → block = other
  unrevealed : ∀ poolTaskId row, s.pool.tasks.find? poolTaskId = some row →
    row.mainnetTaskId ∉ s.node.revealed ∧
      ∀ block ∈ s.node.blocks, blockTaskId sc block ≠ row.mainnetTaskId

/-- It holds before anything is revealed. -/
theorem Unrevealed.tracked {sc : SettlementConfig} {s : Settlement} (h : Unrevealed sc s) :
    TasksTracked sc s where
  pool :=
    { named := h.named
      unique := h.unique
      submitting := fun _ _ _ hmem => by rw [h.idle] at hmem; cases hmem
      nodup := by rw [h.idle]; exact List.nodup_nil }
  node :=
    { tasks := h.tasks
      heights := h.heights
      won := fun poolTaskId row hrow block hblock htask =>
        absurd htask ((h.unrevealed poolTaskId row hrow).2 block hblock) }
  tracked poolTaskId row hrow := .inl (h.unrevealed poolTaskId row hrow).1

/-- A reconcile pass in which every lookup is answered, in the order of `tick`. -/
def reconcilePass (replies : String → Dict) (now : Instant) : List SettleEvent :=
  [.reconcileWonBlocks true now,
    .reconcileMainnetTaskStatuses (fun taskId => some (replies taskId)) now]

/-- **No won block is lost**: after a pass, in every run whose replies come back, the latest blocks
are settled. -/
theorem won_blocks_settled_of_run (sc : SettlementConfig) (s : Settlement)
    (hstart : Unrevealed sc s) (events : List SettleEvent) (replies : String → Dict)
    (now : Instant)
    (hrun : EachStep (settleStep sc) (fun s event => Honest sc s event ∧ Answered sc s event) s
      (events ++ reconcilePass replies now)) :
    WonBlocksSettled sc ((events ++ reconcilePass replies now).foldl (settleStep sc) s) := by
  have hsplit : events ++ reconcilePass replies now = (events ++ [.reconcileWonBlocks true now]) ++
      [.reconcileMainnetTaskStatuses (fun taskId => some (replies taskId)) now] := by
    simp [reconcilePass]
  rw [hsplit] at hrun ⊢
  obtain ⟨hblocks, -⟩ := eachStep_concat.mp hrun
  obtain ⟨hevents, hidle⟩ := eachStep_concat.mp hblocks
  have htracked : TasksTracked sc (events.foldl (settleStep sc) s) :=
    invariant_of_eachStep (fun _ _ h hevent => h.step hevent.1 hevent.2) events s hstart.tracked
      hevents _ (foldl_mem_states _ _ _)
  rw [List.foldl_append, List.foldl_append]
  exact (htracked.settled hidle.2).statuses _ now

/-! ## A local pool -/

def localSettlements : SettlementConfig where
  settlementBlockLimit := 100
  statusLimit := 50
  intOfText _ := none
  textOf _ := ""

/-- A task that waits to be finalized. -/
def localPoolTask : TaskRow where
  mainnetTaskId := "task-1"
  status := .gathering
  rangeStart := 1
  rangeEnd := 2
  algorithm := "bbp_hex_v1"
  rawTask := .obj [("task_id", .str "task-1")]
  rawCommit := none
  rawReveal := none
  error := none
  createdAt := 0
  completedAt := none

/-- A pool with one task and one share, and a node without blocks. -/
def localSettlement : Settlement where
  pool :=
    { PoolState.empty with
      tasks := Sql.Table.empty.upsert "pt_1" localPoolTask
      shares := Sql.Table.empty.upsert "ps_1" ⟨"ann", "pt_1", "pc_1", 2, false, 0⟩ }
  node := ⟨[], [], []⟩

def localWonBlock : Dict :=
  [("task_id", .str "task-1"), ("height", .int 1), ("block_hash", .str "hash-1")]

/-- The reveal of the task takes effect, the reply comes or is lost, and the node adds its block. -/
def localRevealRun (reply : FinalizeReply) : List SettleEvent :=
  [.beginFinalize "pt_1", .reveal "task-1", .endFinalize "pt_1" reply 1, .addBlock localWonBlock]

def localReply : FinalizeReply :=
  .answered [("accepted", .bool true)]
    [("accepted", .bool true), ("status", .str "validation_pending"), ("block", .null)]

def localStatus (taskId : String) : Dict :=
  if taskId = "task-1" then [("status", .str "accepted"), ("block", .obj localWonBlock)]
  else [("status", .str "unknown")]

/-- The local pool has one task. -/
theorem find?_localSettlement {poolTaskId : String} {row : TaskRow}
    (h : localSettlement.pool.tasks.find? poolTaskId = some row) :
    poolTaskId = "pt_1" ∧ row = localPoolTask := by
  have hmem : (poolTaskId, row) ∈ [("pt_1", localPoolTask)] := Sql.Table.find?_eq_some_iff.mp h
  simpa using hmem

/-- It is not revealed. -/
theorem unrevealed_localSettlement : Unrevealed localSettlements localSettlement where
  named poolTaskId row hrow := by
    rw [(find?_localSettlement hrow).2]
    decide
  unique id id' row row' hrow hrow' _ := by
    rw [(find?_localSettlement hrow).1, (find?_localSettlement hrow').1]
  idle := rfl
  tasks _ hblock := nomatch hblock
  heights _ hblock := nomatch hblock
  unrevealed _ _ _ := ⟨List.not_mem_nil, fun _ hblock => nomatch hblock⟩

/-- The statuses of a node whose only block is the local one. -/
theorem honestStatus_localStatus {node : MainNode} (hblocks : node.blocks = [localWonBlock])
    (taskId : String) (payload : Dict) (hpayload : some (localStatus taskId) = some payload) :
    HonestStatus localSettlements node taskId payload := by
  rw [← Option.some.inj hpayload]
  by_cases htask : taskId = "task-1"
  · rw [htask]
    refine ⟨fun block hblock _ => ?_, fun hclosing => nomatch hclosing⟩
    cases hblock
    exact ⟨localWonBlock, hblocks ▸ List.mem_singleton_self _, rfl, rfl, rfl⟩
  · rw [localStatus, if_neg htask]
    exact ⟨fun block hblock => (nomatch hblock), fun hclosing => (nomatch hclosing)⟩

/-- The local block is added for a revealed task without a round. -/
theorem honest_localWonBlock {s : Settlement} (row₁ : TaskRow)
    (htasks : s.pool.tasks.rows = [("pt_1", row₁)]) (hraw : row₁.rawTask = localPoolTask.rawTask)
    (hrevealed : "task-1" ∈ s.node.revealed) :
    Honest localSettlements s (.addBlock localWonBlock) := by
  intro poolTaskId row hrow htask
  have hmem : (poolTaskId, row) ∈ s.pool.tasks.rows := Sql.Table.find?_eq_some_iff.mp hrow
  rw [htasks, List.mem_singleton] at hmem
  refine ⟨htask ▸ hrevealed, fun height hround => ?_⟩
  unfold roundHeight at hround
  rw [(Prod.mk.inj hmem).2, hraw] at hround
  cases hround

/-- The reply comes back, and the block is settled. -/
theorem won_blocks_settled_local :
    EachStep (settleStep localSettlements) (fun s event => Honest localSettlements s event ∧
        Answered localSettlements s event) localSettlement
        (localRevealRun localReply ++ reconcilePass localStatus 2) ∧
      WonBlocksSettled localSettlements ((localRevealRun localReply ++
        reconcilePass localStatus 2).foldl (settleStep localSettlements) localSettlement) := by
  have h : EachStep (settleStep localSettlements) (fun s event => Honest localSettlements s event ∧
      Answered localSettlements s event) localSettlement
        (localRevealRun localReply ++ reconcilePass localStatus 2) := by
    refine ⟨⟨trivial, trivial⟩, ⟨trivial, trivial⟩, ⟨fun row _ _ challenge reveal hreply => ?_,
      fun _ _ _ => ⟨_, _, rfl⟩⟩, ⟨fun poolTaskId row hrow htask => ?_, trivial⟩,
      ⟨trivial, fun _ poolTaskId hmem => (nomatch hmem)⟩, ⟨honestStatus_localStatus rfl, trivial⟩,
      trivial⟩
    · cases hreply
      exact ⟨by decide, fun payload hblock => nomatch hblock⟩
    · exact honest_localWonBlock (localPoolTask.finalize (finalizeResult localReply) 1) rfl rfl
        List.mem_cons_self poolTaskId row hrow htask
  exact ⟨h, won_blocks_settled_of_run localSettlements localSettlement unrevealed_localSettlement
    _ localStatus 2 h⟩

/-- The reveal takes effect and its reply is lost. The task fails, the node adds its block, and no
pass looks at the task again. -/
theorem unanswered_reveal :
    ¬ ∀ (sc : SettlementConfig) (s : Settlement), Unrevealed sc s →
      ∀ (events : List SettleEvent) (replies : String → Dict) (now : Instant),
        EachStep (settleStep sc) (Honest sc) s (events ++ reconcilePass replies now) →
          WonBlocksSettled sc ((events ++ reconcilePass replies now).foldl (settleStep sc) s) := by
  intro hall
  have hhonest : EachStep (settleStep localSettlements) (Honest localSettlements) localSettlement
      (localRevealRun (.failed "Read timed out.") ++ reconcilePass localStatus 2) :=
    ⟨trivial, trivial, fun _ _ _ _ _ hreply => (nomatch hreply),
      honest_localWonBlock (localPoolTask.finalize (finalizeResult (.failed "Read timed out.")) 1)
        rfl rfl List.mem_cons_self, trivial, honestStatus_localStatus rfl,
      trivial⟩
  have hsettled := hall localSettlements localSettlement unrevealed_localSettlement
    (localRevealRun (.failed "Read timed out.")) localStatus 2 hhonest
  have hrow : ((localRevealRun (.failed "Read timed out.") ++ reconcilePass localStatus 2).foldl
      (settleStep localSettlements) localSettlement).pool.tasks.find? "pt_1" =
        some (localPoolTask.finalize (finalizeResult (.failed "Read timed out.")) 1) := by rfl
  have hblock : localWonBlock ∈ ((localRevealRun (.failed "Read timed out.") ++
      reconcilePass localStatus 2).foldl (settleStep localSettlements)
        localSettlement).node.recent localSettlements := List.mem_singleton_self _
  have hstatus := (hsettled "pt_1" _ hrow localWonBlock hblock rfl).1.1
  revert hstatus
  decide

end Picoin.Pool
