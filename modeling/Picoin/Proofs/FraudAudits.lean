import Picoin.Lib.Run
import Picoin.Proofs.PiSegments
import Picoin.Services.LocalMining
import Picoin.Services.RetroactiveAudit

/-!
# What the audits find

A block names the hash of a result that nobody looks at again, except in an audit. Whatever audits
run, on whichever blocks and however often, they mark a block if and only if its result is false
and one of them has looked; the marked blocks are the punished ones, and each is punished once.

* **`TrueResult`** — the block's hash is that of its calculated range;
* **`Verified`** — an audit has calculated it; the marker of an import has not;
* **`AuditSound`**, **`audits_punish_false_results`** — the invariant, and what it says of a run.
-/

namespace Picoin

open Outcome

variable {σ : Type} {ac : AuditConfig}

/-- The block's result is the hash of its calculated range. -/
def TrueResult (ac : AuditConfig) (block : MinedBlockRow) : Prop :=
  ∃ segment, auditedSegment ac block = .ok segment ∧
    block.resultHash = hashResult ac.config segment block.rangeStart block.rangeEnd block.algorithm

/-- An audit of the height has calculated the range. -/
def Verified (audits : Sql.Table String AuditRow) (height : ℤ) : Prop :=
  ∃ seed row, audits.find? seed = some row ∧ row.blockHeight = height ∧
    row.reason ≠ auditMarkerReason

/-- Marks are put on false results that an audit has calculated, each mark with one punishment. -/
structure AuditSound (ac : AuditConfig) (n : AuditingNode σ) : Prop where
  heights : (n.state.blocks.map fun block => block.height).Nodup
  audited : ∀ height, Verified n.audits height → ∃ block ∈ n.state.blocks, block.height = height
  marked : ∀ block ∈ n.state.blocks, block.fraudulent = true ↔
    Verified n.audits block.height ∧ ¬ TrueResult ac block
  once : n.punished.Nodup
  punished : ∀ height, height ∈ n.punished ↔
    ∃ block ∈ n.state.blocks, block.height = height ∧ block.fraudulent = true

/-- The participants of a false block that was not marked are punished. -/
structure Punishes (ac : AuditConfig) (now : Instant) (n n' : AuditingNode σ)
    (block : MinedBlockRow) : Prop where
  known : block ∈ n.state.blocks
  unmarked : block.fraudulent = false
  falseResult : ¬ TrueResult ac block
  punished : n'.punished = n.punished ++ [block.height]
  miner : penalized n'.penalties block.minerId block.taskId
    "fraud detected: result_hash mismatch" = true
  validators : ∀ id, n'.state.validators.find? id = (n.state.validators.find? id).map fun row =>
    if id ∈ approvingValidators n.state.votes block.taskId then row.penalizeFraud now else row

/-- Nobody is punished. -/
structure SparesAll (n n' : AuditingNode σ) : Prop where
  blocks : n'.state.blocks = n.state.blocks
  punished : n'.punished = n.punished
  penalties : n'.penalties = n.penalties
  standings : n'.standings = n.standings
  validators : n'.state.validators = n.state.validators

theorem SparesAll.refl (n : AuditingNode σ) : SparesAll n n := ⟨rfl, rfl, rfl, rfl, rfl⟩

/-! ## One audit -/

theorem penalized_applyForcedPenalty (now : Instant) (n : PenalizingNode σ)
    (minerId taskId : String) (points : ℤ) (reason : String) (forceCooldownSeconds : ℤ) :
    penalized (applyForcedPenalty now n minerId taskId points reason
      forceCooldownSeconds).penalties minerId taskId reason = true := by
  unfold applyForcedPenalty
  dsimp only
  split
  · next hold => exact hold
  · simp [refreshTrustScore, penalized]

/-- The distinct approving validators are penalized once each. -/
theorem find?_penalizeFrauds (now : Instant) {validatorIds : List String}
    (hnodup : validatorIds.Nodup) (validators : Sql.Table String ValidatorRow) (id : String) :
    (validatorIds.foldl (fun validators id =>
        validators.modify id (ValidatorRow.penalizeFraud now)) validators).find? id =
      (validators.find? id).map fun row =>
        if id ∈ validatorIds then row.penalizeFraud now else row := by
  induction validatorIds generalizing validators with
  | nil => simp
  | cons first rest ih =>
    obtain ⟨hfirst, hrest⟩ := List.nodup_cons.mp hnodup
    rw [List.foldl_cons, ih hrest, Sql.Table.find?_modify]
    by_cases heq : id = first
    · have hnotin : id ∉ rest := heq ▸ hfirst
      rw [if_pos heq, ← heq, Option.map_map]
      congr 1
      funext row
      simp [hnotin]
    · rw [if_neg heq]
      simp [heq]

/-- A returning penalty has found all validators. -/
theorem applyFraudPenalties_eq_ok {now : Instant} {n n' : AuditingNode σ} {block : MinedBlockRow}
    {reason : String} (h : applyFraudPenalties now n block reason = .ok n') :
    n'.state.blocks = n.state.blocks ∧ n'.audits = n.audits ∧
      n'.punished = n.punished ++ [block.height] ∧
        penalized n'.penalties block.minerId block.taskId reason = true ∧
          ∀ id, n'.state.validators.find? id = (n.state.validators.find? id).map fun row =>
            if id ∈ approvingValidators n.state.votes block.taskId then row.penalizeFraud now
            else row := by
  unfold applyFraudPenalties at h
  dsimp only at h
  split at h
  · cases h
  · cases h
    refine ⟨?_, rfl, rfl, penalized_applyForcedPenalty .., fun id =>
      find?_penalizeFrauds now (List.nodup_dedup _) _ id⟩
    unfold applyForcedPenalty refreshTrustScore
    dsimp only
    split <;> rfl

theorem punishBlock_cases {now : Instant} {n n' : AuditingNode σ} {block : MinedBlockRow}
    {passed : Bool} {timestamp : String} (hblock : block ∈ n.state.blocks)
    (hpassed : passed = true ↔ TrueResult ac block)
    (h : punishBlock now n block passed timestamp = .ok n') :
    n'.audits = n.audits ∧ (SparesAll n n' ∧ (TrueResult ac block ∨ block.fraudulent = true) ∨
      Punishes ac now n n' block ∧ n'.state.blocks = markBlockFraudulent n.state.blocks
        ⟨block.height, "fraud detected: result_hash mismatch", timestamp⟩) := by
  unfold punishBlock at h
  dsimp only at h
  split at h
  · next hspared =>
    cases h
    rw [Bool.or_eq_true] at hspared
    exact ⟨rfl, .inl ⟨.refl n, hspared.imp_left hpassed.mp⟩⟩
  · next hguilty =>
    rw [Bool.or_eq_true, not_or, Bool.not_eq_true] at hguilty
    obtain ⟨hblocks, haudits, hpunished, hminer, hvalidators⟩ := applyFraudPenalties_eq_ok h
    have hfalse : ¬ TrueResult ac block := fun htrue =>
      Bool.noConfusion ((hpassed.mpr htrue).symm.trans hguilty.1)
    have hunmarked : block.fraudulent = false := by simpa using hguilty.2
    exact ⟨haudits, .inr ⟨⟨hblock, hunmarked, hfalse, hpunished, hminer, hvalidators⟩, hblocks⟩⟩

/-- What an audit has done when it returns: nothing, if it was there already; else its row is
written, and a false block that was not marked is marked and punished. -/
theorem runRetroactiveAudit_cases {now : Instant} {n n' : AuditingNode σ} {block : MinedBlockRow}
    {sampleCount : ℤ} {auditSeed timestamp : String} {automatic : Bool}
    (hblock : block ∈ n.state.blocks)
    (h : runRetroactiveAudit ac now n block sampleCount auditSeed timestamp automatic = .ok n') :
    n' = n ∨ ∃ row : AuditRow, n.audits.find? auditSeed = none ∧
      n'.audits = n.audits.upsert auditSeed row ∧ row.blockHeight = block.height ∧
        row.reason ≠ auditMarkerReason ∧
          (SparesAll n n' ∧ (TrueResult ac block ∨ block.fraudulent = true) ∨
            Punishes ac now n n' block ∧ n'.state.blocks = markBlockFraudulent n.state.blocks
              ⟨block.height, "fraud detected: result_hash mismatch", timestamp⟩) := by
  unfold runRetroactiveAudit at h
  split at h
  · -- the seed has been audited
    exact .inl (pure_eq_ok.mp h).symm
  · next hnew =>
    obtain ⟨segment, hsegment, h⟩ := bind_eq_ok.mp h
    obtain ⟨n₁, hpunish, h⟩ := bind_eq_ok.mp h
    rw [← pure_eq_ok.mp h]
    have hpassed : (auditRow ac block segment sampleCount auditSeed timestamp automatic).passed =
        true ↔ TrueResult ac block := by
      unfold auditRow
      rw [decide_eq_true_eq]
      constructor
      · exact fun heq => ⟨segment, hsegment, heq.symm⟩
      · rintro ⟨segment', hsegment', hhash⟩
        rw [hsegment] at hsegment'
        cases hsegment'
        exact hhash.symm
    have hreason : (auditRow ac block segment sampleCount auditSeed timestamp automatic).reason ≠
        auditMarkerReason := by
      unfold auditRow
      dsimp only
      split
      · decide
      · split <;> decide
    -- the punishment follows the verdict of the row
    obtain ⟨haudits, hcases⟩ := punishBlock_cases hblock hpassed hpunish
    refine .inr ⟨auditRow ac block segment sampleCount auditSeed timestamp automatic,
      by simpa using hnew, by rw [← haudits], rfl, hreason, ?_⟩
    rcases hcases with ⟨hspares, htrue⟩ | ⟨hpunishes, hblocks⟩
    · exact .inl ⟨⟨hspares.blocks, hspares.punished, hspares.penalties, hspares.standings,
        hspares.validators⟩, htrue⟩
    · exact .inr ⟨⟨hpunishes.known, hpunishes.unmarked, hpunishes.falseResult, hpunishes.punished,
        hpunishes.miner, hpunishes.validators⟩, hblocks⟩


/-! ## The calls of a node -/

/-- What happens at a node: a block is added, an audit is called, or the services change anything
but the blocks and the audits. -/
inductive AuditCall (σ : Type) where
  | block (row : MinedBlockRow)
  | scheduled (currentHeight : ℤ) (canonicalReplay : Bool)
  | manual (auditId : String) (blockHeight sampleMultiplier : ℤ)
  | services (given : PenalizingNode σ)

/-- The call is an audit. -/
def AuditCall.IsAudit : AuditCall σ → Prop
  | .block _ | .services _ => False
  | .scheduled _ _ | .manual _ _ _ => True

/-- The state after a call at an instant; an error rolls back. -/
def AuditCall.step (ac : AuditConfig) (n : AuditingNode σ) (timed : Instant × AuditCall σ) :
    AuditingNode σ :=
  match timed.2 with
  | .block row => { n with state := { n.state with blocks := n.state.blocks ++ [row] } }
  | .scheduled currentHeight canonicalReplay =>
    Run.attempt (maybeRunScheduledRetroactiveAudit ac timed.1 n currentHeight canonicalReplay) n
  | .manual auditId blockHeight sampleMultiplier =>
    Run.attempt (runManualRetroactiveAudit ac timed.1 n auditId blockHeight sampleMultiplier) n
  | .services given =>
    { n with toPenalizingNode := { given with
        state := { given.state with blocks := n.state.blocks } } }

/-- An added block has a height of its own, and no mark. -/
def AuditCall.Fits (n : AuditingNode σ) (timed : Instant × AuditCall σ) : Prop :=
  match timed.2 with
  | .block row => row.fraudulent = false ∧ ∀ block ∈ n.state.blocks, block.height ≠ row.height
  | _ => True

/-- What the node has before its first block. -/
structure Unaudited (n : AuditingNode σ) : Prop where
  blocks : n.state.blocks = []
  audits : n.audits = .empty
  punished : n.punished = []

theorem Unaudited.sound {n : AuditingNode σ} (h : Unaudited n) : AuditSound ac n where
  heights := by simp [h.blocks]
  audited := by
    rintro height ⟨seed, row, hrow, -⟩
    simp [h.audits] at hrow
  marked := by simp [h.blocks]
  once := by simp [h.punished]
  punished := by simp [h.punished, h.blocks]

/-! ## What a call keeps -/

/-- A new row of an audit is about its own height. -/
theorem verified_upsert {audits : Sql.Table String AuditRow} {seed : String} {row : AuditRow}
    (hnew : audits.find? seed = none) (height : ℤ) :
    Verified (audits.upsert seed row) height ↔
      Verified audits height ∨ row.blockHeight = height ∧ row.reason ≠ auditMarkerReason := by
  constructor
  · rintro ⟨seed', row', hrow, hheight, hreason⟩
    by_cases hseed : seed' = seed
    · subst hseed
      rw [Sql.Table.find?_upsert_self] at hrow
      cases hrow
      exact .inr ⟨hheight, hreason⟩
    · rw [Sql.Table.find?_upsert_ne _ _ hseed] at hrow
      exact .inl ⟨seed', row', hrow, hheight, hreason⟩
  · rintro (⟨seed', row', hrow, h⟩ | h)
    · have hseed : seed' ≠ seed := by
        rintro rfl
        rw [hnew] at hrow
        cases hrow
      exact ⟨seed', row', by rwa [Sql.Table.find?_upsert_ne _ _ hseed], h⟩
    · exact ⟨seed, row, Sql.Table.find?_upsert_self .., h⟩

/-- The row of a marker verifies nothing. -/
theorem verified_marker {audits : Sql.Table String AuditRow} {seed : String} {row : AuditRow}
    (hnew : audits.find? seed = none) (hreason : row.reason = auditMarkerReason) (height : ℤ) :
    Verified (audits.upsert seed row) height ↔ Verified audits height := by
  rw [verified_upsert hnew]
  exact or_iff_left fun h => h.2 hreason

theorem AuditSound.congr {n n' : AuditingNode σ} (h : AuditSound ac n)
    (hblocks : n'.state.blocks = n.state.blocks) (hpunished : n'.punished = n.punished)
    (haudits : ∀ height, Verified n'.audits height ↔ Verified n.audits height) :
    AuditSound ac n' where
  heights := hblocks ▸ h.heights
  audited height hverified := by
    rw [hblocks]
    exact h.audited height ((haudits height).mp hverified)
  marked block hblock := by
    rw [haudits]
    exact h.marked block (hblocks ▸ hblock)
  once := hpunished ▸ h.once
  punished height := by
    rw [hpunished, hblocks]
    exact h.punished height

/-- Heights tell blocks apart. -/
theorem AuditSound.block_unique {n : AuditingNode σ} (h : AuditSound ac n)
    {block other : MinedBlockRow} (hblock : block ∈ n.state.blocks)
    (hother : other ∈ n.state.blocks) (heq : other.height = block.height) : other = block :=
  List.inj_on_of_nodup_map h.heights hother hblock heq

/-- Nobody is punished for a true result, or for a false one again. -/
theorem AuditSound.spared {n n' : AuditingNode σ} (h : AuditSound ac n) {block : MinedBlockRow}
    (hblock : block ∈ n.state.blocks) (hspares : SparesAll n n')
    (hverified : ∀ height, Verified n'.audits height ↔
      Verified n.audits height ∨ block.height = height)
    (htrue : TrueResult ac block ∨ block.fraudulent = true) : AuditSound ac n' where
  heights := hspares.blocks ▸ h.heights
  audited height hheight := by
    rw [hspares.blocks]
    exact ((hverified height).mp hheight).elim (h.audited height) fun heq => ⟨block, hblock, heq⟩
  marked other hother := by
    rw [hspares.blocks] at hother
    rw [h.marked other hother, hverified]
    refine ⟨fun hmark => ⟨.inl hmark.1, hmark.2⟩, fun ⟨hheight, hfalse⟩ => ?_⟩
    rcases hheight with hold | hnew
    · exact ⟨hold, hfalse⟩
    · -- the audited block itself was marked already
      have hsame := h.block_unique hblock hother hnew.symm
      subst hsame
      exact (h.marked other hother).mp (htrue.resolve_left hfalse)
  once := hspares.punished ▸ h.once
  punished height := by
    rw [hspares.punished, hspares.blocks]
    exact h.punished height

/-- A mark does not touch what is audited. -/
theorem trueResult_mark (block : MinedBlockRow) (reason detectedAt : Option String) :
    TrueResult ac { block with
      fraudulent := true, fraudReason := reason, fraudDetectedAt := detectedAt } ↔
        TrueResult ac block :=
  Iff.rfl

/-- A mark changes the block of its height, and no other. -/
theorem mem_markBlockFraudulent (ac : AuditConfig) {blocks : List MinedBlockRow} {mark : FraudMark}
    {other : MinedBlockRow} (h : other ∈ markBlockFraudulent blocks mark) :
    ∃ block ∈ blocks, other.height = block.height ∧
      (TrueResult ac other ↔ TrueResult ac block) ∧
        (other.fraudulent = true ↔ block.fraudulent = true ∨ block.height = mark.height) := by
  obtain ⟨block, hblock, rfl⟩ := List.mem_map.mp h
  refine ⟨block, hblock, ?_⟩
  split
  · next heq => exact ⟨rfl, trueResult_mark .., by simp [heq]⟩
  · next hne => exact ⟨rfl, Iff.rfl, by simp [hne]⟩

theorem heights_markBlockFraudulent (blocks : List MinedBlockRow) (mark : FraudMark) :
    (markBlockFraudulent blocks mark).map (fun block => block.height) =
      blocks.map fun block => block.height := by
  unfold markBlockFraudulent
  rw [List.map_map]
  refine List.map_congr_left fun block _ => ?_
  dsimp only [Function.comp_apply]
  split <;> rfl

/-- The mark of a false block comes with its one punishment. -/
theorem AuditSound.punishes {now : Instant} {n n' : AuditingNode σ} (h : AuditSound ac n)
    {block : MinedBlockRow} {reason timestamp : String} (hpunishes : Punishes ac now n n' block)
    (hverified : ∀ height, Verified n'.audits height ↔
      Verified n.audits height ∨ block.height = height)
    (hblocks : n'.state.blocks =
      markBlockFraudulent n.state.blocks ⟨block.height, reason, timestamp⟩) :
    AuditSound ac n' := by
  have hknown := hpunishes.known
  -- the block is marked as well, and no mark is taken away
  have hmarked : ∀ height, (∃ other ∈ n'.state.blocks, other.height = height ∧
      other.fraudulent = true) ↔
        (∃ other ∈ n.state.blocks, other.height = height ∧ other.fraudulent = true) ∨
          block.height = height := by
    intro height
    constructor
    · rintro ⟨other, hother, rfl, hfraud⟩
      rw [hblocks] at hother
      obtain ⟨before, hbefore, hheight, -, hmark⟩ := mem_markBlockFraudulent ac hother
      rw [hheight]
      exact (hmark.mp hfraud).imp (fun hold => ⟨before, hbefore, rfl, hold⟩) Eq.symm
    · intro hold
      have hmember : ∃ before ∈ n.state.blocks, before.height = height ∧
          (before.fraudulent = true ∨ before.height = block.height) := by
        rcases hold with ⟨before, hbefore, hheight, hfraud⟩ | hheight
        · exact ⟨before, hbefore, hheight, .inl hfraud⟩
        · exact ⟨block, hknown, hheight, .inr rfl⟩
      obtain ⟨before, hbefore, hheight, hfraud⟩ := hmember
      rw [hblocks]
      refine ⟨_, List.mem_map_of_mem hbefore, ?_⟩
      dsimp only
      split
      · exact ⟨hheight, rfl⟩
      · next hne => exact ⟨hheight, hfraud.resolve_right hne⟩
  -- an unmarked block has not been punished, since heights are unique
  have hnotPunished : block.height ∉ n.punished := by
    intro hpunished
    obtain ⟨other, hother, hheight, hfraud⟩ := (h.punished block.height).mp hpunished
    rw [h.block_unique hknown hother hheight, hpunishes.unmarked] at hfraud
    cases hfraud
  exact {
    heights := by
      rw [hblocks, heights_markBlockFraudulent]
      exact h.heights
    audited := by
      intro height hheight
      have hmember : height ∈ n.state.blocks.map fun other => other.height := by
        rcases (hverified height).mp hheight with hold | rfl
        · exact List.mem_map.mpr (h.audited height hold)
        · exact List.mem_map_of_mem hknown
      rw [← heights_markBlockFraudulent n.state.blocks ⟨block.height, reason, timestamp⟩,
        ← hblocks] at hmember
      exact List.mem_map.mp hmember
    marked := by
      intro other hother
      rw [hblocks] at hother
      obtain ⟨before, hbefore, hheight, htrue, hmark⟩ := mem_markBlockFraudulent ac hother
      rw [hmark, htrue, hheight, hverified, h.marked before hbefore]
      constructor
      · -- the one new mark is that of the false result
        rintro (hold | heq)
        · exact ⟨.inl hold.1, hold.2⟩
        · exact ⟨.inr heq.symm, h.block_unique hknown hbefore heq ▸ hpunishes.falseResult⟩
      · rintro ⟨hold | heq, hfalse⟩
        · exact .inl ⟨hold, hfalse⟩
        · exact .inr heq.symm
    once := by
      rw [hpunishes.punished]
      refine List.nodup_append.mpr ⟨h.once, List.nodup_singleton _, ?_⟩
      rintro height hheight other hother rfl
      exact hnotPunished (List.mem_singleton.mp hother ▸ hheight)
    punished := by
      intro height
      rw [hmarked, hpunishes.punished, List.mem_append, List.mem_singleton, h.punished, eq_comm] }

/-- An audit of a block keeps the invariant, and spares or punishes. -/
theorem AuditSound.audit {now : Instant} {n n' : AuditingNode σ} (h : AuditSound ac n)
    {block : MinedBlockRow} {sampleCount : ℤ} {auditSeed timestamp : String} {automatic : Bool}
    (hblock : block ∈ n.state.blocks)
    (hrun : runRetroactiveAudit ac now n block sampleCount auditSeed timestamp automatic = .ok n') :
    AuditSound ac n' ∧ (SparesAll n n' ∨ Punishes ac now n n' block) := by
  rcases runRetroactiveAudit_cases hblock hrun with
    rfl | ⟨row, hnew, haudits, hheight, hreason, hcases⟩
  · exact ⟨h, .inl (.refl _)⟩
  · have hverified : ∀ height, Verified n'.audits height ↔
        Verified n.audits height ∨ block.height = height := by
      intro height
      rw [haudits, verified_upsert hnew, hheight, and_iff_left hreason]
    rcases hcases with ⟨hspares, htrue⟩ | ⟨hpunishes, hblocks⟩
    · exact ⟨h.spared hblock hspares hverified htrue, .inl hspares⟩
    · exact ⟨h.punishes hpunishes hverified hblocks, .inr hpunishes⟩

theorem mem_of_selectScheduled {blocks : List MinedBlockRow} {triggerHeight : ℤ}
    {block : MinedBlockRow}
    (h : selectScheduledRetroactiveAuditBlock ac blocks triggerHeight = some block) :
    block ∈ blocks := by
  unfold selectScheduledRetroactiveAuditBlock at h
  dsimp only at h
  rw [Option.ite_none_left_eq_some] at h
  exact (List.mem_filter.mp (List.mem_mergeSort.mp (List.mem_of_getElem? h.2))).1

/-- A marker spares everybody, and verifies nothing. -/
theorem AuditSound.marker {n : AuditingNode σ} (h : AuditSound ac n) (block : MinedBlockRow)
    (params : ProtocolParamsRow) (triggerHeight : ℤ) (triggerTimestamp : String) :
    AuditSound ac (recordReplayedScheduledRetroactiveAuditMarker ac n block params triggerHeight
      triggerTimestamp) ∧
        SparesAll n (recordReplayedScheduledRetroactiveAuditMarker ac n block params triggerHeight
          triggerTimestamp) := by
  unfold recordReplayedScheduledRetroactiveAuditMarker
  dsimp only
  split
  · exact ⟨h, .refl n⟩
  · next hnew =>
    exact ⟨h.congr rfl rfl (verified_marker (by simpa using hnew) rfl), ⟨rfl, rfl, rfl, rfl, rfl⟩⟩

theorem AuditSound.scheduled {now : Instant} {n n' : AuditingNode σ} (h : AuditSound ac n)
    {currentHeight : ℤ} {canonicalReplay : Bool}
    (hrun : maybeRunScheduledRetroactiveAudit ac now n currentHeight canonicalReplay = .ok n') :
    AuditSound ac n' ∧ (SparesAll n n' ∨ ∃ block, Punishes ac now n n' block) := by
  unfold maybeRunScheduledRetroactiveAudit at hrun
  dsimp only at hrun
  split at hrun
  · rw [← pure_eq_ok.mp hrun]
    exact ⟨h, .inl (.refl n)⟩
  · split at hrun
    · split at hrun
      · rw [← pure_eq_ok.mp hrun]
        exact ⟨h, .inl (.refl n)⟩
      · obtain ⟨params, -, hrun⟩ := bind_eq_ok.mp hrun
        rw [← pure_eq_ok.mp hrun]
        exact (h.marker ..).imp_right .inl
    · split at hrun
      · cases hrun
      · next hselect =>
        obtain ⟨params, -, hrun⟩ := bind_eq_ok.mp hrun
        exact (h.audit (mem_of_selectScheduled hselect) hrun).imp_right
          (Or.imp_right fun hpunishes => ⟨_, hpunishes⟩)

theorem AuditSound.manual {now : Instant} {n n' : AuditingNode σ} (h : AuditSound ac n)
    {auditId : String} {blockHeight sampleMultiplier : ℤ}
    (hrun : runManualRetroactiveAudit ac now n auditId blockHeight sampleMultiplier = .ok n') :
    AuditSound ac n' ∧ (SparesAll n n' ∨ ∃ block, Punishes ac now n n' block) := by
  unfold runManualRetroactiveAudit at hrun
  split at hrun
  · cases hrun
  · next hblock =>
    obtain ⟨params, -, hrun⟩ := bind_eq_ok.mp hrun
    exact (h.audit (List.mem_of_find?_eq_some hblock) hrun).imp_right
      (Or.imp_right fun hpunishes => ⟨_, hpunishes⟩)

/-- An audit spares everybody, or punishes for one false block; an error rolls back. -/
theorem AuditSound.isAudit {n : AuditingNode σ} (h : AuditSound ac n)
    (timed : Instant × AuditCall σ) (haudit : timed.2.IsAudit) :
    AuditSound ac (AuditCall.step ac n timed) ∧
      (SparesAll n (AuditCall.step ac n timed) ∨
        ∃ block, Punishes ac timed.1 n (AuditCall.step ac n timed) block) := by
  obtain ⟨now, call⟩ := timed
  cases call with
  | block row => exact haudit.elim
  | services given => exact haudit.elim
  | scheduled currentHeight canonicalReplay =>
    exact Run.attempt_of (P := fun n' => AuditSound ac n' ∧
      (SparesAll n n' ∨ ∃ block, Punishes ac now n n' block)) ⟨h, .inl (.refl n)⟩
      fun _ => h.scheduled
  | manual auditId blockHeight sampleMultiplier =>
    exact Run.attempt_of (P := fun n' => AuditSound ac n' ∧
      (SparesAll n n' ∨ ∃ block, Punishes ac now n n' block)) ⟨h, .inl (.refl n)⟩
      fun _ => h.manual

/-- Every call keeps the invariant. -/
theorem auditSound_step {n : AuditingNode σ} (h : AuditSound ac n)
    (timed : Instant × AuditCall σ) (hfits : AuditCall.Fits n timed) :
    AuditSound ac (AuditCall.step ac n timed) := by
  obtain ⟨now, call⟩ := timed
  cases call with
  | scheduled currentHeight canonicalReplay =>
    exact (h.isAudit (now, .scheduled currentHeight canonicalReplay) trivial).1
  | manual auditId blockHeight sampleMultiplier =>
    exact (h.isAudit (now, .manual auditId blockHeight sampleMultiplier) trivial).1
  | services given => exact h.congr rfl rfl fun _ => Iff.rfl
  | block row =>
    -- a new block is unmarked, and no audit has its height
    obtain ⟨hunmarked, hheights⟩ := hfits
    exact {
      heights := by
        change ((n.state.blocks ++ [row]).map fun block => block.height).Nodup
        rw [List.map_append]
        refine List.nodup_append.mpr ⟨h.heights, List.nodup_singleton _, ?_⟩
        intro height hheight other hother heq
        obtain ⟨block, hblock, rfl⟩ := List.mem_map.mp hheight
        exact hheights block hblock (heq.trans (List.mem_singleton.mp hother))
      audited := by
        intro height hverified
        obtain ⟨block, hblock, hheight⟩ := h.audited height hverified
        exact ⟨block, List.mem_append_left _ hblock, hheight⟩
      marked := by
        intro block hblock
        rcases List.mem_append.mp hblock with hold | hnew
        · exact h.marked block hold
        · rw [List.mem_singleton.mp hnew, hunmarked]
          refine iff_of_false (by decide) fun hmark => ?_
          obtain ⟨other, hother, hheight⟩ := h.audited row.height hmark.1
          exact hheights other hother hheight
      once := h.once
      punished := by
        intro height
        refine (h.punished height).trans ⟨?_, ?_⟩
        · rintro ⟨block, hblock, hmark⟩
          exact ⟨block, List.mem_append_left _ hblock, hmark⟩
        · rintro ⟨block, hblock, hheight, hmark⟩
          rcases List.mem_append.mp hblock with hold | hnew
          · exact ⟨block, hold, hheight, hmark⟩
          · rw [List.mem_singleton.mp hnew, hunmarked] at hmark
            cases hmark }

/-! ## Runs -/

/-- A decimal block is true exactly if its hash is that of the digits of π. -/
theorem trueResult_decimal {block : MinedBlockRow}
    (halgorithm : block.algorithm = "machin_decimal_v1")
    (hstart : 1 ≤ block.rangeStart) (hend : block.rangeStart ≤ block.rangeEnd)
    (hclear : ClearOfCarry block.rangeEnd.toNat) :
    TrueResult ac block ↔ block.resultHash =
      hashResult ac.config (piDigits block.rangeStart block.rangeEnd) block.rangeStart
        block.rangeEnd block.algorithm := by
  have hsegment : auditedSegment ac block = .ok (piDigits block.rangeStart block.rangeEnd) := by
    unfold auditedSegment calculatePiSegment
    rw [halgorithm, if_neg (by decide), if_pos rfl, calculatePiDecimalDigits_eq hstart hend hclear]
  unfold TrueResult
  rw [hsegment]
  constructor
  · rintro ⟨segment, hsegment, hhash⟩
    cases hsegment
    exact hhash
  · exact fun hhash => ⟨_, rfl, hhash⟩

/-- Whatever audits a node runs, on whichever blocks and however often, in every state reached a
block is marked exactly if an audit has calculated its range and the hash of its result is not that
of the calculation, for decimal digits that of the digits of π; its participants have been punished
once then, and never else. An audit that runs next punishes for one false block, or for none. -/
theorem audits_punish_false_results {start : AuditingNode σ} (hstart : Unaudited start)
    (calls : List (Instant × AuditCall σ))
    (hrun : Run.EachStep (AuditCall.step ac) AuditCall.Fits start calls) :
    ∀ n ∈ Run.states (AuditCall.step ac) start calls,
      (∀ block ∈ n.state.blocks,
        (block.fraudulent = true ↔ Verified n.audits block.height ∧ ¬ TrueResult ac block) ∧
        n.punished.count block.height = (if block.fraudulent then 1 else 0) ∧
        (block.algorithm = "machin_decimal_v1" → 1 ≤ block.rangeStart →
          block.rangeStart ≤ block.rangeEnd → ClearOfCarry block.rangeEnd.toNat →
            (block.fraudulent = true ↔ Verified n.audits block.height ∧
              block.resultHash ≠ hashResult ac.config (piDigits block.rangeStart block.rangeEnd)
                block.rangeStart block.rangeEnd block.algorithm))) ∧
      ∀ timed : Instant × AuditCall σ, timed.2.IsAudit →
        SparesAll n (AuditCall.step ac n timed) ∨
          ∃ block, Punishes ac timed.1 n (AuditCall.step ac n timed) block := by
  intro n hn
  have hall : ∀ n ∈ Run.states (AuditCall.step ac) start calls, AuditSound ac n :=
    Run.invariant_of_eachStep (fun _ timed h => auditSound_step h timed) calls start hstart.sound
      hrun
  have hsound := hall n hn
  refine ⟨fun block hblock => ⟨hsound.marked block hblock, ?_,
    fun halgorithm hlow hhigh hclear => ?_⟩, fun timed haudit => (hsound.isAudit timed haudit).2⟩
  · have hpunished : block.height ∈ n.punished ↔ block.fraudulent = true := by
      rw [hsound.punished]
      refine ⟨?_, fun hmark => ⟨block, hblock, rfl, hmark⟩⟩
      rintro ⟨other, hother, hheight, hmark⟩
      rwa [← hsound.block_unique hblock hother hheight]
    split
    · next hmark => exact List.count_eq_one_of_mem hsound.once (hpunished.mpr hmark)
    · next hmark => exact List.count_eq_zero.mpr fun hmem => hmark (hpunished.mp hmem)
  · rw [hsound.marked block hblock, trueResult_decimal halgorithm hlow hhigh hclear]

def localAuditing : AuditConfig := { localPi with config := localConfig }

/-- A node without blocks. -/
def localAuditingNode : AuditingNode Unit :=
  ⟨⟨localVoting, [], .empty⟩, .empty, []⟩

/-- A block of five decimal digits with a hash that is none of a result. -/
def localFalseBlock : MinedBlockRow where
  height := 1
  previousHash := ""
  minerId := "miner-1"
  rangeStart := 1
  rangeEnd := 5
  algorithm := "machin_decimal_v1"
  resultHash := "false"
  merkleRoot := none
  samples := .arr []
  timestamp := "2026-05-10T00:00:00+00:00"
  reward := 0
  txMerkleRoot := ""
  txCount := 0
  txHashes := []
  feeReward := 0
  minerRewardAddress := none
  difficulty := 1
  taskId := "task-1"
  protocolParamsId := 1
  protocolVersion := ""
  validationMode := ""
  totalBlockMs := none
  blockHash := "block"
  validationMs := none
  fraudulent := false
  fraudReason := none
  fraudDetectedAt := none

/-- The false block is added, and then audited twice. -/
def localAudits : List (Instant × AuditCall Unit) :=
  [(1778371200000000, .block localFalseBlock), (1778371200000000, .manual "a" 1 2),
    (1778371200000000, .manual "b" 1 2)]

/-- The miner of the false block is punished once. -/
theorem audits_punish_false_block :
    let n := localAudits.foldl (AuditCall.step localAuditing) localAuditingNode
    n.punished = [1] ∧ ∀ block ∈ n.state.blocks,
      n.punished.count block.height = (if block.fraudulent then 1 else 0) := by
  intro n
  have hrun : Run.EachStep (AuditCall.step localAuditing) AuditCall.Fits localAuditingNode
      localAudits := ⟨⟨rfl, fun _ hblock => (nomatch hblock)⟩, trivial, trivial, trivial⟩
  have hstart : Unaudited localAuditingNode := ⟨rfl, rfl, rfl⟩
  have hsound := audits_punish_false_results hstart localAudits hrun n
    (Run.foldl_mem_states _ _ _)
  exact ⟨by decide +kernel, fun block hblock => (hsound.1 block hblock).2.1⟩

end Picoin
