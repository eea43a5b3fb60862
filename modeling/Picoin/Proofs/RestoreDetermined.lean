import Picoin.Proofs.SnapshotRestore

/-!
# What a restore leaves of the local state

Two nodes restore one document onto their own states. This module says when they end with the same
chain state.

* **`SameChainState`** — the tables that blocks read and write hold the same rows;
* **`KeptAlike`** — the two nodes agree on what the restore leaves in place: the governance row of
  the science reserve, and the tables whose deletion depends on the document;
* **`restore_determined_iff`** — the first holds after the restores exactly when the second holds
  before.
-/

namespace Picoin

open Outcome Sql

/-! ## States as sets of rows -/

/-- Two tables hold the same rows. -/
def SameRows {κ ρ : Type} [DecidableEq κ] (t t' : Table κ ρ) : Prop := ∀ k, t.find? k = t'.find? k

theorem SameRows.of_eq {κ ρ : Type} [DecidableEq κ] {t t' : Table κ ρ} (h : t = t') :
    SameRows t t' :=
  fun k => congrArg (fun table => table.find? k) h

/-- Inserting the same rows keeps what tells two tables apart. -/
theorem sameRows_insertAll?_iff {κ ρ : Type} [DecidableEq κ] {rows : List (κ × ρ)}
    {t₁ t₁' t₂ t₂' : Table κ ρ} (h₁ : t₁.insertAll? rows = some t₁')
    (h₂ : t₂.insertAll? rows = some t₂') : SameRows t₁' t₂' ↔ SameRows t₁ t₂ := by
  constructor
  · intro h k
    cases hrow : rows.lookup k with
    | none =>
      have hk := h k
      rwa [Table.find?_insertAll? h₁, Table.find?_insertAll? h₂, hrow, Option.or_none,
        Option.or_none] at hk
    | some x =>
      rw [Table.find?_eq_none_of_insertAll? h₁ hrow, Table.find?_eq_none_of_insertAll? h₂ hrow]
  · intro h k
    rw [Table.find?_insertAll? h₁, Table.find?_insertAll? h₂, h k]

/-- The tables of the chain state hold the same rows. -/
structure SameChainState (s s' : NodeState) : Prop where
  balances : SameRows s.ledger.balances s'.ledger.balances
  entries : s.ledger.entries = s'.ledger.entries
  accountNonces : SameRows s.accountNonces s'.accountNonces
  validators : SameRows s.validators s'.validators
  protocolParams : SameRows s.chain.protocolParams s'.chain.protocolParams
  retargetEvents : SameRows s.chain.retargetEvents s'.chain.retargetEvents
  rewards : SameRows s.chain.rewards s'.chain.rewards
  stakeAccounts : SameRows s.science.stakeAccounts s'.science.stakeAccounts
  jobs : SameRows s.science.jobs s'.science.jobs
  rewardReserve : SameRows s.science.rewardReserve s'.science.rewardReserve
  reserveGovernance : s.science.reserveGovernance = s'.science.reserveGovernance
  treasury : s.treasury.treasury = s'.treasury.treasury
  epochs : SameRows s.treasury.epochs s'.treasury.epochs
  claims : SameRows s.treasury.claims s'.treasury.claims

/-- The two states agree on what a restore of the document keeps. -/
structure KeptAlike (cfg : Config) (doc : SnapshotDocument) (s₁ s₂ : NodeState) : Prop where
  reserveGovernance : s₁.science.reserveGovernance = s₂.science.reserveGovernance
  validators : (doc.normalized cfg).validators = [] → SameRows s₁.validators s₂.validators
  protocolParams : (doc.normalized cfg).protocolParams = [] →
    SameRows s₁.chain.protocolParams s₂.chain.protocolParams
  retargetEvents : (doc.normalized cfg).protocolParams = [] →
    SameRows s₁.chain.retargetEvents s₂.chain.retargetEvents

/-! ## Tables that are cleared on a condition -/

theorem sameRows_clearIf_iff {κ ρ α : Type} [DecidableEq κ] {rows : List α} {t₁ t₂ : Table κ ρ} :
    SameRows (clearIf rows t₁) (clearIf rows t₂) ↔ (rows = [] → SameRows t₁ t₂) := by
  unfold clearIf
  split
  · next hempty => exact ⟨fun h _ => h, fun h => h hempty⟩
  · next hrows => exact ⟨fun _ h => absurd h hrows, fun _ _ => rfl⟩

/-- Restored validators hide what was there before, if there are any. -/
theorem sameRows_validators_iff (timestamp : String) (rows : List (String × SnapshotValidator))
    (t₁ t₂ : Table String ValidatorRow) :
    SameRows
        (rows.foldl (fun t r => t.upsert r.1 (restoreSnapshotValidator timestamp r.2))
          (clearIf rows t₁))
        (rows.foldl (fun t r => t.upsert r.1 (restoreSnapshotValidator timestamp r.2))
          (clearIf rows t₂)) ↔
      (rows = [] → SameRows t₁ t₂) := by
  cases rows with
  | nil => exact ⟨fun h _ => h, fun h => h rfl⟩
  | cons r rest => exact ⟨fun _ h => absurd h (List.cons_ne_nil _ _), fun _ _ => rfl⟩

/-! ## Two restores -/

/-- The governance row of the reserve is not restored. -/
theorem restored_reserveGovernance {cfg : Config} {timestamp : String} {s s' : NodeState}
    {doc : SnapshotDocument}
    (h : applyImportedSnapshotState cfg timestamp s doc true = .ok s') :
    s'.science.reserveGovernance = s.science.reserveGovernance := by
  obtain ⟨-, rows, -, hrestore⟩ := applyImportedSnapshotState_eq_ok h
  rw [if_pos rfl] at hrestore
  rw [(restoreRows_eq_ok hrestore).science]
  rfl

/-- Two nodes that restored one document have the same chain state exactly when they agreed before
on what the restore keeps. -/
theorem restore_determined_iff (cfg : Config) (timestamp : String) (doc : SnapshotDocument)
    (s₁ s₂ s₁' s₂' : NodeState)
    (h₁ : applyImportedSnapshotState cfg timestamp s₁ doc true = .ok s₁')
    (h₂ : applyImportedSnapshotState cfg timestamp s₂ doc true = .ok s₂') :
    SameChainState s₁' s₂' ↔ KeptAlike cfg doc s₁ s₂ := by
  obtain ⟨-, rows, hrows, hrestore₁⟩ := applyImportedSnapshotState_eq_ok h₁
  obtain ⟨-, rows₂, hrows₂, hrestore₂⟩ := applyImportedSnapshotState_eq_ok h₂
  have hsame : rows₂ = rows := Except.ok.inj (hrows₂.symm.trans hrows)
  rw [hsame] at hrestore₂
  obtain ⟨-, -, hvalidators, hparams⟩ := restoredRows_eq_ok hrows
  have tables₁ := restoreRows_eq_ok hrestore₁
  have tables₂ := restoreRows_eq_ok hrestore₂
  rw [if_pos rfl] at tables₁ tables₂
  have hkeptValidators : SameRows s₁'.validators s₂'.validators ↔
      (rows.validators = [] → SameRows s₁.validators s₂.validators) := by
    rw [tables₁.validators, tables₂.validators]
    exact sameRows_validators_iff ..
  have hkeptParams : SameRows s₁'.chain.protocolParams s₂'.chain.protocolParams ↔
      (rows.protocolParams = [] → SameRows s₁.chain.protocolParams s₂.chain.protocolParams) :=
    (sameRows_insertAll?_iff tables₁.protocolParams tables₂.protocolParams).trans
      sameRows_clearIf_iff
  have hkeptEvents : SameRows s₁'.chain.retargetEvents s₂'.chain.retargetEvents ↔
      (rows.protocolParams = [] → SameRows s₁.chain.retargetEvents s₂.chain.retargetEvents) :=
    (sameRows_insertAll?_iff tables₁.retargetEvents tables₂.retargetEvents).trans
      sameRows_clearIf_iff
  have hgovernance₁ := restored_reserveGovernance h₁
  have hgovernance₂ := restored_reserveGovernance h₂
  rw [hvalidators] at hkeptValidators
  rw [hparams] at hkeptParams hkeptEvents
  constructor
  · intro h
    exact
      { reserveGovernance := hgovernance₁.symm.trans (h.reserveGovernance.trans hgovernance₂)
        validators := hkeptValidators.mp h.validators
        protocolParams := hkeptParams.mp h.protocolParams
        retargetEvents := hkeptEvents.mp h.retargetEvents }
  · intro h
    -- everything else comes from the document or is emptied
    have hscience : s₁'.science = { s₁.science with
        stakeAccounts := .empty, jobs := .empty, rewardReserve := .empty } := tables₁.science
    have hscience₂ : s₂'.science = { s₂.science with
        stakeAccounts := .empty, jobs := .empty, rewardReserve := .empty } := tables₂.science
    have htreasury : s₁'.treasury = s₂'.treasury := tables₁.treasury.trans tables₂.treasury.symm
    exact
      { balances := .of_eq (Option.some.inj (tables₁.balances.symm.trans tables₂.balances))
        entries := tables₁.entries.trans tables₂.entries.symm
        accountNonces :=
          .of_eq (Option.some.inj (tables₁.accountNonces.symm.trans tables₂.accountNonces))
        validators := hkeptValidators.mpr h.validators
        protocolParams := hkeptParams.mpr h.protocolParams
        retargetEvents := hkeptEvents.mpr h.retargetEvents
        rewards := .of_eq (Option.some.inj (tables₁.rewards.symm.trans tables₂.rewards))
        stakeAccounts := .of_eq (by rw [hscience, hscience₂])
        jobs := .of_eq (by rw [hscience, hscience₂])
        rewardReserve := .of_eq (by rw [hscience, hscience₂])
        reserveGovernance := hgovernance₁.trans (h.reserveGovernance.trans hgovernance₂.symm)
        treasury := congrArg TreasuryTables.treasury htreasury
        epochs := .of_eq (congrArg TreasuryTables.epochs htreasury)
        claims := .of_eq (congrArg TreasuryTables.claims htreasury) }

/-! ## Two nodes -/

/-- A node without blocks whose science reserve is active. -/
def activatedNode : NodeState :=
  { localNode [] with
    science := { (localNode []).science with
      reserveGovernance := { (localNode []).science.reserveGovernance with
        status := .l2Active
        payoutsEnabled := true } } }

/-- A node with a wallet and a node without end alike. -/
theorem wallet_replaced :
    ∃ s₁' s₂', restoreLocal (localNode []) oneTypeDocument = .ok s₁' ∧
      restoreLocal (localNode [(aliceAddress, 5)]) oneTypeDocument = .ok s₂' ∧
      SameChainState s₁' s₂' := by
  obtain ⟨s₁', h₁⟩ := oneTypeDocument_returns (localNode [])
  obtain ⟨s₂', h₂⟩ := oneTypeDocument_returns (localNode [(aliceAddress, 5)])
  have hdetermined := restore_determined_iff plainTextConfig "2026-05-10T00:00:00+00:00"
    oneTypeDocument (localNode []) (localNode [(aliceAddress, 5)]) s₁' s₂' h₁ h₂
  exact ⟨s₁', s₂', h₁, h₂, hdetermined.mpr ⟨rfl, fun _ _ => rfl, fun _ _ => rfl, fun _ _ => rfl⟩⟩

/-- An active reserve stays active, so the two nodes do not end alike. -/
theorem activated_reserve_kept :
    ∃ s₁' s₂', restoreLocal (localNode []) oneTypeDocument = .ok s₁' ∧
      restoreLocal activatedNode oneTypeDocument = .ok s₂' ∧ ¬SameChainState s₁' s₂' := by
  obtain ⟨s₁', h₁⟩ := oneTypeDocument_returns (localNode [])
  obtain ⟨s₂', h₂⟩ := oneTypeDocument_returns activatedNode
  refine ⟨s₁', s₂', h₁, h₂, fun hsame => ?_⟩
  have hgovernance : (localNode []).science.reserveGovernance =
      activatedNode.science.reserveGovernance :=
    (restored_reserveGovernance h₁).symm.trans
      (hsame.reserveGovernance.trans (restored_reserveGovernance h₂))
  exact absurd (congrArg GovernanceRow.payoutsEnabled hgovernance) (by decide)

end Picoin
