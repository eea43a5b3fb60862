import Picoin.Lib.Run
import Picoin.Services.LocalNode

/-!
# The governance of the science reserve

Payouts of the reserve are enabled by a proposal, a second approval, a day's delay and an
activation. A pause switches them off, and its end switches them on again if there has been an
activation.

* **`GovernanceHistory`** — the governance row together with what has happened to it;
* **`GovernanceCall.effect`** — what a call that returns has done, one line for each call;
* **`governance_safety`** — an activation has had two signers and the delay, in every run.
-/

namespace Picoin

open Outcome Run

/-! ## Calls and what they do -/

/-- A call of the governance operations. -/
inductive GovernanceCall where
  | propose (signer : String)
  | approve (signer : String)
  | execute
  | pause (signer : String)
  | unpause (signer : String)
deriving DecidableEq

/-- The operation of a call at an instant. -/
def GovernanceCall.run (cfg : Config) (row : GovernanceRow) (now : Instant) :
    GovernanceCall → Except ExecError GovernanceRow
  | .propose signer => proposeScienceReserveActivation cfg row signer now
  | .approve signer => approveScienceReserveActivation cfg row signer
  | .execute => executeScienceReserveActivation row now
  | .pause signer => pauseScienceReserve cfg row signer
  | .unpause signer => unpauseScienceReserve cfg row signer

/-- Something that has happened to the reserve. -/
inductive GovernanceEvent where
  | proposed (signer : String)
  | approved (signer : String)
  | activated
  | paused
  | unpaused
deriving DecidableEq

/-- The events of a call that returns; activating an active reserve is none. -/
def GovernanceCall.events (row : GovernanceRow) : GovernanceCall → List GovernanceEvent
  | .propose signer => [.proposed (strip signer)]
  | .approve signer => [.approved (strip signer)]
  | .execute => if row.status = .l2Active then [] else [.activated]
  | .pause _ => [.paused]
  | .unpause _ => [.unpaused]

/-- The governance row and the events so far, the latest first. -/
structure GovernanceHistory where
  row : GovernanceRow
  events : List (Instant × GovernanceEvent)

/-- One call; a call that raises changes nothing. -/
def GovernanceHistory.step (cfg : Config) (h : GovernanceHistory) (call : Instant × GovernanceCall) :
    GovernanceHistory :=
  attempt ((call.2.run cfg h.row call.1).map fun row =>
    ⟨row, (call.2.events h.row).map (fun e => (call.1, e)) ++ h.events⟩) h

/-- The locked reserve. -/
def lockedHistory (cfg : Config) : GovernanceHistory := ⟨lockedGovernanceRow cfg, []⟩

/-! ## What a run shows -/

/-- The latest activation and the events before it. -/
def lastActivation : List (Instant × GovernanceEvent) →
    Option (Instant × List (Instant × GovernanceEvent))
  | [] => none
  | (t, .activated) :: before => some (t, before)
  | _ :: before => lastActivation before

/-- The instant of the latest proposal. -/
def lastProposal : List (Instant × GovernanceEvent) → Option Instant
  | [] => none
  | (t, .proposed _) :: _ => some t
  | _ :: before => lastProposal before

/-- The signer has proposed or approved. -/
def Supported (events : List (Instant × GovernanceEvent)) (signer : String) : Prop :=
  ∃ t, (t, .proposed signer) ∈ events ∨ (t, .approved signer) ∈ events

/-- The timelock. -/
def timelock : ℤ := seconds scienceReserveGovernanceTimelockSeconds

/-- Two signers have supported an activation, and the delay since the latest proposal is over. -/
structure QuorumAndDelay (authorized : String → Prop) (before : List (Instant × GovernanceEvent))
    (activatedAt : Instant) : Prop where
  quorum : ∃ a b, a ≠ b ∧ authorized a ∧ authorized b ∧ Supported before a ∧ Supported before b
  delay : ∃ proposedAt, lastProposal before = some proposedAt ∧ proposedAt + timelock ≤ activatedAt

/-- Payouts are only enabled on an active reserve, and its activation had quorum and delay. -/
structure GovernanceSafe (authorized : String → Prop) (h : GovernanceHistory) : Prop where
  payouts : h.row.payoutsEnabled = true →
    h.row.status = .l2Active ∧ h.row.emergencyPaused = false ∧ h.row.activatedAt ≠ none
  activation : ∀ t, h.row.activatedAt = some t →
    ∃ before, lastActivation h.events = some (t, before) ∧ QuorumAndDelay authorized before t

/-! ## Effects of the calls -/

theorem scienceCleanAddress_eq_ok {address value : String}
    (h : scienceCleanAddress address = .ok value) : value = strip address := by
  unfold scienceCleanAddress at h
  dsimp only at h
  repeat' (split at h; · cases h)
  cases h
  rfl

/-- A signer is authorized if it is listed, and anyone is when nobody is listed. -/
def IsAuthorized (authorized : List String) (signer : String) : Prop :=
  authorized ≠ [] → signer ∈ authorized

theorem requireAuthorizedSigner_eq_ok {cfg : Config} {row : GovernanceRow} {signer : String}
    {u : Unit} (h : requireAuthorizedSigner cfg row signer = .ok u) :
    IsAuthorized (authorizedSigners cfg row) signer := by
  unfold requireAuthorizedSigner at h
  dsimp only at h
  split at h
  · cases h
  · next hnot =>
    intro hne
    by_contra hmem
    exact hnot ⟨hne, hmem⟩

/-- What a returning call has done to the row. -/
def GovernanceCall.effect (cfg : Config) (row : GovernanceRow) (now : Instant)
    (row' : GovernanceRow) : GovernanceCall → Prop
  | .propose signer =>
    IsAuthorized (authorizedSigners cfg row) (strip signer) ∧
      row' = { row with
        status := .l2Pending
        activationRequestedAt := some now
        activationAvailableAt := some (now + timelock)
        approvals := addApproval row.approvals (strip signer)
        payoutsEnabled := false }
  | .approve signer =>
    IsAuthorized (authorizedSigners cfg row) (strip signer) ∧
      row' = { row with approvals := addApproval row.approvals (strip signer) }
  | .execute =>
    (row.status = .l2Active ∧ row' = row) ∨
      (row.status ≠ .l2Active ∧ 2 ≤ row.approvals.length ∧
        (∃ availableAt, row.activationAvailableAt = some availableAt ∧ availableAt ≤ now) ∧
        row' = { row with
          status := .l2Active
          activatedAt := some now
          payoutsEnabled := true
          emergencyPaused := false })
  | .pause _ =>
    row' = { row with status := .emergencyPaused, emergencyPaused := true, payoutsEnabled := false }
  | .unpause _ =>
    row' = { row with
      status := if row.activatedAt = none then .reserveLocked else .l2Active
      emergencyPaused := false
      payoutsEnabled := row.activatedAt.isSome }

theorem GovernanceCall.effect_of_run {cfg : Config} {row row' : GovernanceRow} {now : Instant}
    {call : GovernanceCall} (h : call.run cfg row now = .ok row') :
    call.effect cfg row now row' := by
  cases call with
  | propose signer =>
    simp only [GovernanceCall.run, proposeScienceReserveActivation] at h
    obtain ⟨value, hvalue, hrest⟩ := bind_eq_ok.mp h
    split at hrest
    · cases hrest
    · obtain ⟨_, hauth, hrow⟩ := bind_eq_ok.mp hrest
      rw [scienceCleanAddress_eq_ok hvalue] at hauth hrow
      exact ⟨requireAuthorizedSigner_eq_ok hauth, (pure_eq_ok.mp hrow).symm⟩
  | approve signer =>
    simp only [GovernanceCall.run, approveScienceReserveActivation] at h
    obtain ⟨value, hvalue, hrest⟩ := bind_eq_ok.mp h
    split at hrest
    · cases hrest
    · split at hrest
      · cases hrest
      · obtain ⟨_, hauth, hrow⟩ := bind_eq_ok.mp hrest
        rw [scienceCleanAddress_eq_ok hvalue] at hauth hrow
        exact ⟨requireAuthorizedSigner_eq_ok hauth, (pure_eq_ok.mp hrow).symm⟩
  -- an active reserve is left alone; else approvals and delay are there
  | execute =>
    simp only [GovernanceCall.run, executeScienceReserveActivation] at h
    split at h
    · next hactive => cases h; exact .inl ⟨hactive, rfl⟩
    · next hactive =>
      cases havailable : row.activationAvailableAt with
      | none => rw [havailable] at h; cases h
      | some availableAt =>
        rw [havailable] at h
        dsimp only at h
        split at h
        · cases h
        · next happrovals =>
          split at h
          · cases h
          · next hdue =>
            cases h
            refine .inr ⟨hactive, not_lt.mp happrovals, ⟨availableAt, havailable, not_lt.mp hdue⟩, ?_⟩
            rw [havailable]
  | pause signer =>
    simp only [GovernanceCall.run, pauseScienceReserve] at h
    obtain ⟨value, -, hrest⟩ := bind_eq_ok.mp h
    obtain ⟨_, -, hrow⟩ := bind_eq_ok.mp hrest
    exact (pure_eq_ok.mp hrow).symm
  | unpause signer =>
    simp only [GovernanceCall.run, unpauseScienceReserve] at h
    obtain ⟨value, -, hrest⟩ := bind_eq_ok.mp h
    obtain ⟨_, -, hrow⟩ := bind_eq_ok.mp hrest
    exact (pure_eq_ok.mp hrow).symm

/-! ## The invariant -/

theorem Supported.cons {events : List (Instant × GovernanceEvent)} {signer : String}
    (h : Supported events signer) (e : Instant × GovernanceEvent) : Supported (e :: events) signer := by
  obtain ⟨t, ht⟩ := h
  exact ⟨t, ht.imp (List.mem_cons_of_mem _) (List.mem_cons_of_mem _)⟩

theorem mem_addApproval {approvals : List String} {signer a : String}
    (h : a ∈ addApproval approvals signer) : a = signer ∨ a ∈ approvals := by
  unfold addApproval at h
  split at h
  · exact .inr h
  · rcases List.mem_append.mp h with hold | hnew
    · exact .inr hold
    · exact .inl (List.mem_singleton.mp hnew)

theorem nodup_addApproval {approvals : List String} (h : approvals.Nodup) (signer : String) :
    (addApproval approvals signer).Nodup := by
  unfold addApproval
  split
  · exact h
  · next hnot =>
    refine List.nodup_append.mpr ⟨h, List.nodup_singleton _, ?_⟩
    intro a ha b hb
    rw [List.mem_singleton.mp hb]
    rintro rfl
    exact hnot ha

/-- Two approvals without repetition are of two signers. -/
theorem exists_two_of_nodup {approvals : List String} (hnodup : approvals.Nodup)
    (hlength : 2 ≤ approvals.length) : ∃ a ∈ approvals, ∃ b ∈ approvals, a ≠ b := by
  match approvals, hnodup, hlength with
  | a :: b :: rest, hnodup, _ =>
    refine ⟨a, List.mem_cons_self, b, by simp, ?_⟩
    rintro rfl
    exact (List.nodup_cons.mp hnodup).1 List.mem_cons_self

/-- What holds of the row and its events in every state of a run. -/
structure GovernanceInvariant (cfg : Config) (h : GovernanceHistory) : Prop where
  signers : h.row.authorizedSigners = cfg.scienceReserveAuthorizedSigners
  nodup : h.row.approvals.Nodup
  approvals : ∀ a ∈ h.row.approvals,
    IsAuthorized cfg.scienceReserveAuthorizedSigners a ∧ Supported h.events a
  available : h.row.activationAvailableAt = (lastProposal h.events).map (· + timelock)
  safe : GovernanceSafe (IsAuthorized cfg.scienceReserveAuthorizedSigners) h

theorem GovernanceInvariant.locked (cfg : Config) : GovernanceInvariant cfg (lockedHistory cfg) where
  signers := rfl
  nodup := List.nodup_nil
  approvals _ ha := nomatch ha
  available := rfl
  safe := ⟨fun h => (nomatch h), fun _ h => (nomatch h)⟩

theorem GovernanceInvariant.authorized {cfg : Config} {h : GovernanceHistory}
    (hinv : GovernanceInvariant cfg h) :
    authorizedSigners cfg h.row = cfg.scienceReserveAuthorizedSigners := by
  unfold authorizedSigners
  rw [hinv.signers, ite_self]

/-- The approvals after a signer has proposed or approved. -/
theorem GovernanceInvariant.addApproval {cfg : Config} {h : GovernanceHistory}
    (hinv : GovernanceInvariant cfg h) {signer : String}
    (hauth : IsAuthorized (authorizedSigners cfg h.row) signer) {e : Instant × GovernanceEvent}
    (he : e.2 = .proposed signer ∨ e.2 = .approved signer) :
    ∀ a ∈ Picoin.addApproval h.row.approvals signer,
      IsAuthorized cfg.scienceReserveAuthorizedSigners a ∧ Supported (e :: h.events) a := by
  intro a ha
  rw [hinv.authorized] at hauth
  rcases mem_addApproval ha with rfl | hold
  · refine ⟨hauth, e.1, ?_⟩
    rcases he with he | he
    · exact .inl (he ▸ List.mem_cons_self)
    · exact .inr (he ▸ List.mem_cons_self)
  · exact ⟨(hinv.approvals a hold).1, (hinv.approvals a hold).2.cons e⟩

/-- Events other than activations do not change what the latest activation had. -/
theorem GovernanceInvariant.activation_cons {cfg : Config} {h : GovernanceHistory}
    (hinv : GovernanceInvariant cfg h) {e : Instant × GovernanceEvent} (he : e.2 ≠ .activated)
    {t : Instant} (ht : h.row.activatedAt = some t) :
    ∃ before, lastActivation (e :: h.events) = some (t, before) ∧
      QuorumAndDelay (IsAuthorized cfg.scienceReserveAuthorizedSigners) before t := by
  obtain ⟨before, hlast, hquorum⟩ := hinv.safe.activation t ht
  refine ⟨before, ?_, hquorum⟩
  obtain ⟨at', event⟩ := e
  cases event with
  | activated => exact absurd rfl he
  | _ => exact hlast

theorem GovernanceInvariant.step {cfg : Config} {h : GovernanceHistory}
    (hinv : GovernanceInvariant cfg h) (call : Instant × GovernanceCall) :
    GovernanceInvariant cfg (h.step cfg call) := by
  refine attempt_of hinv fun h' hstep => ?_
  obtain ⟨now, call⟩ := call
  obtain ⟨row, hrun, rfl⟩ := map_eq_ok.mp hstep
  have heffect := GovernanceCall.effect_of_run hrun
  cases call with
  | propose signer =>
    obtain ⟨hauth, rfl⟩ := heffect
    exact {
      signers := hinv.signers
      nodup := nodup_addApproval hinv.nodup _
      approvals := hinv.addApproval hauth (.inl rfl)
      available := rfl
      safe := ⟨fun hpay => (nomatch hpay),
        fun _ ht => hinv.activation_cons (e := (now, .proposed _)) (by simp) ht⟩ }
  | approve signer =>
    obtain ⟨hauth, rfl⟩ := heffect
    exact {
      signers := hinv.signers
      nodup := nodup_addApproval hinv.nodup _
      approvals := hinv.addApproval hauth (.inr rfl)
      available := hinv.available
      safe := ⟨hinv.safe.payouts,
        fun _ ht => hinv.activation_cons (e := (now, .approved _)) (by simp) ht⟩ }
  | execute =>
    rcases heffect with ⟨hactive, rfl⟩ | ⟨hactive, happrovals, ⟨availableAt, havailable, hdue⟩, rfl⟩
    · -- the reserve is active already
      have hevents : GovernanceCall.events h.row .execute = [] := if_pos hactive
      rw [hevents]
      exact hinv
    · have hevents : GovernanceCall.events h.row .execute = [.activated] := if_neg hactive
      rw [hevents]
      obtain ⟨a, ha, b, hb, hne⟩ := exists_two_of_nodup hinv.nodup happrovals
      have hproposal := hinv.available
      rw [havailable, eq_comm, Option.map_eq_some_iff] at hproposal
      obtain ⟨proposedAt, hlast, hsum⟩ := hproposal
      refine {
        signers := hinv.signers
        nodup := hinv.nodup
        approvals := fun a ha => ⟨(hinv.approvals a ha).1, (hinv.approvals a ha).2.cons _⟩
        available := hinv.available
        safe := ⟨fun _ => ⟨rfl, rfl, by simp⟩, fun t ht => ?_⟩ }
      cases ht
      exact ⟨h.events, rfl, ⟨a, b, hne, (hinv.approvals a ha).1, (hinv.approvals b hb).1,
        (hinv.approvals a ha).2, (hinv.approvals b hb).2⟩, proposedAt, hlast, hsum.symm ▸ hdue⟩
  | pause signer =>
    obtain rfl := heffect
    exact {
      signers := hinv.signers
      nodup := hinv.nodup
      approvals := fun a ha => ⟨(hinv.approvals a ha).1, (hinv.approvals a ha).2.cons _⟩
      available := hinv.available
      safe := ⟨fun hpay => (nomatch hpay),
        fun _ ht => hinv.activation_cons (e := (now, .paused)) (by simp) ht⟩ }
  | unpause signer =>
    obtain rfl := heffect
    refine {
      signers := hinv.signers
      nodup := hinv.nodup
      approvals := fun a ha => ⟨(hinv.approvals a ha).1, (hinv.approvals a ha).2.cons _⟩
      available := hinv.available
      safe := ⟨fun hpay => ?_,
        fun _ ht => hinv.activation_cons (e := (now, .unpaused)) (by simp) ht⟩ }
    -- the payouts come back on only after an activation
    have hactivated : h.row.activatedAt ≠ none := Option.isSome_iff_ne_none.mp hpay
    exact ⟨if_neg hactivated, rfl, hactivated⟩

/-! ## Runs -/

/-- **Governance safety.** After any calls by any signers at any times, payouts are enabled only on
an active reserve, and the latest activation had two supporters and the delay. The supporters are
on the list of signers if there is one. -/
theorem governance_safety (cfg : Config) (calls : List (Instant × GovernanceCall)) :
    GovernanceSafe (IsAuthorized (authorizedSigners cfg (lockedGovernanceRow cfg)))
      (calls.foldl (GovernanceHistory.step cfg) (lockedHistory cfg)) := by
  have hlist : authorizedSigners cfg (lockedGovernanceRow cfg) =
      cfg.scienceReserveAuthorizedSigners := (GovernanceInvariant.locked cfg).authorized
  rw [hlist]
  have hinv := calls.foldlRecOn (GovernanceHistory.step cfg) (GovernanceInvariant.locked cfg)
    fun _ hinv call _ => hinv.step call
  exact hinv.safe

/-- A deployment without a list of signers. -/
def openConfig : Config := { localConfig with scienceReserveAuthorizedSigners := [] }

/-- Two strangers activate the reserve. -/
def strangersActivate : List (Instant × GovernanceCall) :=
  [(0, .propose "stranger-1"), (0, .approve "stranger-2"), (timelock, .execute)]

/-- Without a list of signers the reserve is activated by signers that no list has. -/
theorem strangers_activate_open_reserve :
    ¬GovernanceSafe (· ∈ authorizedSigners openConfig (lockedGovernanceRow openConfig))
      (strangersActivate.foldl (GovernanceHistory.step openConfig) (lockedHistory openConfig)) := by
  intro hsafe
  have hactivated : (strangersActivate.foldl (GovernanceHistory.step openConfig)
      (lockedHistory openConfig)).row.activatedAt = some timelock := by decide +kernel
  obtain ⟨_, -, ⟨a, _, -, ha, -⟩, -⟩ := hsafe.activation _ hactivated
  exact nomatch ha

end Picoin
