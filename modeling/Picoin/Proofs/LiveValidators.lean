import Picoin.Services.Heartbeats
import Picoin.Services.LocalNode

/-!
# The validators that may vote

Heartbeats arrive from validators and by gossip, in any order and again and again, while rows are
inserted, switched, penalized and pruned. A public key has one vote all the same, as long as the
operator does not switch a second row of it on:

* **`RowChange`** — what a call can do to a row;
* **`LivenessInv`** — enabled rows with a heartbeat have keys of their own, and every heartbeat and
  every status comes from a call;
* **`live_validators_vouched`** — every run, for the validators of a quorum and of a block's votes;
* **`registered_key_silences`** — the price of it: whoever registers the key of a validator takes
  its vote away.
-/

namespace Picoin

open Run

variable {lc : LivenessConfig} {n n' : LivenessNode}

/-! ## Who may vote -/

/-- The row is one of `_eligible_validator_rows`, or a vote on a block is not refused for it. -/
def LivenessRow.mayVote (lc : LivenessConfig) (now : Instant) (row : LivenessRow) : Prop :=
  row.eligible lc now = true ∨ (row.toConsensus lc).refusal lc.toConfig = none

/-- One status has the text `online`. -/
theorem OnlineStatus.text_eq_online {status : OnlineStatus} (h : status.text = "online") :
    status = .online := by
  cases status with
  | online => rfl
  | offline | stale | duplicatedIdentity => revert h; decide

/-- A validator that may vote is enabled and online. -/
theorem LivenessRow.mayVote_live {now : Instant} {row : LivenessRow} (h : row.mayVote lc now) :
    row.enabled = true ∧ row.onlineStatus = .online := by
  rcases h with h | h
  · simp only [LivenessRow.eligible, Bool.and_eq_true, decide_eq_true_eq] at h
    exact ⟨by tauto, by tauto⟩
  · by_cases henabled : row.enabled = true
    · refine ⟨henabled, OnlineStatus.text_eq_online (Decidable.byContradiction fun honline => ?_)⟩
      by_cases hbanned : row.isBanned = true
      · simp [ConsensusValidatorRow.refusal, LivenessRow.toConsensus, hbanned] at h
      · simp [ConsensusValidatorRow.refusal, LivenessRow.toConsensus, hbanned, henabled,
          honline] at h
    · by_cases hbanned : row.isBanned = true <;>
        simp [ConsensusValidatorRow.refusal, LivenessRow.toConsensus, hbanned, henabled] at h

/-! ## What a call does to a row -/

/-- The call is a signed heartbeat of the validator under the key, for the time, which is not in
the future by more than the tolerance. -/
def LivenessCall.Vouches (lc : LivenessConfig) (validatorId publicKey : String)
    (heartbeatAt : Timestamp) : LivenessCall → Prop
  | .heartbeat now _ _ observedAt r =>
    r.signed lc = true ∧ clean r.validatorId = validatorId ∧ textOr r.publicKey "" = publicKey ∧
      validatorHeartbeatTime lc now observedAt r = .ok heartbeatAt ∧
      heartbeatAt.instant ≤ now + seconds validatorHeartbeatFutureSkewSeconds
  | _ => False

/-- The call looks at the age of a heartbeat, and finds it recent. -/
def LivenessCall.Recent (lc : LivenessConfig) (heartbeatAt : Timestamp) : LivenessCall → Prop
  | .heartbeat now .. | .refresh now =>
    now - heartbeatAt.instant ≤ seconds lc.participantOnlineSeconds
  | _ => False

/-- What a call can do to a row: it keeps its key and its heartbeat, it inserts the row without a
heartbeat, or it is a heartbeat of the validator. Only the operator switches a row on that exists,
and an enabled row with a new heartbeat has a key that no other row had. -/
inductive RowChange (lc : LivenessConfig) (n : LivenessNode) (call : LivenessCall)
    (validatorId : String) (row : LivenessRow) : Prop
  | kept (old : LivenessRow) (hold : n.validators.find? validatorId = some old)
      (hkey : row.publicKey = old.publicKey)
      (hbeat : row.lastHeartbeatAt = old.lastHeartbeatAt)
      (henabled : row.enabled = true →
        old.enabled = true ∨ call = .setEnabled validatorId true)
      (honline : row.onlineStatus = .online → old.onlineStatus = .online ∨
        ∃ t, row.lastHeartbeatAt = some t ∧ call.Recent lc t)
  | unheard (hnew : n.validators.find? validatorId = none) (hbeat : row.lastHeartbeatAt = none)
      (honline : row.onlineStatus ≠ .online)
  | heard (t : Timestamp) (hbeat : row.lastHeartbeatAt = some t)
      (hvouches : call.Vouches lc validatorId row.publicKey t)
      (henabled : ∀ old, n.validators.find? validatorId = some old → row.enabled = true →
        old.enabled = true)
      (halone : row.enabled = true → ∀ other old, n.validators.find? other = some old →
        other ≠ validatorId → old.publicKey ≠ row.publicKey)
      (honline : row.onlineStatus = .online → call.Recent lc t)

/-- A row that was there may stay. -/
theorem RowChange.refl {call : LivenessCall} {validatorId : String} {row : LivenessRow}
    (h : n.validators.find? validatorId = some row) : RowChange lc n call validatorId row :=
  .kept row h rfl rfl .inl .inl

/-! ### Heartbeats -/

/-- The time of a heartbeat is at most the allowed skew in the future. -/
theorem validatorHeartbeatTime_le {now : Instant} {observedAt : Option String}
    {r : HeartbeatRequest} {t : Timestamp}
    (h : validatorHeartbeatTime lc now observedAt r = .ok t) :
    t.instant ≤ now + seconds validatorHeartbeatFutureSkewSeconds := by
  simp only [validatorHeartbeatTime] at h
  split at h
  · cases h
  · next hle =>
    cases h
    exact not_lt.mp hle

/-- A heartbeat that passes vouches for the key it is signed with. -/
theorem checkHeartbeat_vouches (clientHost sourcePeer : Option String) {now : Instant} {height : ℤ}
    {observedAt : Option String} {r : HeartbeatRequest} {h : Heartbeat}
    (hcheck : checkHeartbeat lc now height observedAt r = .ok h) :
    (LivenessCall.heartbeat now clientHost sourcePeer observedAt r).Vouches lc h.validatorId
      h.publicKey h.heartbeatAt := by
  simp only [checkHeartbeat] at hcheck
  split at hcheck
  · cases hcheck
  · next hsigned =>
    split at hcheck
    · cases hcheck
    · split at hcheck
      · cases hcheck
      · cases ht : validatorHeartbeatTime lc now observedAt r with
        | error e => rw [ht] at hcheck; cases hcheck
        | ok t =>
          rw [ht] at hcheck
          cases hcheck
          exact ⟨by simpa using hsigned, rfl, rfl, ht, validatorHeartbeatTime_le ht⟩

/-- Who is online has sent a recent heartbeat. -/
theorem statusFromHeartbeat_recent {now : Instant} {value : Option Timestamp}
    (h : statusFromHeartbeat lc now value = .online) :
    ∃ t, value = some t ∧ now - t.instant ≤ seconds lc.participantOnlineSeconds := by
  cases value with
  | none => cases h
  | some t =>
    simp only [statusFromHeartbeat] at h
    split at h
    · next hrecent => exact ⟨t, rfl, hrecent⟩
    · split at h <;> cases h

/-- Without a duplicate no other enabled validator with a heartbeat has the key. -/
theorem publicKey_ne_of_hasDuplicate {validators : Sql.Table String LivenessRow} {h : Heartbeat}
    (hdup : hasDuplicate validators h = false) {other : String} {old : LivenessRow}
    (hold : validators.find? other = some old) (hne : other ≠ h.validatorId) :
    old.publicKey ≠ h.publicKey := by
  intro hkey
  have hmem := Sql.Table.find?_eq_some_iff.mp hold
  have := List.any_eq_false.mp hdup _ hmem
  simp [hkey, hne] at this

/-- An accepted heartbeat writes the row of its validator. -/
theorem recordValidatorHeartbeat_validators {now : Instant}
    {clientHost sourcePeer observedAt : Option String} {r : HeartbeatRequest}
    (hn : recordValidatorHeartbeat lc now clientHost sourcePeer observedAt r n = .ok n') :
    ∃ h row, (LivenessCall.heartbeat now clientHost sourcePeer observedAt r).Vouches lc
        h.validatorId h.publicKey h.heartbeatAt ∧
      (row = if hasDuplicate n.validators h then
          h.duplicate now clientHost (n.validators.find? h.validatorId)
        else h.heard lc now clientHost (n.validators.find? h.validatorId)) ∧
      n'.validators = n.validators.upsert h.validatorId
        { row with reasonIfNotEligible := validatorReasonIfNotEligible lc now row } := by
  unfold recordValidatorHeartbeat at hn
  cases hcheck : checkHeartbeat lc now n.latestBlockHeight observedAt r with
  | error e => rw [hcheck] at hn; cases hn
  | ok h =>
    rw [hcheck] at hn
    cases hn
    exact ⟨h, _, checkHeartbeat_vouches clientHost sourcePeer hcheck, rfl, rfl⟩

/-- A heartbeat changes rows as allowed. -/
theorem rowChange_heartbeat {now : Instant} {clientHost sourcePeer observedAt : Option String}
    {r : HeartbeatRequest}
    (hn : recordValidatorHeartbeat lc now clientHost sourcePeer observedAt r n = .ok n')
    {validatorId : String} {row : LivenessRow} (hrow : n'.validators.find? validatorId = some row) :
    RowChange lc n (.heartbeat now clientHost sourcePeer observedAt r) validatorId row := by
  obtain ⟨h, written, hvouches, hwritten, hvalidators⟩ := recordValidatorHeartbeat_validators hn
  rw [hvalidators] at hrow
  by_cases hid : validatorId = h.validatorId
  · subst hid
    rw [Sql.Table.find?_upsert_self] at hrow
    cases hrow
    by_cases hdup : hasDuplicate n.validators h = true
    · rw [if_pos hdup] at hwritten
      subst hwritten
      exact .heard h.heartbeatAt rfl hvouches (fun _ _ he => nomatch he) (fun he => nomatch he)
        fun ho => nomatch ho
    · rw [if_neg hdup] at hwritten
      subst hwritten
      refine .heard h.heartbeatAt rfl hvouches (fun old hold he => ?_)
        (fun _ other old hold hne => ?_) fun ho => ?_
      · rw [hold] at he
        exact he
      · exact publicKey_ne_of_hasDuplicate (Bool.eq_false_iff.mpr hdup) hold hne
      · have hstatus : statusFromHeartbeat lc now (some h.heartbeatAt) = .online := ho
        obtain ⟨t, ht, hrecent⟩ := statusFromHeartbeat_recent hstatus
        cases ht
        exact hrecent
  · rw [Sql.Table.find?_upsert_ne _ _ hid] at hrow
    exact .refl hrow

/-! ### The other calls -/

/-- So does a refresh. -/
theorem rowChange_refresh {now : Instant} {validatorId : String} {row : LivenessRow}
    (hrow : (refreshParticipantLiveness lc now n).validators.find? validatorId = some row) :
    RowChange lc n (.refresh now) validatorId row := by
  simp only [refreshParticipantLiveness, Sql.Table.find?_mapRows, Option.map_eq_some_iff] at hrow
  obtain ⟨old, hold, rfl⟩ := hrow
  refine .kept old hold rfl rfl .inl fun ho => .inr ?_
  have hstatus : (if old.isBanned ∨ old.enabled = false then OnlineStatus.offline
    else statusFromHeartbeat lc now old.lastHeartbeatAt) = .online := ho
  split at hstatus
  · cases hstatus
  · exact statusFromHeartbeat_recent hstatus

/-- An update of one row that keeps its key and its heartbeat. -/
theorem rowChange_modify {call : LivenessCall} {validatorId other : String}
    {f : LivenessRow → LivenessRow} {row : LivenessRow}
    (hrow : (n.validators.modify validatorId f).find? other = some row)
    (hkey : ∀ old, (f old).publicKey = old.publicKey)
    (hbeat : ∀ old, (f old).lastHeartbeatAt = old.lastHeartbeatAt)
    (henabled : ∀ old, (f old).enabled = true →
      old.enabled = true ∨ call = .setEnabled validatorId true)
    (honline : ∀ old, (f old).onlineStatus = .online → old.onlineStatus = .online) :
    RowChange lc n call other row := by
  rw [Sql.Table.find?_modify] at hrow
  split at hrow
  · next hid =>
    subst hid
    obtain ⟨old, hold, rfl⟩ := Option.map_eq_some_iff.mp hrow
    exact .kept old hold (hkey old) (hbeat old) (henabled old) fun ho => .inl (honline old ho)
  · exact .refl hrow

/-- The other writes leave the key and the switch. -/
theorem ValidatorWrite.apply_keeps (what : ValidatorWrite) (row : ValidatorRow) :
    (what.apply row).publicKey = row.publicKey ∧ (what.apply row).enabled = row.enabled := by
  cases what <;> exact ⟨rfl, rfl⟩

/-- A new row has sent no heartbeat. -/
theorem rowChange_unheardRow {call : LivenessCall} {validatorId : String} {row : ValidatorRow}
    (hnew : n.validators.find? validatorId = none) :
    RowChange lc n call validatorId { toValidatorRow := row } :=
  .unheard hnew rfl fun h => nomatch h

/-- A registration changes rows as allowed. -/
theorem rowChange_register {suffix name publicKey timestamp : String}
    {rewardAddress : Option String}
    (hn : registerHeartbeatValidator lc suffix name publicKey rewardAddress timestamp n = .ok n')
    {call : LivenessCall} {validatorId : String} {row : LivenessRow}
    (hrow : n'.validators.find? validatorId = some row) : RowChange lc n call validatorId row := by
  unfold registerHeartbeatValidator at hn
  split at hn
  · cases hn
  · split at hn
    · cases hn
    · next validators hinsert =>
      cases hn
      obtain ⟨hnew, rfl⟩ := Sql.Table.insert?_eq_some_iff.mp hinsert
      by_cases hid : validatorId = "validator_" ++ suffix
      · subst hid
        rw [Sql.Table.find?_upsert_self] at hrow
        cases hrow
        exact rowChange_unheardRow hnew
      · rw [Sql.Table.find?_upsert_ne _ _ hid] at hrow
        exact .refl hrow

/-- So does a restored identity. -/
theorem rowChange_restore {restored publicKey timestamp : String}
    {name rewardAddress : Option String}
    (hn : restoreValidatorIdentity lc restored publicKey name rewardAddress timestamp n = .ok n')
    {call : LivenessCall} {validatorId : String} {row : LivenessRow}
    (hrow : n'.validators.find? validatorId = some row) : RowChange lc n call validatorId row := by
  simp only [restoreValidatorIdentity] at hn
  split at hn
  · cases hn
    exact .refl hrow
  · split at hn
    · cases hn
    · cases hn
      by_cases hid : validatorId = strip restored
      · subst hid
        simp only [Sql.Table.find?_upsert_self, Option.some.injEq] at hrow
        subst hrow
        cases hold : n.validators.find? (strip restored) with
        | none => exact rowChange_unheardRow hold
        | some old => exact .kept old hold rfl rfl .inl .inl
      · rw [Sql.Table.find?_upsert_ne _ _ hid] at hrow
        exact .refl hrow

/-- So does every call. -/
theorem rowChange_step {call : LivenessCall} {validatorId : String} {row : LivenessRow}
    (hrow : (n.step lc call).validators.find? validatorId = some row) :
    RowChange lc n call validatorId row := by
  cases call with
  | heartbeat now clientHost sourcePeer observedAt r =>
    simp only [LivenessNode.step] at hrow
    cases hn : recordValidatorHeartbeat lc now clientHost sourcePeer observedAt r n with
    | error e =>
      rw [hn] at hrow
      exact .refl hrow
    | ok n' =>
      rw [hn] at hrow
      exact rowChange_heartbeat hn hrow
  | refresh now => exact rowChange_refresh hrow
  -- an operator switches the row on or off and hears of nothing
  | setEnabled target enabled =>
    change (n.validators.modify target (.switch enabled)).find? validatorId = some row at hrow
    refine rowChange_modify hrow (fun _ => rfl) (fun _ => rfl) (fun old he => ?_) fun old ho => ?_
    · have henabled : enabled = true := he
      exact .inr (henabled ▸ rfl)
    · cases enabled with
      | true => exact ho
      | false => cases ho
  -- rows that are left were there
  | prune now olderThanSeconds =>
    refine .refl (Sql.Table.find?_eq_some_iff.mpr ?_)
    exact (List.mem_filter.mp (Sql.Table.find?_eq_some_iff.mp hrow)).1
  | register suffix name publicKey rewardAddress timestamp =>
    simp only [LivenessNode.step] at hrow
    cases hn : registerHeartbeatValidator lc suffix name publicKey rewardAddress timestamp n with
    | error e =>
      rw [hn] at hrow
      exact .refl hrow
    | ok n' =>
      rw [hn] at hrow
      exact rowChange_register hn hrow
  | restore restored publicKey name rewardAddress timestamp =>
    simp only [LivenessNode.step] at hrow
    cases hn : restoreValidatorIdentity lc restored publicKey name rewardAddress timestamp n with
    | error e =>
      rw [hn] at hrow
      exact .refl hrow
    | ok n' =>
      rw [hn] at hrow
      exact rowChange_restore hn hrow
  -- a placeholder is inserted only where there is no row
  | placeholder inserted placeholderRow =>
    simp only [LivenessNode.step, Sql.Table.find?_insertNew] at hrow
    split at hrow
    · next hid =>
      subst hid
      cases hold : n.validators.find? validatorId with
      | none =>
        rw [hold] at hrow
        cases hrow
        exact rowChange_unheardRow hold
      | some old =>
        rw [hold] at hrow
        cases hrow
        exact .refl hold
    · exact .refl hrow
  | write target what =>
    simp only [LivenessNode.step] at hrow
    refine rowChange_modify hrow (fun old => (what.apply_keeps old.toValidatorRow).1)
      (fun _ => rfl) (fun old he => .inl ?_) fun _ ho => ho
    rw [← (what.apply_keeps old.toValidatorRow).2]
    exact he
  | newBlock height => exact .refl hrow

/-! ## Runs -/

/-- The row is enabled and has a heartbeat. -/
def LivenessRow.beating (row : LivenessRow) : Prop :=
  row.enabled = true ∧ row.lastHeartbeatAt.isSome = true

/-- The operator does not enable a validator while another one that is enabled and has a heartbeat
has its key. -/
def EnablesOwnKey (n : LivenessNode) : LivenessCall → Prop
  | .setEnabled validatorId true => ∀ row, n.validators.find? validatorId = some row →
      ∀ other old, n.validators.find? other = some old → old.beating →
        old.publicKey = row.publicKey → other = validatorId
  | _ => True

/-- A node that has not heard of any of its validators. -/
def LivenessNode.Unheard (n : LivenessNode) : Prop :=
  ∀ validatorId row, n.validators.find? validatorId = some row →
    row.lastHeartbeatAt = none ∧ row.onlineStatus ≠ .online

/-- After the calls, no two enabled validators with a heartbeat share a key; every heartbeat comes
from a call that the key has signed, and a validator is online because a call found its heartbeat
recent. -/
structure LivenessInv (lc : LivenessConfig) (calls : List LivenessCall) (n : LivenessNode) :
    Prop where
  apart : ∀ v₁ r₁ v₂ r₂, n.validators.find? v₁ = some r₁ → n.validators.find? v₂ = some r₂ →
    r₁.beating → r₂.beating → r₁.publicKey = r₂.publicKey → v₁ = v₂
  vouched : ∀ v r t, n.validators.find? v = some r → r.lastHeartbeatAt = some t →
    ∃ call ∈ calls, call.Vouches lc v r.publicKey t
  recent : ∀ v r, n.validators.find? v = some r → r.onlineStatus = .online →
    ∃ t, r.lastHeartbeatAt = some t ∧ ∃ call ∈ calls, call.Recent lc t

/-- It holds where nobody has been heard of. -/
theorem LivenessNode.Unheard.inv (hn : n.Unheard) : LivenessInv lc [] n where
  apart v₁ r₁ _ _ h₁ _ hbeating _ _ := by
    have hsome := hbeating.2
    rw [(hn v₁ r₁ h₁).1] at hsome
    cases hsome
  vouched v r t h ht := by
    rw [(hn v r h).1] at ht
    cases ht
  recent v r h ho := absurd ho (hn v r h).2

/-- A call vouches for one validator. -/
theorem LivenessCall.Vouches.validatorId_eq {call : LivenessCall} {v₁ v₂ k₁ k₂ : String}
    {t₁ t₂ : Timestamp} (h₁ : call.Vouches lc v₁ k₁ t₁) (h₂ : call.Vouches lc v₂ k₂ t₂) :
    v₁ = v₂ := by
  cases call with
  | heartbeat now clientHost sourcePeer observedAt r =>
    obtain ⟨-, hid₁, -⟩ := h₁
    obtain ⟨-, hid₂, -⟩ := h₂
    exact hid₁.symm.trans hid₂
  | _ => exact h₁.elim

/-- A row that a call keeps was beating before it, or the call has switched it on. -/
theorem beating_of_kept {call : LivenessCall} {validatorId : String} {row old : LivenessRow}
    (hbeating : row.beating) (hbeat : row.lastHeartbeatAt = old.lastHeartbeatAt)
    (henabled : row.enabled = true → old.enabled = true ∨ call = .setEnabled validatorId true) :
    old.beating ∨ call = .setEnabled validatorId true :=
  (henabled hbeating.1).imp_left fun he => ⟨he, hbeat ▸ hbeating.2⟩

/-- A call keeps the keys of two validators apart. -/
theorem LivenessInv.apart_step {calls : List LivenessCall} {call : LivenessCall}
    (hn : LivenessInv lc calls n) (hcall : EnablesOwnKey n call) {v₁ v₂ : String}
    {r₁ r₂ : LivenessRow} (h₁ : RowChange lc n call v₁ r₁) (h₂ : RowChange lc n call v₂ r₂)
    (hb₁ : r₁.beating) (hb₂ : r₂.beating) (hkeys : r₁.publicKey = r₂.publicKey) : v₁ = v₂ := by
  -- two rows that beat: each was heard now or was beating before
  cases h₁ with
  | unheard _ hnone _ =>
    have hsome := hb₁.2
    rw [hnone] at hsome
    cases hsome
  | heard t₁ _ hvouches₁ _ halone₁ _ =>
    cases h₂ with
    | unheard _ hnone _ =>
      have hsome := hb₂.2
      rw [hnone] at hsome
      cases hsome
    | heard t₂ _ hvouches₂ _ _ _ => exact hvouches₁.validatorId_eq hvouches₂
    | kept old hold hkey _ _ _ =>
      by_contra hne
      exact halone₁ hb₁.1 v₂ old hold (Ne.symm hne) (hkey ▸ hkeys.symm)
  | kept old₁ hold₁ hkey₁ hbeat₁ henabled₁ _ =>
    cases h₂ with
    | unheard _ hnone _ =>
      have hsome := hb₂.2
      rw [hnone] at hsome
      cases hsome
    | heard t₂ _ _ _ halone₂ _ =>
      by_contra hne
      exact halone₂ hb₂.1 v₁ old₁ hold₁ hne (hkey₁ ▸ hkeys)
    | kept old₂ hold₂ hkey₂ hbeat₂ henabled₂ _ =>
      have holdkeys : old₁.publicKey = old₂.publicKey := hkey₁.symm.trans (hkeys.trans hkey₂)
      -- neither was heard now: one of them may have been switched on
      rcases beating_of_kept hb₁ hbeat₁ henabled₁ with hob₁ | rfl
      · rcases beating_of_kept hb₂ hbeat₂ henabled₂ with hob₂ | rfl
        · exact hn.apart v₁ old₁ v₂ old₂ hold₁ hold₂ hob₁ hob₂ holdkeys
        · exact hcall old₂ hold₂ v₁ old₁ hold₁ hob₁ holdkeys
      · rcases beating_of_kept hb₂ hbeat₂ henabled₂ with hob₂ | heq
        · exact (hcall old₁ hold₁ v₂ old₂ hold₂ hob₂ holdkeys.symm).symm
        · injection heq

/-- A call preserves it. -/
theorem LivenessInv.step {calls : List LivenessCall} {call : LivenessCall}
    (hn : LivenessInv lc calls n) (hcall : EnablesOwnKey n call) :
    LivenessInv lc (calls ++ [call]) (n.step lc call) where
  apart v₁ r₁ v₂ r₂ h₁ h₂ := hn.apart_step hcall (rowChange_step h₁) (rowChange_step h₂)
  vouched v r t h ht := by
    cases rowChange_step h with
    | kept old hold hkey hbeat _ _ =>
      obtain ⟨c, hc, hvouches⟩ := hn.vouched v old t hold (hbeat ▸ ht)
      exact ⟨c, List.mem_append_left _ hc, hkey ▸ hvouches⟩
    | unheard _ hnone _ =>
      rw [hnone] at ht
      cases ht
    | heard t' hbeat hvouches _ _ _ =>
      rw [hbeat] at ht
      cases ht
      exact ⟨call, List.mem_append_right _ (List.mem_singleton_self call), hvouches⟩
  recent v r h ho := by
    cases rowChange_step h with
    | kept old hold _ hbeat _ honline =>
      rcases honline ho with hold_online | ⟨t, ht, hrecent⟩
      · obtain ⟨t, ht, c, hc, hrecent⟩ := hn.recent v old hold hold_online
        exact ⟨t, hbeat.trans ht, c, List.mem_append_left _ hc, hrecent⟩
      · exact ⟨t, ht, call, List.mem_append_right _ (List.mem_singleton_self call), hrecent⟩
    | unheard _ _ hoffline => exact absurd ho hoffline
    | heard t hbeat _ _ _ honline =>
      exact ⟨t, hbeat, call, List.mem_append_right _ (List.mem_singleton_self call), honline ho⟩

/-- In every run of a node, validators that may vote have different public keys, and each of them
has sent a heartbeat, signed with its key, that a heartbeat or a refresh found recent. -/
theorem live_validators_vouched (hstart : n.Unheard) (calls : List LivenessCall)
    (hrun : EachStep (LivenessNode.step lc) EnablesOwnKey n calls) (now : Instant) :
    (∀ v₁ r₁ v₂ r₂, (calls.foldl (LivenessNode.step lc) n).validators.find? v₁ = some r₁ →
      (calls.foldl (LivenessNode.step lc) n).validators.find? v₂ = some r₂ →
      r₁.mayVote lc now → r₂.mayVote lc now → r₁.publicKey = r₂.publicKey → v₁ = v₂) ∧
    ∀ v r, (calls.foldl (LivenessNode.step lc) n).validators.find? v = some r →
      r.mayVote lc now → ∃ t, r.lastHeartbeatAt = some t ∧
        (∃ call ∈ calls, call.Vouches lc v r.publicKey t) ∧ ∃ call ∈ calls, call.Recent lc t := by
  have hinv : LivenessInv lc calls (calls.foldl (LivenessNode.step lc) n) :=
    history_of_eachStep hstart.inv (fun _ _ hn hcall => hn.step hcall) calls hrun
  have hbeating : ∀ v r, (calls.foldl (LivenessNode.step lc) n).validators.find? v = some r →
      r.mayVote lc now → r.beating := by
    intro v r hr hvote
    obtain ⟨henabled, honline⟩ := LivenessRow.mayVote_live hvote
    obtain ⟨t, ht, -⟩ := hinv.recent v r hr honline
    exact ⟨henabled, by rw [ht]; rfl⟩
  constructor
  · intro v₁ r₁ v₂ r₂ h₁ h₂ hvote₁ hvote₂
    exact hinv.apart v₁ r₁ v₂ r₂ h₁ h₂ (hbeating v₁ r₁ h₁ hvote₁) (hbeating v₂ r₂ h₂ hvote₂)
  · intro v r hr hvote
    obtain ⟨t, ht, hrecent⟩ := hinv.recent v r hr (LivenessRow.mayVote_live hvote).2
    exact ⟨t, ht, hinv.vouched v r t hr ht, hrecent⟩

/-! ### A local node -/

/-- The local network, whose validators register with their stake. -/
def localLiveness : LivenessConfig where
  toConfig := localConfig
  participantOnlineSeconds := 300
  participantOfflineSeconds := 900
  validatorOutOfSyncSeconds := 180
  walletBackedStake := false
  validatePublicKey _ := .ok ()
  parseIso _ := none

/-- A heartbeat under the key of the first wallet. -/
def localBeatRequest (validatorId : String) : HeartbeatRequest where
  validatorId := some validatorId
  nodeId := some "node-1"
  publicKey := some aliceKey
  address := some "http://127.0.0.1:8000/"
  name := none
  version := none
  heartbeatAt := none
  latestBlockHash := none
  localHeight := none
  effectiveHeight := none
  syncLag := none
  pendingReplayBlocks := none
  signature := some "signed"
  extra := []

def localBeat (validatorId : String) (now : Instant) : LivenessCall :=
  .heartbeat now none none none (localBeatRequest validatorId)

def unheardNode : LivenessNode := ⟨.empty, .empty, 0⟩

/-- Nobody has been heard of on the node without rows. -/
theorem unheardNode_unheard : unheardNode.Unheard := fun _ _ h => nomatch h

/-- A second validator asks for a job under the key of the first one, and sends a heartbeat. -/
def localCalls : List LivenessCall :=
  [localBeat "validator_1" 0, .restore "validator_2" aliceKey none none "", .refresh 5000000,
    localBeat "validator_2" 10000000]

def localVoters (n : LivenessNode) : List String :=
  (n.validators.rows.filter fun r => r.2.eligible localLiveness 30000000).map Prod.fst

/-- The heartbeat disables the second validator, and the first one may vote. -/
theorem live_validators_vouched_local :
    localVoters (localCalls.foldl (LivenessNode.step localLiveness) unheardNode) =
      ["validator_1"] ∧
    (∀ v₁ r₁ v₂ r₂,
      (localCalls.foldl (LivenessNode.step localLiveness) unheardNode).validators.find? v₁ =
        some r₁ →
      (localCalls.foldl (LivenessNode.step localLiveness) unheardNode).validators.find? v₂ =
        some r₂ →
      r₁.mayVote localLiveness 30000000 → r₂.mayVote localLiveness 30000000 →
      r₁.publicKey = r₂.publicKey → v₁ = v₂) :=
  ⟨by decide +kernel, (live_validators_vouched unheardNode_unheard localCalls
    ⟨trivial, trivial, trivial, trivial, trivial⟩ 30000000).1⟩

/-- The operator who switches the second validator on gives the key a second vote. -/
example :
    localVoters ((localCalls ++ [LivenessCall.setEnabled "validator_2" true,
      .refresh 20000000]).foldl (LivenessNode.step localLiveness) unheardNode) =
      ["validator_1", "validator_2"] := by
  decide +kernel

/-! ## Silenced validators -/

/-- The validator has a row with the key. -/
def LivenessNode.HasKey (validatorId publicKey : String) (n : LivenessNode) : Prop :=
  ∃ row, n.validators.find? validatorId = some row ∧ row.publicKey = publicKey

/-- The validator has a row, which is not enabled. -/
def LivenessNode.SwitchedOff (validatorId : String) (n : LivenessNode) : Prop :=
  ∃ row, n.validators.find? validatorId = some row ∧ row.enabled = false

/-- The call neither sends a heartbeat of the validator nor deletes rows. -/
def LivenessCall.Spares (validatorId : String) : LivenessCall → Prop
  | .heartbeat _ _ _ _ r => clean r.validatorId ≠ validatorId
  | .prune .. => False
  | _ => True

/-- The call neither switches the validator on nor deletes rows. -/
def LivenessCall.LeavesOff (validatorId : String) : LivenessCall → Prop
  | .setEnabled target enabled => enabled = true → target ≠ validatorId
  | .prune .. => False
  | _ => True

/-- A row stays when another one is written. -/
theorem upsert_isSome {validators : Sql.Table String LivenessRow} {v written : String}
    {row : LivenessRow} (h : (validators.find? v).isSome = true) :
    ((validators.upsert written row).find? v).isSome = true := by
  rw [Sql.Table.find?_upsert]
  split
  · rfl
  · exact h

/-- So it does when one is changed. -/
theorem modify_isSome {validators : Sql.Table String LivenessRow} {v written : String}
    {f : LivenessRow → LivenessRow} (h : (validators.find? v).isSome = true) :
    ((validators.modify written f).find? v).isSome = true := by
  rw [Sql.Table.modify, Sql.Table.find?_mapRows, Option.isSome_map]
  exact h

/-- Only a pruning deletes rows. -/
theorem find?_step_isSome {call : LivenessCall} {v : String}
    (hprune : ∀ now olderThanSeconds, call ≠ .prune now olderThanSeconds)
    (h : (n.validators.find? v).isSome = true) :
    ((n.step lc call).validators.find? v).isSome = true := by
  cases call with
  | heartbeat now clientHost sourcePeer observedAt r =>
    refine attempt_of (P := fun s : LivenessNode => (s.validators.find? v).isSome = true) h
      fun n' hn => ?_
    obtain ⟨_, _, _, _, hvalidators⟩ := recordValidatorHeartbeat_validators hn
    rw [hvalidators]
    exact upsert_isSome h
  -- the refresh rewrites every row and drops none
  | refresh now =>
    simp only [LivenessNode.step, refreshParticipantLiveness, Sql.Table.find?_mapRows,
      Option.isSome_map]
    exact h
  | setEnabled target enabled => exact modify_isSome h
  | prune now olderThanSeconds => exact absurd rfl (hprune now olderThanSeconds)
  | register suffix name publicKey rewardAddress timestamp =>
    refine attempt_of (P := fun s : LivenessNode => (s.validators.find? v).isSome = true) h
      fun n' hn => ?_
    unfold registerHeartbeatValidator at hn
    split at hn
    · cases hn
    · split at hn
      · cases hn
      · next validators hinsert =>
        cases hn
        obtain ⟨-, rfl⟩ := Sql.Table.insert?_eq_some_iff.mp hinsert
        exact upsert_isSome h
  | restore restored publicKey name rewardAddress timestamp =>
    refine attempt_of (P := fun s : LivenessNode => (s.validators.find? v).isSome = true) h
      fun n' hn => ?_
    simp only [restoreValidatorIdentity] at hn
    split at hn
    · cases hn
      exact h
    · split at hn <;> cases hn
      exact upsert_isSome h
  | placeholder inserted row =>
    simp only [LivenessNode.step, Sql.Table.find?_insertNew]
    split
    · next hid =>
      subst hid
      cases hold : n.validators.find? v with
      | none => rfl
      | some old => rfl
    · exact h
  | write target what => exact modify_isSome h
  | newBlock height => exact h

/-- Another validator's calls leave the key of the row. -/
theorem LivenessNode.HasKey.step {call : LivenessCall} {v publicKey : String}
    (h : n.HasKey v publicKey) (hcall : call.Spares v) : (n.step lc call).HasKey v publicKey := by
  obtain ⟨old, hold, rfl⟩ := h
  have hprune : ∀ now olderThanSeconds, call ≠ .prune now olderThanSeconds := by
    rintro _ _ rfl
    exact hcall
  have hsome : ((n.step lc call).validators.find? v).isSome = true :=
    find?_step_isSome hprune (by rw [hold]; rfl)
  obtain ⟨row, hrow⟩ := Option.isSome_iff_exists.mp hsome
  refine ⟨row, hrow, ?_⟩
  cases rowChange_step hrow with
  | kept before hbefore hkey _ _ _ =>
    cases hbefore.symm.trans hold
    exact hkey
  | unheard hnew _ _ => cases hnew.symm.trans hold
  | heard t _ hvouches _ _ _ =>
    cases call with
    | heartbeat now clientHost sourcePeer observedAt r => exact absurd hvouches.2.1 hcall
    | _ => exact hvouches.elim

/-- A validator that is off stays off until the operator switches it on. -/
theorem LivenessNode.SwitchedOff.step {call : LivenessCall} {v : String} (h : n.SwitchedOff v)
    (hcall : call.LeavesOff v) : (n.step lc call).SwitchedOff v := by
  obtain ⟨old, hold, hoff⟩ := h
  have hprune : ∀ now olderThanSeconds, call ≠ .prune now olderThanSeconds := by
    rintro _ _ rfl
    exact hcall
  have hsome : ((n.step lc call).validators.find? v).isSome = true :=
    find?_step_isSome hprune (by rw [hold]; rfl)
  obtain ⟨row, hrow⟩ := Option.isSome_iff_exists.mp hsome
  refine ⟨row, hrow, Bool.eq_false_iff.mpr fun hon => ?_⟩
  cases rowChange_step hrow with
  | kept before hbefore _ _ henabled _ =>
    cases hbefore.symm.trans hold
    rcases henabled hon with hold_on | rfl
    · rw [hoff] at hold_on
      cases hold_on
    · exact hcall rfl rfl
  | unheard hnew _ _ => cases hnew.symm.trans hold
  | heard t _ _ henabled _ _ =>
    have hold_on := henabled old hold hon
    rw [hoff] at hold_on
    cases hold_on

/-- A heartbeat under a key that another row has switches its validator off. -/
theorem switchedOff_of_duplicate {now : Instant} {clientHost sourcePeer observedAt : Option String}
    {r : HeartbeatRequest}
    (hn : recordValidatorHeartbeat lc now clientHost sourcePeer observedAt r n = .ok n')
    {other : String} (hother : n.HasKey other (textOr r.publicKey ""))
    (hne : other ≠ clean r.validatorId) : n'.SwitchedOff (clean r.validatorId) := by
  obtain ⟨old, hold, hkey⟩ := hother
  obtain ⟨h, written, hvouches, hwritten, hvalidators⟩ := recordValidatorHeartbeat_validators hn
  obtain ⟨-, hid, hpublicKey, -⟩ := hvouches
  have hdup : hasDuplicate n.validators h = true := by
    refine List.any_eq_true.mpr ⟨(other, old), Sql.Table.find?_eq_some_iff.mp hold, ?_⟩
    simp [hkey, hpublicKey, ← hid, hne]
  rw [if_pos hdup] at hwritten
  subst hwritten
  rw [LivenessNode.SwitchedOff, hvalidators, hid, Sql.Table.find?_upsert_self]
  exact ⟨_, rfl, rfl⟩

/-- Whoever registers a validator under the public key of another one silences that one: the
heartbeat that the other validator sends next switches it off, and it may not vote in any run in
which the operator does not switch it on again and no rows are pruned. -/
theorem registered_key_silences {suffix name publicKey timestamp : String}
    {rewardAddress : Option String} {registered : LivenessNode}
    (hreg : registerHeartbeatValidator lc suffix name publicKey rewardAddress timestamp n =
      .ok registered)
    {before : List LivenessCall} (hbefore : ∀ call ∈ before, call.Spares ("validator_" ++ suffix))
    {now : Instant} {clientHost sourcePeer observedAt : Option String} {r : HeartbeatRequest}
    (hbeat : recordValidatorHeartbeat lc now clientHost sourcePeer observedAt r
      (before.foldl (LivenessNode.step lc) registered) = .ok n')
    (hkey : textOr r.publicKey "" = publicKey) (hne : clean r.validatorId ≠ "validator_" ++ suffix)
    {after : List LivenessCall} (hafter : ∀ call ∈ after, call.LeavesOff (clean r.validatorId)) :
    ∀ s ∈ states (LivenessNode.step lc) n' after,
      ∃ row, s.validators.find? (clean r.validatorId) = some row ∧
        ∀ later, ¬ row.mayVote lc later := by
  have hinserted : registered.HasKey ("validator_" ++ suffix) publicKey := by
    unfold registerHeartbeatValidator at hreg
    split at hreg
    · cases hreg
    · split at hreg
      · cases hreg
      · next validators hinsert =>
        cases hreg
        obtain ⟨-, rfl⟩ := Sql.Table.insert?_eq_some_iff.mp hinsert
        exact ⟨_, Sql.Table.find?_upsert_self _ _ _, rfl⟩
  have hspared : EachStep (LivenessNode.step lc)
      (fun _ call => call.Spares ("validator_" ++ suffix)) registered before :=
    eachStep_of_forall before registered hbefore
  have hduplicate : (before.foldl (LivenessNode.step lc) registered).HasKey
      ("validator_" ++ suffix) publicKey :=
    invariant_of_eachStep (fun _ _ hs hcall => hs.step hcall) before registered hinserted hspared
      _ (foldl_mem_states _ before registered)
  have hoff : n'.SwitchedOff (clean r.validatorId) :=
    switchedOff_of_duplicate hbeat (hkey ▸ hduplicate) (Ne.symm hne)
  have hleft : EachStep (LivenessNode.step lc)
      (fun _ call => call.LeavesOff (clean r.validatorId)) n' after :=
    eachStep_of_forall after n' hafter
  have hstays : ∀ s ∈ states (LivenessNode.step lc) n' after,
      s.SwitchedOff (clean r.validatorId) :=
    invariant_of_eachStep (fun _ _ hs hcall => hs.step hcall) after n' hoff hleft
  intro s hs
  obtain ⟨last, hlast, hlastOff⟩ := hstays s hs
  refine ⟨last, hlast, fun later hvote => ?_⟩
  have hon := (LivenessRow.mayVote_live hvote).1
  rw [hlastOff] at hon
  cases hon

/-- A call that returns is what is attempted. -/
theorem eq_ok_attempt {ε σ : Type} {x : Except ε σ} (s : σ) (h : x.isOk = true) :
    x = .ok (attempt x s) := by
  cases x with
  | ok s' => rfl
  | error e => cases h

def heardNode : LivenessNode := unheardNode.step localLiveness (localBeat "validator_1" 0)

def registeredNode : LivenessNode :=
  heardNode.step localLiveness (.register "2" "another" aliceKey none "")

/-- The validator of the first wallet may vote until somebody registers its key and it sends its
next heartbeat. -/
theorem registered_key_silences_local :
    localVoters registeredNode = ["validator_1"] ∧
    ∀ s ∈ states (LivenessNode.step localLiveness)
        (registeredNode.step localLiveness (localBeat "validator_1" 10000000))
        [.refresh 20000000, localBeat "validator_1" 30000000],
      ∃ row, s.validators.find? (clean (some "validator_1")) = some row ∧
        ∀ later, ¬ row.mayVote localLiveness later := by
  refine ⟨by decide +kernel, ?_⟩
  have hreg : registerHeartbeatValidator localLiveness "2" "another" aliceKey none "" heardNode =
      .ok registeredNode := eq_ok_attempt heardNode (by decide +kernel)
  have hbeat : recordValidatorHeartbeat localLiveness 10000000 none none none
      (localBeatRequest "validator_1") registeredNode =
      .ok (registeredNode.step localLiveness (localBeat "validator_1" 10000000)) :=
    eq_ok_attempt registeredNode (by decide +kernel)
  have hbefore : ∀ call ∈ ([] : List LivenessCall), call.Spares ("validator_" ++ "2") :=
    fun _ h => nomatch h
  refine registered_key_silences hreg hbefore hbeat (by decide +kernel) (by decide +kernel) ?_
  intro call hcall
  rcases List.mem_cons.mp hcall with rfl | hcall
  · trivial
  · rw [List.mem_singleton.mp hcall]
    trivial

end Picoin
