import Mathlib.Algebra.BigOperators.Group.Finset.Basic
import Mathlib.Algebra.Order.BigOperators.Group.Finset
import Mathlib.Tactic.Linarith
import Picoin.Pool.Payouts

/-!
# No payout twice

What the chain has confirmed for a worker stays within what the worker was entitled to when the
last of its confirmed payouts was signed. `payouts_within_entitlement_of_run` proves this for every
run of the pool, whatever the node answers, in which the chain does not confirm a payout that had
been released when a confirmed one was signed. The pool releases a payout that the node does not
find or reports as failed, and the next one takes another nonce: then both can be confirmed
(`released_payout_confirmed`).

* **`PayoutInvariant`** is what holds between the steps of a run;
* **`pending_le`** bounds what is signed by what is left of the entitlement.
-/

namespace Picoin.Pool

open Run

/-! ## What never changes in a payout -/

/-- The worker of a payout, its units and its amount. -/
def PayoutRow.paid (row : PayoutRow) : String × ℤ × ℤ := (row.workerId, row.amountUnits, row.amount)

def PayoutState.paid (s : PayoutState) (payoutId : String) : Option (String × ℤ × ℤ) :=
  (s.payouts.find? payoutId).map PayoutRow.paid

/-- The units of a payout. -/
def PayoutState.units (s : PayoutState) (payoutId : String) : ℤ :=
  (s.paid payoutId).elim 0 fun p => p.2.1

/-- A row of the table is the payout under its id. -/
theorem paid_of_mem {s : PayoutState} {r : String × PayoutRow} (h : r ∈ s.payouts.rows) :
    s.paid r.1 = some r.2.paid := by
  rw [PayoutState.paid, Sql.Table.find?_eq_some_iff.mpr h]
  rfl

/-- It has the units of the payout. -/
theorem units_of_mem {s : PayoutState} {r : String × PayoutRow} (h : r ∈ s.payouts.rows) :
    s.units r.1 = r.2.amountUnits := by
  rw [PayoutState.units, paid_of_mem h]
  rfl

/-- A step that signs nothing and confirms nothing. -/
structure KeepsPayouts (s s' : PayoutState) : Prop where
  paid : ∀ id, s'.paid id = s.paid id
  signed : s'.signed = s.signed
  sent : ∀ id ∈ s'.sent, id ∈ s.sent ∨ (s.paid id).isSome
  confirmed : s'.confirmed = s.confirmed

/-- Payouts that stay are kept. -/
theorem KeepsPayouts.refl (s : PayoutState) : KeepsPayouts s s :=
  ⟨fun _ => rfl, rfl, fun _ h => .inl h, rfl⟩

/-- Payouts that are kept twice are kept. -/
theorem KeepsPayouts.trans {s s' s'' : PayoutState} (h : KeepsPayouts s s')
    (h' : KeepsPayouts s' s'') : KeepsPayouts s s'' where
  paid id := (h'.paid id).trans (h.paid id)
  signed := h'.signed.trans h.signed
  sent id hid := by
    rcases h'.sent id hid with hmem | hrow
    · exact h.sent id hmem
    · exact .inr (h.paid id ▸ hrow)
  confirmed := h'.confirmed.trans h.confirmed

/-- A change of status keeps the payouts. -/
theorem setPayoutStatus_keeps (s : PayoutState) (payoutId : String) (status : PayoutStatus)
    (error : Option String) : KeepsPayouts s (setPayoutStatus s payoutId status error) where
  paid id := by
    refine Sql.Table.map_find?_modify s.payouts payoutId (fun row => ?_) id
    rfl
  signed := rfl
  sent _ h := .inl h
  confirmed := rfl

/-- The look at a payout keeps them. -/
theorem reconcilePayout_keeps (pc : PayoutConfig) (answers : String → Option TxAnswer)
    (healthy : Bool) (now : Instant) (s : PayoutState) (r : String × PayoutRow) :
    KeepsPayouts s (reconcilePayout pc answers healthy now s r) := by
  unfold reconcilePayout
  split
  · exact .refl s
  · split
    · exact setPayoutStatus_keeps ..
    · exact setPayoutStatus_keeps ..
    · exact .refl s
    · split
      · exact setPayoutStatus_keeps ..
      · exact .refl s

/-- So does the pass over all of them. -/
theorem reconcilePayoutStatuses_keeps (pc : PayoutConfig) (answers : String → Option TxAnswer)
    (healthy : Bool) (now : Instant) (s : PayoutState) :
    KeepsPayouts s (reconcilePayoutStatuses pc answers healthy now s) := by
  have hloop : ∀ (rows : List (String × PayoutRow)) (s : PayoutState),
      KeepsPayouts s (rows.foldl (reconcilePayout pc answers healthy now) s) := by
    intro rows
    induction rows with
    | nil => exact KeepsPayouts.refl
    | cons r rest ih =>
      exact fun s => (reconcilePayout_keeps pc answers healthy now s r).trans (ih _)
  exact hloop _ s

/-- It sends nothing. -/
theorem reconcilePayoutStatuses_sent (pc : PayoutConfig) (answers : String → Option TxAnswer)
    (healthy : Bool) (now : Instant) (s : PayoutState) :
    (reconcilePayoutStatuses pc answers healthy now s).sent = s.sent := by
  have hrow : ∀ (s : PayoutState) (r : String × PayoutRow),
      (reconcilePayout pc answers healthy now s r).sent = s.sent := by
    intro s r
    unfold reconcilePayout
    split
    · rfl
    · split
      · rfl
      · rfl
      · rfl
      · split <;> rfl
  have hloop : ∀ (rows : List (String × PayoutRow)) (s : PayoutState),
      (rows.foldl (reconcilePayout pc answers healthy now) s).sent = s.sent := by
    intro rows
    induction rows with
    | nil => exact fun _ => rfl
    | cons r rest ih => exact fun s => (ih _).trans (hrow s r)
  exact hloop _ s

/-! ## What is left of an entitlement -/

/-- A positive pending amount is what the payouts leave of the entitlement. -/
theorem pending_le {rows : List PayoutRow} (hrows : ∀ row ∈ rows, 0 ≤ row.amount) {net : ℚ}
    (hpos : 0 < rows.foldl subtractPayout net) :
    rows.foldl subtractPayout net ≤ net - (rows.map PayoutRow.amount).sum / 10 ^ 8 := by
  induction rows generalizing net with
  | nil => simp
  | cons row rest ih =>
    have hrow : 0 ≤ row.amount := hrows row List.mem_cons_self
    have hrest : ∀ r ∈ rest, 0 ≤ r.amount := fun r hr => hrows r (List.mem_cons_of_mem _ hr)
    have hsum : (0 : ℚ) ≤ ((rest.map PayoutRow.amount).sum : ℤ) := by
      exact_mod_cast List.sum_nonneg (by simpa using hrest)
    rw [List.foldl_cons] at hpos ⊢
    have hle := ih hrest hpos
    rw [List.map_cons, List.sum_cons, Int.cast_add]
    by_cases hzero : row.amount ≤ 0
    · have : row.amount = 0 := le_antisymm hzero hrow
      rw [subtractPayout, if_pos hzero] at hle ⊢
      rw [this]
      simpa using hle
    · rw [subtractPayout, if_neg hzero] at hle hpos ⊢
      rcases max_choice (0 : ℚ) (net - row.amount / 10 ^ 8) with hmax | hmax
      · -- nothing was left, so nothing is pending
        rw [hmax] at hle hpos
        linarith [div_nonneg hsum (by norm_num : (0 : ℚ) ≤ 10 ^ 8)]
      · rw [hmax] at hle ⊢
        linarith

/-- What is signed for a pending amount. -/
theorem floorPicoinUnits_le (pending : ℚ) :
    (floorPicoinUnits (decimalToFloat pending) : ℚ) ≤ pending * 10 ^ 6 := by
  have hfloor : (decimalToFloat pending : ℚ) ≤ pending * 10 ^ 8 := Int.floor_le _
  have hdiv : floorPicoinUnits (decimalToFloat pending) * 100 ≤ decimalToFloat pending := by
    unfold floorPicoinUnits
    omega
  have hcast : (floorPicoinUnits (decimalToFloat pending) : ℚ) * 100 ≤ decimalToFloat pending := by
    exact_mod_cast hdiv
  linarith

/-- No negative amount is paid. -/
theorem floorPicoinUnits_nonneg {pending : ℚ} (h : 0 < pending) :
    0 ≤ floorPicoinUnits (decimalToFloat pending) := by
  have hfloor : 0 ≤ decimalToFloat pending := Int.floor_nonneg.mpr (by positivity)
  unfold floorPicoinUnits
  omega

/-! ## The invariant -/

/-- What was signed, with what counted as paid, is within the entitlement. -/
structure Signing.Covered (s : PayoutState) (g : Signing) : Prop where
  row : ∃ amount, s.paid g.payoutId = some (g.workerId, g.amountUnits, amount)
  nodup : g.counted.Nodup
  known : ∀ id ∈ g.counted, (s.paid id).isSome
  own : g.payoutId ∉ g.released
  bound : ((g.amountUnits + (g.counted.map s.units).sum : ℤ) : ℚ) ≤ g.net * 10 ^ 6

/-- What holds between the steps of a run. -/
structure PayoutInvariant (s : PayoutState) : Prop where
  rows : ∀ id p, s.paid id = some p → 0 ≤ p.2.1 ∧ p.2.2 = unitsToFloat p.2.1
  nodup : (s.signed.map Signing.payoutId).Nodup
  covered : ∀ g ∈ s.signed, g.Covered s
  earlier : s.signed.Pairwise fun a b => a.workerId = b.workerId →
    a.payoutId ∈ b.counted ∨ a.payoutId ∈ b.released
  sent : ∀ id ∈ s.sent, (s.paid id).isSome
  confirmed : ∀ id ∈ s.confirmed, id ∈ s.sent
  once : ∀ g ∈ s.signed, g.payoutId ∈ s.confirmed → ∀ id ∈ g.released, id ∉ s.confirmed

/-- It holds of a pool without payouts. -/
theorem PayoutInvariant.empty : PayoutInvariant .empty where
  rows _ _ h := nomatch h
  nodup := List.nodup_nil
  covered _ h := nomatch h
  earlier := .nil
  sent _ h := nomatch h
  confirmed _ h := nomatch h
  once _ h := nomatch h

/-- The rows that were there are unchanged. -/
def RowsStay (s s' : PayoutState) : Prop :=
  ∀ id, (s.paid id).isSome → s'.paid id = s.paid id

/-- A payout stays where rows stay. -/
theorem RowsStay.isSome {s s' : PayoutState} (h : RowsStay s s') {id : String}
    (hid : (s.paid id).isSome) : (s'.paid id).isSome := by
  rw [h id hid]
  exact hid

/-- So do the amounts of payouts that are there. -/
theorem RowsStay.map_units {s s' : PayoutState} (h : RowsStay s s') {ids : List String}
    (hids : ∀ id ∈ ids, (s.paid id).isSome) : ids.map s'.units = ids.map s.units :=
  List.map_congr_left fun id hid => by
    rw [PayoutState.units, PayoutState.units, h id (hids id hid)]

/-- What was signed stays covered by the rows that it was covered by. -/
theorem Signing.Covered.frame {s s' : PayoutState} {g : Signing} (h : g.Covered s)
    (hstay : RowsStay s s') : g.Covered s' := by
  obtain ⟨⟨amount, hrow⟩, hnodup, hknown, hown, hbound⟩ := h
  refine ⟨⟨amount, (hstay _ (by rw [hrow]; rfl)).trans hrow⟩, hnodup,
    fun id hid => hstay.isSome (hknown id hid), hown, ?_⟩
  rwa [hstay.map_units hknown]

/-- What keeps the payouts preserves it. -/
theorem PayoutInvariant.keep {s s' : PayoutState} (h : PayoutInvariant s)
    (hk : KeepsPayouts s s') (hsent : ∀ id ∈ s.sent, id ∈ s'.sent) : PayoutInvariant s' where
  rows id p hid := h.rows id p (hk.paid id ▸ hid)
  nodup := hk.signed ▸ h.nodup
  covered g hg := (h.covered g (hk.signed ▸ hg)).frame fun id _ => hk.paid id
  earlier := hk.signed ▸ h.earlier
  sent id hid := by
    rw [hk.paid]
    exact (hk.sent id hid).elim (h.sent id) fun hrow => hrow
  confirmed id hid := hsent id (h.confirmed id (hk.confirmed ▸ hid))
  once g hg hconf id hid := hk.confirmed ▸ h.once g (hk.signed ▸ hg) (hk.confirmed ▸ hconf) id hid

/-! ## Signing -/

/-- The units of the payouts that count for a worker. -/
theorem sum_counted (s : PayoutState) (workerId : String) :
    (((paidPayoutRows s workerId).map Prod.fst).map s.units).sum =
      ((paidPayoutRows s workerId).map fun r => r.2.amountUnits).sum := by
  rw [List.map_map]
  refine congrArg List.sum (List.map_congr_left fun r hr => ?_)
  exact units_of_mem (List.mem_filter.mp hr).1

/-- The amounts of these payouts are their units. -/
theorem sum_amounts {s : PayoutState} (h : PayoutInvariant s) (workerId : String) :
    (((paidPayoutRows s workerId).map Prod.snd).map PayoutRow.amount).sum =
      100 * ((paidPayoutRows s workerId).map fun r => r.2.amountUnits).sum := by
  rw [List.map_map, ← List.sum_map_mul_left]
  refine congrArg List.sum (List.map_congr_left fun r hr => ?_)
  have hamount := (h.rows r.1 _ (paid_of_mem (List.mem_filter.mp hr).1)).2
  change r.2.amount = 100 * r.2.amountUnits
  rw [mul_comm]
  exact hamount

/-- The row of a payout is new, and the others stay. -/
theorem signPayout_eq_some {pc : PayoutConfig} {s s' : PayoutState} {payee : Payee}
    {tx : PayoutTx} {now : Instant} (h : signPayout pc s payee tx now = some s') :
    s.paid tx.payoutId = none ∧
      (∀ id, s'.paid id = if id = tx.payoutId then
        some (payee.workerId, tx.amountUnits, unitsToFloat tx.amountUnits) else s.paid id) ∧
      s'.signed = s.signed ++ [⟨tx.payoutId, payee.workerId, tx.amountUnits, payee.net,
        (paidPayoutRows s payee.workerId).map Prod.fst,
        (s.payouts.rows.filter fun r => !r.2.status.counts && r.2.workerId = payee.workerId).map
          Prod.fst⟩] ∧
      s'.sent = s.sent ∧ s'.confirmed = s.confirmed := by
  unfold signPayout at h
  dsimp only at h
  split at h
  · cases h
  · obtain ⟨payouts, hinsert, rfl⟩ := Option.map_eq_some_iff.mp h
    obtain ⟨hnone, rfl⟩ := Sql.Table.insert?_eq_some_iff.mp hinsert
    refine ⟨by rw [PayoutState.paid, hnone]; rfl, fun id => ?_, rfl, rfl, rfl⟩
    rw [PayoutState.paid, Sql.Table.find?_upsert]
    split <;> rfl

/-- An earlier payout of the worker counted as paid or had been released. -/
theorem counted_or_released {s : PayoutState} (h : PayoutInvariant s) {g : Signing}
    (hg : g ∈ s.signed) :
    g.payoutId ∈ (paidPayoutRows s g.workerId).map Prod.fst ∨
      g.payoutId ∈ (s.payouts.rows.filter fun r =>
        !r.2.status.counts && r.2.workerId = g.workerId).map Prod.fst := by
  obtain ⟨amount, hpaid⟩ := (h.covered g hg).row
  obtain ⟨row, hrow, hcolumns⟩ := Option.map_eq_some_iff.mp hpaid
  have hworker : row.workerId = g.workerId := congrArg Prod.fst hcolumns
  have hmem : (g.payoutId, row) ∈ s.payouts.rows := Sql.Table.find?_eq_some_iff.mp hrow
  cases hcounts : row.status.counts with
  | true =>
    exact .inl (List.mem_map.mpr ⟨_, List.mem_filter.mpr ⟨hmem, by simp [hcounts, hworker]⟩, rfl⟩)
  | false =>
    exact .inr (List.mem_map.mpr ⟨_, List.mem_filter.mpr ⟨hmem, by simp [hcounts, hworker]⟩, rfl⟩)

/-- The payouts that count for a worker are rows. -/
theorem isSome_paid_of_counted {s : PayoutState} {workerId id : String}
    (hid : id ∈ (paidPayoutRows s workerId).map Prod.fst) : (s.paid id).isSome := by
  obtain ⟨r, hr, rfl⟩ := List.mem_map.mp hid
  rw [paid_of_mem (List.mem_filter.mp hr).1]
  rfl

/-- The pending amount is what the payouts that count leave of the entitlement. -/
theorem pendingAmount_le {s : PayoutState} (h : PayoutInvariant s) {payee : Payee}
    (hpos : 0 < pendingAmount s payee) :
    pendingAmount s payee ≤ payee.net -
      ((((paidPayoutRows s payee.workerId).map Prod.snd).map PayoutRow.amount).sum : ℤ) /
        10 ^ 8 := by
  refine pending_le (fun row hrow => ?_) hpos
  obtain ⟨r, hr, rfl⟩ := List.mem_map.mp hrow
  obtain ⟨hunits, hfloat⟩ := h.rows r.1 _ (paid_of_mem (List.mem_filter.mp hr).1)
  change r.2.amount = unitsToFloat r.2.amountUnits at hfloat
  rw [hfloat, unitsToFloat]
  exact mul_nonneg hunits (by norm_num)

/-- The payout that is signed for the pending amount is covered. -/
theorem covered_sign {s s' : PayoutState} (h : PayoutInvariant s) {payee : Payee} {tx : PayoutTx}
    {released : List String} {amount : ℤ} (hstay : RowsStay s s')
    (hrow : s'.paid tx.payoutId = some (payee.workerId, tx.amountUnits, amount))
    (hpos : 0 < pendingAmount s payee)
    (hamount : tx.amountUnits = floorPicoinUnits (decimalToFloat (pendingAmount s payee)))
    (hown : tx.payoutId ∉ released) :
    Signing.Covered s' ⟨tx.payoutId, payee.workerId, tx.amountUnits, payee.net,
      (paidPayoutRows s payee.workerId).map Prod.fst, released⟩ := by
  have hcounted : ∀ id ∈ (paidPayoutRows s payee.workerId).map Prod.fst, (s.paid id).isSome :=
    fun id hid => isSome_paid_of_counted hid
  refine ⟨⟨amount, hrow⟩, (List.Sublist.map Prod.fst List.filter_sublist).nodup s.payouts.nodup,
    fun id hid => hstay.isSome (hcounted id hid), hown, ?_⟩
  change ((tx.amountUnits + (((paidPayoutRows s payee.workerId).map Prod.fst).map
    s'.units).sum : ℤ) : ℚ) ≤ payee.net * 10 ^ 6
  rw [hstay.map_units hcounted, sum_counted, hamount]
  have hleft := pendingAmount_le h hpos
  rw [sum_amounts h] at hleft
  have hfloor := floorPicoinUnits_le (pendingAmount s payee)
  push_cast at hleft ⊢
  linarith

/-- A payout of what is pending preserves it. -/
theorem PayoutInvariant.sign {pc : PayoutConfig} {s s' : PayoutState} {payee : Payee}
    {tx : PayoutTx} {now : Instant} (h : PayoutInvariant s) (hpos : 0 < pendingAmount s payee)
    (hamount : tx.amountUnits = floorPicoinUnits (decimalToFloat (pendingAmount s payee)))
    (hsign : signPayout pc s payee tx now = some s') : PayoutInvariant s' := by
  obtain ⟨hfresh, hpaid, hsigned, hsent, hconfirmed⟩ := signPayout_eq_some hsign
  have hnotRow : ¬(s.paid tx.payoutId).isSome := by
    rw [hfresh]
    exact Bool.false_ne_true
  have hstay : RowsStay s s' := by
    intro id hid
    rw [hpaid, if_neg]
    rintro rfl
    exact hnotRow hid
  have hnew : tx.payoutId ∉ s.signed.map Signing.payoutId := by
    intro hmem
    obtain ⟨g, hg, heq⟩ := List.mem_map.mp hmem
    obtain ⟨amount, hrow⟩ := (h.covered g hg).row
    rw [heq, hfresh] at hrow
    cases hrow
  -- nor is it among the worker's payouts that no longer count
  have hown : tx.payoutId ∉ (s.payouts.rows.filter fun r =>
      !r.2.status.counts && r.2.workerId = payee.workerId).map Prod.fst := by
    intro hmem
    obtain ⟨r, hr, heq⟩ := List.mem_map.mp hmem
    have hrow := paid_of_mem (List.mem_filter.mp hr).1
    rw [show r.1 = tx.payoutId from heq, hfresh] at hrow
    cases hrow
  have hunconfirmed : tx.payoutId ∉ s.confirmed := fun hmem =>
    hnotRow (h.sent _ (h.confirmed _ hmem))
  refine ⟨fun id p hid => ?_, ?_, fun g hg => ?_, ?_, fun id hid => ?_, fun id hid => ?_,
    fun g hg hconf => ?_⟩
  · rw [hpaid] at hid
    split at hid
    · cases hid
      exact ⟨hamount ▸ floorPicoinUnits_nonneg hpos, rfl⟩
    · exact h.rows id p hid
  · rw [hsigned, List.map_append]
    refine List.nodup_append.mpr ⟨h.nodup, List.nodup_singleton _, ?_⟩
    rintro a ha b hb rfl
    rw [List.mem_singleton.mp hb] at ha
    exact hnew ha
  · rw [hsigned] at hg
    rcases List.mem_append.mp hg with hg | hg
    · exact (h.covered g hg).frame hstay
    · rw [List.mem_singleton.mp hg]
      exact covered_sign h hstay (by rw [hpaid, if_pos rfl]) hpos hamount hown
  · rw [hsigned]
    refine List.pairwise_append.mpr ⟨h.earlier, List.pairwise_singleton _ _, ?_⟩
    intro a ha b hb hworker
    rw [List.mem_singleton.mp hb] at hworker ⊢
    have := counted_or_released h ha
    rwa [hworker] at this
  · rw [hsent] at hid
    exact hstay.isSome (h.sent id hid)
  · rw [hconfirmed] at hid
    rw [hsent]
    exact h.confirmed id hid
  · rw [hconfirmed] at hconf ⊢
    rw [hsigned] at hg
    rcases List.mem_append.mp hg with hg | hg
    · exact h.once g hg hconf
    · rw [List.mem_singleton.mp hg] at hconf
      exact absurd hconf hunconfirmed

/-! ## The loop over the workers -/

/-- Elements that are rewritten only where the filter drops them. -/
theorem filter_map_of {α : Type} {f : α → α} {p : α → Bool} {l : List α}
    (h : ∀ x ∈ l, f x = x ∨ (p x = false ∧ p (f x) = false)) : (l.map f).filter p = l.filter p := by
  induction l with
  | nil => rfl
  | cons x rest ih =>
    have hrest := ih fun y hy => h y (List.mem_cons_of_mem _ hy)
    rw [List.map_cons, List.filter_cons, List.filter_cons, hrest]
    rcases h x List.mem_cons_self with hsame | ⟨hdrop, hdrop'⟩
    · rw [hsame]
    · rw [hdrop, hdrop']
      rfl

/-- A new payout is none of another worker. -/
theorem paidPayoutRows_sign {pc : PayoutConfig} {s s' : PayoutState} {payee : Payee}
    {tx : PayoutTx} {now : Instant} (h : signPayout pc s payee tx now = some s') {workerId : String}
    (hother : payee.workerId ≠ workerId) : paidPayoutRows s' workerId = paidPayoutRows s workerId := by
  unfold signPayout at h
  dsimp only at h
  split at h
  · cases h
  · obtain ⟨payouts, hinsert, rfl⟩ := Option.map_eq_some_iff.mp h
    obtain ⟨hnone, rfl⟩ := Sql.Table.insert?_eq_some_iff.mp hinsert
    change (Sql.Table.upsertRows _ _ _).filter _ = _
    rw [Sql.Table.upsertRows_of_none hnone, List.filter_append]
    have hnew : ∀ status : PayoutStatus, (status.counts && decide (payee.workerId = workerId)) =
        false := fun status => by rw [decide_eq_false hother, Bool.and_false]
    simp only [List.filter_cons, List.filter_nil, hnew, Bool.false_eq_true, if_false,
      List.append_nil]
    rfl

/-- The status of a payout counts for its own worker only. -/
theorem paidPayoutRows_setPayoutStatus {s : PayoutState} {payoutId : String}
    {status : PayoutStatus} {error : Option String} {workerId : String}
    (hother : ∀ row, s.payouts.find? payoutId = some row → row.workerId ≠ workerId) :
    paidPayoutRows (setPayoutStatus s payoutId status error) workerId =
      paidPayoutRows s workerId := by
  refine filter_map_of fun r hr => ?_
  by_cases hid : r.1 = payoutId
  · have hrow := hother r.2 (hid ▸ Sql.Table.find?_eq_some_iff.mpr hr)
    exact .inr ⟨by simp [hrow], by simp [hid, hrow]⟩
  · exact .inl (by simp [hid])

/-- The pending amount of a worker depends on its counted payouts only. -/
theorem pendingAmount_congr {s s' : PayoutState} {payee : Payee}
    (h : paidPayoutRows s' payee.workerId = paidPayoutRows s payee.workerId) :
    pendingAmount s' payee = pendingAmount s payee := by
  rw [pendingAmount, pendingAmount, h]

/-- What sending a signed payout does. -/
theorem postPayout_keeps {s : PayoutState} {payoutId : String} (hrow : (s.paid payoutId).isSome)
    (received : Bool) (status : PayoutStatus) (error : Option String) :
    KeepsPayouts s (setPayoutStatus (postPayout s payoutId received) payoutId status error) := by
  have hpost : KeepsPayouts s (postPayout s payoutId received) := by
    refine ⟨fun _ => rfl, rfl, fun id hid => ?_, rfl⟩
    rcases List.mem_append.mp hid with hold | hnew
    · exact .inl hold
    · rw [List.mem_singleton.mp hnew]
      exact .inr hrow
  exact hpost.trans (setPayoutStatus_keeps ..)

/-- The payouts to several workers preserve it. -/
theorem payWorkers_invariant {pc : PayoutConfig} {answers : RunAnswers} {now : Instant}
    {pending : Payee → ℤ} :
    ∀ (payees : List (Payee × ℕ)) (nonce remaining : ℤ) (s : PayoutState), PayoutInvariant s →
      (payees.map fun p => p.1.workerId).Nodup →
      (∀ p ∈ payees, 0 < pendingAmount s p.1 ∧
        pending p.1 = decimalToFloat (pendingAmount s p.1)) →
      PayoutInvariant (payWorkers pc answers now pending payees nonce remaining s)
  | [], _, _, _, h, _, _ => h
  | (payee, i) :: rest, nonce, remaining, s, h, hnodup, hpending => by
    have hrest : ∀ p ∈ rest, 0 < pendingAmount s p.1 ∧
        pending p.1 = decimalToFloat (pendingAmount s p.1) :=
      fun p hp => hpending p (List.mem_cons_of_mem _ hp)
    rw [List.map_cons, List.nodup_cons] at hnodup
    obtain ⟨hpos, hamount⟩ := hpending _ List.mem_cons_self
    unfold payWorkers
    split
    · -- the run stops at its own limit
      exact h
    · exact h
    · dsimp only
      split
      · -- the worker is passed over
        exact payWorkers_invariant rest nonce remaining s h hnodup.2 hrest
      · split
        · exact h
        · next s' hsign =>
          have hsigned := h.sign hpos (by rw [← hamount]) hsign
          obtain ⟨-, hpaid, -⟩ := signPayout_eq_some hsign
          have hrow : (s'.paid (answers.payoutIds i)).isSome := by
            rw [hpaid, if_pos rfl]
            rfl
          -- whatever the node answers, the signed payout stays
          have hposted : ∀ status error, PayoutInvariant (setPayoutStatus
              (postPayout s' (answers.payoutIds i) (answers.received (answers.payoutIds i)))
              (answers.payoutIds i) status error) := fun status error =>
            hsigned.keep (postPayout_keeps hrow _ status error) fun id hid =>
              List.mem_append_left _ hid
          split
          · -- the other workers are owed what they were owed
            refine payWorkers_invariant rest _ _ _ (hposted _ _) hnodup.2 fun p hp => ?_
            have hother : payee.workerId ≠ p.1.workerId := by
              intro heq
              exact hnodup.1 (heq ▸ List.mem_map.mpr ⟨p, hp, rfl⟩)
            have hsame : paidPayoutRows (setPayoutStatus (postPayout s' (answers.payoutIds i)
                (answers.received (answers.payoutIds i))) (answers.payoutIds i) .submitted none)
                p.1.workerId = paidPayoutRows s p.1.workerId := by
              refine (paidPayoutRows_setPayoutStatus fun row hfind => ?_).trans
                (paidPayoutRows_sign hsign hother)
              have hcolumns := hpaid (answers.payoutIds i)
              rw [if_pos rfl, PayoutState.paid,
                show s'.payouts.find? (answers.payoutIds i) = some row from hfind] at hcolumns
              have hworker : row.workerId = payee.workerId :=
                congrArg Prod.fst (Option.some.inj hcolumns)
              rw [hworker]
              exact hother
            rw [pendingAmount_congr hsame]
            exact hrest p hp
          · exact hposted _ _
          · exact hposted _ _

/-- The payees are the workers of the table. -/
theorem map_workerId_payeesOf (workers : Sql.Table String (Option String × ℚ)) :
    (payeesOf workers).map Payee.workerId = workers.rows.map Prod.fst := by
  rw [payeesOf, List.map_map]
  rfl

/-- A run of payouts preserves it. -/
theorem PayoutInvariant.runPayouts {pc : PayoutConfig} {answers : RunAnswers}
    {workers : Sql.Table String (Option String × ℚ)} {now : Instant} {s : PayoutState}
    (h : PayoutInvariant s) : PayoutInvariant (runPayouts pc answers workers now s) := by
  have hreconciled : PayoutInvariant
      (reconcilePayoutStatuses pc answers.lookups answers.healthy now s) :=
    h.keep (reconcilePayoutStatuses_keeps ..) fun id hid => by
      rwa [reconcilePayoutStatuses_sent]
  unfold Pool.runPayouts
  generalize reconcilePayoutStatuses pc answers.lookups answers.healthy now s = s₁ at hreconciled
  dsimp only
  split
  · exact hreconciled
  · split
    · exact hreconciled
    · refine payWorkers_invariant _ _ _ _ hreconciled ?_ fun p hp => ⟨?_, rfl⟩
      · have hfst : ∀ l : List Payee, (l.zipIdx.map fun p => p.1.workerId) =
            l.map Payee.workerId := fun l => by
          change l.zipIdx.map (Payee.workerId ∘ Prod.fst) = l.map Payee.workerId
          rw [← List.map_map, List.zipIdx_map_fst]
        rw [hfst]
        refine ((List.perm_insertionSort _ _).map _).nodup_iff.mpr ?_
        refine (List.Sublist.map _ List.filter_sublist).nodup ?_
        rw [map_workerId_payeesOf]
        exact workers.nodup
      · have hmem := (List.mem_insertionSort _).mp (List.fst_mem_of_mem_zipIdx hp)
        have hpayable := (List.mem_filter.mp hmem).2
        simp only [payable, Bool.and_eq_true, decide_eq_true_eq] at hpayable
        exact hpayable.1.1

/-! ## Runs -/

/-- The chain does not confirm a payout that had been released when a confirmed one of the worker
was signed, nor one that was signed when a confirmed one had been released. -/
def NoReleasedPaid (s : PayoutState) : PayoutEvent → Prop
  | .confirm payoutId => payoutId ∈ s.sent → nonceFree s payoutId = true → ∀ g ∈ s.signed,
    (g.payoutId ∈ s.confirmed → payoutId ∉ g.released) ∧
      (g.payoutId = payoutId → ∀ id ∈ g.released, id ∉ s.confirmed)
  | _ => True

/-- The condition can be checked along a run. -/
instance decidableNoReleasedPaid (s : PayoutState) : ∀ event, Decidable (NoReleasedPaid s event)
  | .confirm payoutId => inferInstanceAs (Decidable (payoutId ∈ s.sent →
      nonceFree s payoutId = true → ∀ g ∈ s.signed, (g.payoutId ∈ s.confirmed → payoutId ∉ g.released) ∧
        (g.payoutId = payoutId → ∀ id ∈ g.released, id ∉ s.confirmed)))
  | .runPayouts .. | .reconcile .. | .receive _ | .drop _ => .isTrue trivial

/-- A confirmation preserves it, where no released payout is confirmed. -/
theorem PayoutInvariant.confirm {s : PayoutState} {payoutId : String} (h : PayoutInvariant s)
    (hpaid : NoReleasedPaid s (.confirm payoutId)) : PayoutInvariant (confirmPayout s payoutId) := by
  unfold confirmPayout
  split
  · next hopen =>
    refine { h with
      covered := fun g hg => { h.covered g hg with }
      confirmed := fun id hid => ?_
      once := fun g hg hconf id hid hmem => ?_ }
    · rcases List.mem_append.mp hid with hold | hnew
      · exact h.confirmed id hold
      · rw [List.mem_singleton.mp hnew]
        exact hopen.1
    · obtain ⟨hbefore, hafter⟩ := hpaid hopen.1 hopen.2 g hg
      rcases List.mem_append.mp hconf with hconf | hconf <;>
        rcases List.mem_append.mp hmem with hmem | hmem
      · exact h.once g hg hconf id hid hmem
      · exact hbefore hconf (List.mem_singleton.mp hmem ▸ hid)
      · exact hafter (List.mem_singleton.mp hconf) id hid hmem
      · -- a payout is not released before it is signed
        rw [List.mem_singleton.mp hmem] at hid
        rw [← List.mem_singleton.mp hconf] at hid
        exact (h.covered g hg).own hid
  · exact h

/-- Every event preserves it under this condition. -/
theorem payoutStep_invariant (pc : PayoutConfig) (s : PayoutState) (event : PayoutEvent)
    (h : PayoutInvariant s) (hpaid : NoReleasedPaid s event) :
    PayoutInvariant (payoutStep pc s event) := by
  cases event with
  | runPayouts answers workers now => exact h.runPayouts
  | reconcile answers healthy now =>
    refine h.keep (reconcilePayoutStatuses_keeps ..) fun id hid => ?_
    change id ∈ (reconcilePayoutStatuses pc answers healthy now s).sent
    rwa [reconcilePayoutStatuses_sent]
  | receive payoutId =>
    rw [payoutStep]
    split
    · exact h.keep ⟨fun _ => rfl, rfl, fun _ h => .inl h, rfl⟩ fun _ h => h
    · exact h
  | drop payoutId => exact h.keep ⟨fun _ => rfl, rfl, fun _ h => .inl h, rfl⟩ fun _ h => h
  | confirm payoutId => exact h.confirm hpaid

/-- The units of a worker's payouts that the chain has confirmed. -/
def confirmedUnits (s : PayoutState) (workerId : String) : ℤ :=
  ((s.signed.filter fun g => g.workerId = workerId && g.payoutId ∈ s.confirmed).map
    Signing.amountUnits).sum

/-- What is confirmed for a worker is within what the worker was entitled to when the last of its
confirmed payouts was signed. -/
def WithinEntitlement (s : PayoutState) : Prop :=
  ∀ before g after, s.signed = before ++ g :: after → g.payoutId ∈ s.confirmed →
    (∀ r ∈ after, r.workerId = g.workerId → r.payoutId ∉ s.confirmed) →
      (confirmedUnits s g.workerId : ℚ) ≤ g.net * 10 ^ 6

/-- The confirmed payouts that were signed earlier all counted as paid. -/
theorem PayoutInvariant.within {s : PayoutState} (h : PayoutInvariant s) : WithinEntitlement s := by
  intro before g after hsigned hconf hlast
  have hg : g ∈ s.signed := by simp [hsigned]
  have hpairs := h.earlier
  rw [hsigned] at hpairs
  have hearlier := (List.pairwise_append.mp hpairs).2.2
  let paid : Signing → Bool := fun r => r.workerId = g.workerId && r.payoutId ∈ s.confirmed
  have hmem : ∀ r ∈ before.filter paid, r ∈ s.signed ∧ r.payoutId ∈ g.counted := by
    intro r hr
    obtain ⟨hr, hpaid⟩ := List.mem_filter.mp hr
    simp only [paid, Bool.and_eq_true, decide_eq_true_eq] at hpaid
    have hin : r ∈ s.signed := by simp [hsigned, hr]
    refine ⟨hin, (hearlier r hr g List.mem_cons_self hpaid.1).resolve_right fun hreleased => ?_⟩
    exact h.once g hg hconf _ hreleased hpaid.2
  have hunits : ∀ r ∈ s.signed, s.units r.payoutId = r.amountUnits := by
    intro r hr
    obtain ⟨amount, hrow⟩ := (h.covered r hr).row
    rw [PayoutState.units, hrow]
    rfl
  have hnonneg : ∀ id ∈ g.counted, 0 ≤ s.units id := by
    intro id hid
    obtain ⟨p, hp⟩ := Option.isSome_iff_exists.mp ((h.covered g hg).known id hid)
    rw [PayoutState.units, hp]
    exact (h.rows id p hp).1
  -- distinct payouts that all counted
  have hsum : ((before.filter paid).map Signing.amountUnits).sum ≤ (g.counted.map s.units).sum := by
    have hids : ((before.filter paid).map Signing.payoutId).Nodup := by
      have hnodup := h.nodup
      rw [hsigned, List.map_append] at hnodup
      exact (List.Sublist.map _ List.filter_sublist).nodup (List.nodup_append.mp hnodup).1
    have heq : ((before.filter paid).map Signing.amountUnits).sum =
        (((before.filter paid).map Signing.payoutId).map s.units).sum := by
      rw [List.map_map]
      exact congrArg List.sum (List.map_congr_left fun r hr => (hunits r (hmem r hr).1).symm)
    rw [heq, ← List.sum_toFinset _ hids, ← List.sum_toFinset _ (h.covered g hg).nodup]
    refine Finset.sum_le_sum_of_subset_of_nonneg (fun id hid => ?_) fun id hid _ =>
      hnonneg id (List.mem_toFinset.mp hid)
    obtain ⟨r, hr, rfl⟩ := List.mem_map.mp (List.mem_toFinset.mp hid)
    exact List.mem_toFinset.mpr (hmem r hr).2
  have htotal : confirmedUnits s g.workerId =
      ((before.filter paid).map Signing.amountUnits).sum + g.amountUnits := by
    have hself : paid g = true := by simp [paid, hconf]
    have hafter : after.filter paid = [] := by
      refine List.filter_eq_nil_iff.mpr fun r hr hpaid => ?_
      simp only [paid, Bool.and_eq_true, decide_eq_true_eq] at hpaid
      exact hlast r hr hpaid.1 hpaid.2
    change ((s.signed.filter paid).map Signing.amountUnits).sum = _
    rw [hsigned, List.filter_append, List.filter_cons_of_pos hself, hafter]
    simp
  have hbound := (h.covered g hg).bound
  refine le_trans ?_ hbound
  rw [htotal]
  exact_mod_cast by linarith

/-- **No double pool payout**, in every run where the chain confirms no payout that had been
released when a confirmed one was signed. -/
theorem payouts_within_entitlement_of_run (pc : PayoutConfig) (events : List PayoutEvent)
    (hpaid : EachStep (payoutStep pc) NoReleasedPaid .empty events) :
    ∀ s ∈ states (payoutStep pc) .empty events, WithinEntitlement s := fun s hs =>
  (invariant_of_eachStep (fun s event h => payoutStep_invariant pc s event h) events .empty .empty
    hpaid s hs).within

/-! ## A payout that comes back -/

/-- A pool that pays without a fee and gives a payout up after a second. -/
def localPayouts : PayoutConfig where
  toPoolConfig := { localPool with isValidAddress := fun _ => true }
  payoutMinAmount := 10 ^ 7
  payoutFee := 0
  payoutConfirmationGraceSeconds := 1
  signedTxHash tx := tx.payoutId

/-- A node that answers everything, or that does not answer to what it is sent. -/
def localAnswers (payoutIds : ℕ → String) (answer : PostAnswer) (received : Bool) : RunAnswers where
  lookups _ := none
  healthy := true
  nonceAnswered := true
  balance := some (10 ^ 9)
  payoutIds := payoutIds
  posts _ := (answer, .none)
  received _ := received

/-- The worker `ann`, who is owed one coin. -/
def annAlone : Sql.Table String (Option String × ℚ) := ⟨[("ann", some "A", 1)], by decide⟩

/-- The same with a worker who is owed two. -/
def annAndBob : Sql.Table String (Option String × ℚ) :=
  ⟨[("ann", some "A", 1), ("bob", some "B", 2)], by decide⟩

/-- A payout is lost and released, and the worker is paid again behind another worker; the chain
confirms the two that have arrived. -/
def localPayoutRun : List PayoutEvent :=
  [.runPayouts (localAnswers (fun _ => "pay_1") .none false) annAlone 0,
    .reconcile (fun _ => some ⟨some "not_found", none, none, false⟩) true (seconds 2),
    .runPayouts (localAnswers (fun i => if i = 0 then "pay_2" else "pay_3") (.http 200 true) true)
      annAndBob (seconds 3),
    .confirm "pay_2",
    .confirm "pay_3"]

/-- A payout is lost and released; the worker is paid again behind another worker; then the chain
confirms the first payout after all. -/
def lostPayoutRun : List PayoutEvent :=
  [.runPayouts (localAnswers (fun _ => "pay_1") .none false) annAlone 0,
    .reconcile (fun _ => some ⟨some "not_found", none, none, false⟩) true (seconds 2),
    .runPayouts (localAnswers (fun i => if i = 0 then "pay_2" else "pay_3") (.http 200 true) true)
      annAndBob (seconds 3),
    .confirm "pay_1",
    .confirm "pay_3"]

/-- A payout is released, signed again and confirmed. -/
theorem payouts_within_entitlement_local :
    let last := localPayoutRun.foldl (payoutStep localPayouts) .empty
    (last.signed.map fun g => g.payoutId) = ["pay_1", "pay_2", "pay_3"] ∧
      last.confirmed = ["pay_2", "pay_3"] ∧
      ∀ s ∈ states (payoutStep localPayouts) .empty localPayoutRun, WithinEntitlement s := by
  have h : EachStep (payoutStep localPayouts) NoReleasedPaid .empty localPayoutRun := by
    decide +kernel
  exact ⟨by decide +kernel, by decide +kernel,
    payouts_within_entitlement_of_run localPayouts localPayoutRun h⟩

/-- The worker is paid twice. -/
theorem released_payout_confirmed :
    ¬ ∀ (pc : PayoutConfig) (events : List PayoutEvent),
      ∀ s ∈ states (payoutStep pc) .empty events, WithinEntitlement s := by
  intro hall
  have hwithin := hall localPayouts lostPayoutRun _ (foldl_mem_states _ _ _)
  have hsigned : (lostPayoutRun.foldl (payoutStep localPayouts) .empty).signed =
      [⟨"pay_1", "ann", 10 ^ 6, 1, [], []⟩, ⟨"pay_2", "bob", 2 * 10 ^ 6, 2, [], []⟩] ++
        ⟨"pay_3", "ann", 10 ^ 6, 1, [], ["pay_1"]⟩ :: [] := by decide +kernel
  have hconfirmed : (lostPayoutRun.foldl (payoutStep localPayouts) .empty).confirmed =
      ["pay_1", "pay_3"] := by decide +kernel
  have hle := hwithin _ _ _ hsigned (by rw [hconfirmed]; decide) fun _ h => nomatch h
  have htwice : confirmedUnits (lostPayoutRun.foldl (payoutStep localPayouts) .empty) "ann" =
      2 * 10 ^ 6 := by
    rw [confirmedUnits, hsigned, hconfirmed]
    decide
  rw [htwice] at hle
  norm_num at hle

end Picoin.Pool
