import Picoin.Services.Mempool

/-!
# A selection is admissible

The selection of a block goes over the pending rows pass after pass. What it has taken so far decides
the next nonce of a sender and what is left of a balance; both maps of the loop are functions of the
list (`Admits`), which gives safety. The last pass takes nothing, so that each of its rows meets the
list that is returned: it is in the list, has failed, or is held back by a gap or by the balance
(`Settled`), which gives maximality.

* **`considerTransaction_cases`** — what one row of a pass can do;
* **`admits_runSelection`** — the invariant of the loop;
* **`selection_admissible`** — both statements about the list.
-/

namespace Picoin

variable {cfg : Config} {now : Instant} {s : NodeState} {maxCount : ℕ}

/-! ## What the list says -/

/-- The number of transactions of a sender. -/
def senderCount (selected : List Tx) (a : String) : ℕ := selected.countP fun tx => tx.sender = a

/-- What the transactions of a sender take from its balance. -/
def senderDebits (selected : List Tx) (a : String) : ℤ :=
  ((selected.filter fun tx => tx.sender = a).map totalDebitUnits).sum

/-- The nonces of a sender, in order. -/
def senderNonces (selected : List Tx) (a : String) : List ℤ :=
  (selected.filter fun tx => tx.sender = a).map Tx.nonce

/-- The next nonce of the sender is missing, or its balance does not cover the transaction. -/
def Blocked (s : NodeState) (selected : List Tx) (tx : Tx) : Prop :=
  confirmedNonce s tx.sender + 1 + senderCount selected tx.sender < tx.nonce ∨
    s.ledger.balanceUnits tx.sender < senderDebits selected tx.sender + totalDebitUnits tx

/-- The row of the transaction is marked as failed. -/
def Failed (mempool : Mempool) (txHash : String) : Prop :=
  ∃ row, mempool.find? txHash = some row ∧ row.status = .failed

theorem senderCount_append (selected : List Tx) (tx : Tx) (a : String) :
    senderCount (selected ++ [tx]) a = senderCount selected a + if tx.sender = a then 1 else 0 := by
  unfold senderCount
  rw [List.countP_append, List.countP_singleton]
  simp

theorem senderDebits_append (selected : List Tx) (tx : Tx) (a : String) :
    senderDebits (selected ++ [tx]) a =
      senderDebits selected a + if tx.sender = a then totalDebitUnits tx else 0 := by
  unfold senderDebits
  rw [List.filter_append, List.map_append, List.sum_append, List.filter_singleton]
  by_cases h : tx.sender = a <;> simp [h]

theorem senderNonces_append (selected : List Tx) (tx : Tx) (a : String) :
    senderNonces (selected ++ [tx]) a =
      senderNonces selected a ++ if tx.sender = a then [tx.nonce] else [] := by
  unfold senderNonces
  rw [List.filter_append, List.map_append, List.filter_singleton]
  by_cases h : tx.sender = a <;> simp [h]

/-! ## Rows that fail -/

theorem exists_pending_row {mempool : Mempool} {tx : Tx} (h : tx ∈ pendingTransactions mempool) :
    ∃ row, mempool.find? tx.txHash = some row ∧ row.status = .pending := by
  unfold pendingTransactions at h
  obtain ⟨r, hr, rfl⟩ := List.mem_map.mp ((List.mem_insertionSort _).mp h)
  obtain ⟨hmem, hstatus⟩ := List.mem_filter.mp hr
  exact ⟨r.2, Sql.Table.find?_eq_some_iff.mpr hmem, of_decide_eq_true hstatus⟩

theorem find?_failTransaction (mempool : Mempool) (txHash reason k : String) :
    (failTransaction mempool txHash reason).find? k = if k = txHash then
      (mempool.find? txHash).map fun row => { row with status := .failed, failureReason := some reason }
      else mempool.find? k := by
  unfold failTransaction
  by_cases h : k = txHash
  · rw [if_pos h, Sql.Table.find?_modify, if_pos h]
  · rw [if_neg h, Sql.Table.find?_modify, if_neg h]

theorem Failed.fail {mempool : Mempool} {k : String} (h : Failed mempool k) (txHash reason : String) :
    Failed (failTransaction mempool txHash reason) k := by
  obtain ⟨row, hrow, hstatus⟩ := h
  unfold Failed
  rw [find?_failTransaction]
  split
  · rename_i heq
    rw [← heq, hrow]
    exact ⟨_, rfl, rfl⟩
  · exact ⟨row, hrow, hstatus⟩

/-- A row that is not confirmed can fail without a change to the confirmed nonces. -/
theorem confirmedMempoolNonce_fail {mempool : Mempool} {txHash : String}
    (h : ∀ row, mempool.find? txHash = some row → row.status ≠ .confirmed) (reason a : String) :
    confirmedMempoolNonce (failTransaction mempool txHash reason) a =
      confirmedMempoolNonce mempool a := by
  have hrows : ∀ rows : List (String × MempoolRow),
      (∀ r ∈ rows, r.1 = txHash → r.2.status ≠ .confirmed) →
      ((rows.map fun r => (r.1, if r.1 = txHash then
          { r.2 with status := MempoolStatus.failed, failureReason := some reason } else r.2)).map
            Prod.snd).filter (fun row => row.tx.sender = a && row.status = .confirmed) =
        (rows.map Prod.snd).filter fun row => row.tx.sender = a && row.status = .confirmed := by
    intro rows hstatus
    induction rows with
    | nil => rfl
    | cons r rest ih =>
      have hrest := ih fun x hx => hstatus x (List.mem_cons_of_mem r hx)
      by_cases hr : r.1 = txHash
      · have hne := hstatus r List.mem_cons_self hr
        simpa [List.filter_cons, hr, hne] using hrest
      · simp only [List.map_cons, if_neg hr, List.filter_cons]
        rw [hrest]
  have hkeys : ∀ r ∈ mempool.rows, r.1 = txHash → r.2.status ≠ .confirmed := by
    intro r hr heq
    exact h r.2 (Sql.Table.find?_eq_some_iff.mpr (by rw [← heq]; exact hr))
  unfold confirmedMempoolNonce
  have hmap := hrows mempool.rows hkeys
  dsimp only [failTransaction, Sql.Table.modify, Sql.Table.mapRows]
  rw [hmap]

/-! ## The invariant -/

/-- The maps of the loop are what the list says, and the list is admissible. -/
structure Admits (s : NodeState) (maxCount : ℕ) (sel : Selection) : Prop where
  length_le : sel.selected.length ≤ maxCount
  nodup : (sel.selected.map Tx.txHash).Nodup
  nonces : ∀ a, senderNonces sel.selected a = (List.range (senderCount sel.selected a)).map
    fun i : ℕ => confirmedNonce s a + 1 + (i : ℤ)
  covered : ∀ tx ∈ sel.selected,
    senderDebits sel.selected tx.sender ≤ s.ledger.balanceUnits tx.sender
  expected : ∀ a, (sel.expected a).getD (confirmedNonce s a + 1) =
    confirmedNonce s a + 1 + senderCount sel.selected a
  reserved : ∀ a, sel.reservedUnits a = senderDebits sel.selected a
  confirmed : ∀ a, confirmedMempoolNonce sel.mempool a = confirmedMempoolNonce s.mempool a
  rows : ∀ txHash row, s.mempool.find? txHash = some row → row.status = .pending →
    ∃ row', sel.mempool.find? txHash = some row' ∧ (row'.status = .pending ∨ row'.status = .failed)

theorem Admits.empty (s : NodeState) (maxCount : ℕ) : Admits s maxCount (emptySelection s.mempool) where
  length_le := Nat.zero_le _
  nodup := List.nodup_nil
  nonces _ := rfl
  covered _ h := nomatch h
  expected a := (add_zero (confirmedNonce s a + 1)).symm
  reserved _ := rfl
  confirmed _ := rfl
  rows _ row hrow hstatus := ⟨row, hrow, .inl hstatus⟩

theorem Admits.expectedNonce {sel : Selection} (h : Admits s maxCount sel) (a : String) :
    expectedNonce { s with mempool := sel.mempool } sel.expected a =
      confirmedNonce s a + 1 + senderCount sel.selected a := by
  have hconfirmed : confirmedNonce { s with mempool := sel.mempool } a = confirmedNonce s a :=
    congrArg (max _) (h.confirmed a)
  unfold Picoin.expectedNonce nextSelectableNonce
  rw [hconfirmed]
  exact h.expected a

theorem Admits.fail {sel : Selection} (h : Admits s maxCount sel) {tx : Tx}
    (htx : tx ∈ pendingTransactions s.mempool) (reason : String) :
    Admits s maxCount (sel.fail tx reason) := by
  obtain ⟨row, hrow, hstatus⟩ := exists_pending_row htx
  obtain ⟨row', hrow', hstatus'⟩ := h.rows _ row hrow hstatus
  refine { h with confirmed := fun a => ?_, rows := fun txHash old hold hpending => ?_ }
  · refine (confirmedMempoolNonce_fail (fun other hother => ?_) reason a).trans (h.confirmed a)
    rw [hrow'] at hother
    cases hother
    rcases hstatus' with hpending | hfailed
    · rw [hpending]
      decide
    · rw [hfailed]
      decide
  · obtain ⟨new, hnew, hnow⟩ := h.rows txHash old hold hpending
    show ∃ row', (failTransaction sel.mempool tx.txHash reason).find? txHash = some row' ∧ _
    rw [find?_failTransaction]
    split
    · rename_i heq
      rw [← heq, hnew]
      exact ⟨_, rfl, .inr rfl⟩
    · exact ⟨new, hnew, hnow⟩

/-- A transaction with the next nonce of its sender that the balance covers is taken. -/
theorem Admits.take {sel : Selection} (h : Admits s maxCount sel) {tx : Tx}
    (hroom : sel.selected.length < maxCount) (hnew : tx.txHash ∉ sel.selected.map Tx.txHash)
    (hnonce : tx.nonce = confirmedNonce s tx.sender + 1 + senderCount sel.selected tx.sender)
    (hcovers : senderDebits sel.selected tx.sender + totalDebitUnits tx ≤
      s.ledger.balanceUnits tx.sender) :
    Admits s maxCount (sel.take tx) where
  length_le := by
    show (sel.selected ++ [tx]).length ≤ maxCount
    rw [List.length_append, List.length_singleton]
    exact hroom
  nodup := by
    show ((sel.selected ++ [tx]).map Tx.txHash).Nodup
    rw [List.map_append]
    exact List.Nodup.append h.nodup (List.nodup_singleton _)
      (List.disjoint_singleton.mpr hnew)
  nonces a := by
    show senderNonces (sel.selected ++ [tx]) a = (List.range (senderCount (sel.selected ++ [tx]) a)).map _
    rw [senderNonces_append, senderCount_append, h.nonces]
    split
    · rename_i hsender
      rw [List.range_succ, List.map_append, hnonce, hsender]
      rfl
    · rw [List.append_nil, add_zero]
  covered other hother := by
    show senderDebits (sel.selected ++ [tx]) other.sender ≤ _
    rw [senderDebits_append]
    split
    · rename_i hsender
      rw [← hsender]
      exact hcovers
    -- the debits of the other senders are as before
    · rename_i hsender
      rw [add_zero]
      rcases List.mem_append.mp hother with hold | hlast
      · exact h.covered other hold
      · exact absurd (congrArg Tx.sender (List.mem_singleton.mp hlast)).symm hsender
  expected a := by
    show ((sel.expected.set tx.sender (tx.nonce + 1)) a).getD _ =
      confirmedNonce s a + 1 + (senderCount (sel.selected ++ [tx]) a : ℤ)
    rw [senderCount_append]
    unfold ExpectedNonces.set
    by_cases hsender : a = tx.sender
    · rw [if_pos hsender, if_pos hsender.symm, Option.getD_some, hnonce, hsender]
      push_cast
      ring
    · rw [if_neg hsender, if_neg (Ne.symm hsender)]
      exact h.expected a
  reserved a := by
    show sel.reservedUnits a + _ = senderDebits (sel.selected ++ [tx]) a
    rw [senderDebits_append, h.reserved]
    simp only [eq_comm]
  confirmed := h.confirmed
  rows := h.rows

/-! ## One row -/

/-- A row is left for a reason, fails, or is taken with the next nonce and a covered debit. -/
theorem considerTransaction_cases (cfg : Config) (now : Instant) {sel : Selection} (h : Admits s maxCount sel) (tx : Tx) :
    (considerTransaction cfg now s maxCount sel tx = sel ∧
      (maxCount ≤ sel.selected.length ∨ tx.txHash ∈ sel.selected.map Tx.txHash ∨
        Blocked s sel.selected tx)) ∨
    (∃ reason, considerTransaction cfg now s maxCount sel tx = sel.fail tx reason) ∨
    (considerTransaction cfg now s maxCount sel tx = sel.take tx ∧
      Admits s maxCount (sel.take tx)) := by
  unfold considerTransaction
  dsimp only
  rw [h.expectedNonce]
  split
  · rename_i hstop
    exact .inl ⟨rfl, hstop.imp_right .inl⟩
  · rename_i hgo
    obtain ⟨hroom, hnew⟩ := not_or.mp hgo
    split
    · exact .inr (.inl ⟨_, rfl⟩)
    · split
      · exact .inr (.inl ⟨_, rfl⟩)
      · rename_i hlow
        split
        · rename_i hgap
          exact .inl ⟨rfl, .inr (.inr (.inl hgap))⟩
        · rename_i hhigh
          split
          · exact .inr (.inl ⟨_, rfl⟩)
          · rw [h.reserved]
            split
            · rename_i hshort
              exact .inl ⟨rfl, .inr (.inr (.inr hshort))⟩
            · rename_i hcovers
              exact .inr (.inr ⟨rfl, h.take (not_le.mp hroom) hnew
                (le_antisymm (not_lt.mp hhigh) (not_lt.mp hlow)) (not_lt.mp hcovers)⟩)

theorem Admits.consider (cfg : Config) (now : Instant) {sel : Selection} (h : Admits s maxCount sel) {tx : Tx}
    (htx : tx ∈ pendingTransactions s.mempool) :
    Admits s maxCount (considerTransaction cfg now s maxCount sel tx) := by
  rcases considerTransaction_cases cfg now h tx with
    ⟨hsame, -⟩ | ⟨reason, hfail⟩ | ⟨htake, hadmits⟩
  · rw [hsame]
    exact h
  · rw [hfail]
    exact h.fail htx reason
  · rw [htake]
    exact hadmits

/-! ## One pass -/

/-- What becomes of a pending transaction: it is in the list, has failed, or is held back. -/
def Settled (s : NodeState) (sel : Selection) (tx : Tx) : Prop :=
  tx.txHash ∈ sel.selected.map Tx.txHash ∨ Failed sel.mempool tx.txHash ∨ Blocked s sel.selected tx

theorem progress_consider (sel : Selection) (tx : Tx) (h : sel.progress = true) :
    (considerTransaction cfg now s maxCount sel tx).progress = true := by
  unfold considerTransaction
  dsimp only
  repeat' split
  all_goals first | exact h | rfl

theorem failed_consider {sel : Selection} {k : String} (h : Failed sel.mempool k) (tx : Tx) :
    Failed (considerTransaction cfg now s maxCount sel tx).mempool k := by
  unfold considerTransaction
  dsimp only
  repeat' split
  all_goals first | exact h | exact h.fail _ _

theorem progress_pass {rows : List Tx} {sel : Selection} (h : sel.progress = true) :
    (rows.foldl (considerTransaction cfg now s maxCount) sel).progress = true := by
  induction rows generalizing sel with
  | nil => exact h
  | cons tx rest ih => exact ih (progress_consider sel tx h)

theorem failed_pass {rows : List Tx} {sel : Selection} {k : String} (h : Failed sel.mempool k) :
    Failed (rows.foldl (considerTransaction cfg now s maxCount) sel).mempool k := by
  induction rows generalizing sel with
  | nil => exact h
  | cons tx rest ih => exact ih (failed_consider h tx)

theorem Admits.pass (cfg : Config) (now : Instant) {rows : List Tx} {sel : Selection}
    (h : Admits s maxCount sel) (hrows : ∀ tx ∈ rows, tx ∈ pendingTransactions s.mempool) :
    Admits s maxCount (rows.foldl (considerTransaction cfg now s maxCount) sel) := by
  induction rows generalizing sel with
  | nil => exact h
  | cons tx rest ih =>
    exact ih (h.consider cfg now (hrows tx List.mem_cons_self))
      fun other hother => hrows other (List.mem_cons_of_mem _ hother)

/-- A pass takes nothing or makes progress and the list longer. -/
theorem length_pass (cfg : Config) (now : Instant) {rows : List Tx} {sel : Selection}
    (h : Admits s maxCount sel) (hrows : ∀ tx ∈ rows, tx ∈ pendingTransactions s.mempool) :
    let sel' := rows.foldl (considerTransaction cfg now s maxCount) sel
    sel.selected.length ≤ sel'.selected.length ∧
      (sel.progress = false → sel'.progress = true → sel.selected.length < sel'.selected.length) := by
  induction rows generalizing sel with
  | nil => exact ⟨le_rfl, fun hno hyes => absurd (hno.symm.trans hyes) (by decide)⟩
  | cons tx rest ih =>
    have hnext := h.consider cfg now (hrows tx List.mem_cons_self)
    obtain ⟨hle, hlt⟩ := ih hnext fun other hother => hrows other (List.mem_cons_of_mem _ hother)
    rcases considerTransaction_cases cfg now h tx with
      ⟨hsame, -⟩ | ⟨reason, hfail⟩ | ⟨htake, -⟩
    · rw [hsame] at hle hlt
      rw [List.foldl_cons, hsame]
      exact ⟨hle, hlt⟩
    · rw [hfail] at hle hlt
      rw [List.foldl_cons, hfail]
      exact ⟨hle, hlt⟩
    · rw [htake] at hle
      rw [List.foldl_cons, htake]
      have hlonger : sel.selected.length < (sel.take tx).selected.length := by
        show _ < (sel.selected ++ [tx]).length
        rw [List.length_append, List.length_singleton]
        exact Nat.lt_succ_self _
      exact ⟨hlonger.le.trans hle, fun _ _ => hlonger.trans_le hle⟩

/-- A pass without progress leaves the list, and meets a settled transaction in each row. -/
theorem settled_pass {rows : List Tx} {sel : Selection} (h : Admits s maxCount sel)
    (hroom : sel.selected.length < maxCount)
    (hrows : ∀ tx ∈ rows, tx ∈ pendingTransactions s.mempool)
    (hno : (rows.foldl (considerTransaction cfg now s maxCount) sel).progress = false) :
    (rows.foldl (considerTransaction cfg now s maxCount) sel).selected = sel.selected ∧
      ∀ tx ∈ rows, Settled s (rows.foldl (considerTransaction cfg now s maxCount) sel) tx := by
  induction rows generalizing sel with
  | nil => exact ⟨rfl, fun _ hmem => nomatch hmem⟩
  | cons tx rest ih =>
    have hpending := hrows tx List.mem_cons_self
    have hrest : ∀ other ∈ rest, other ∈ pendingTransactions s.mempool :=
      fun other hother => hrows other (List.mem_cons_of_mem _ hother)
    rw [List.foldl_cons] at hno ⊢
    rcases considerTransaction_cases cfg now h tx with
      ⟨hsame, hreason⟩ | ⟨reason, hfail⟩ | ⟨htake, -⟩
    -- left for a reason that the rest of the pass does not take away
    · rw [hsame] at hno ⊢
      obtain ⟨hlist, hall⟩ := ih h hroom hrest hno
      refine ⟨hlist, fun other hother => ?_⟩
      rcases List.mem_cons.mp hother with rfl | hother
      · unfold Settled
        rw [hlist]
        rcases hreason with hfull | hin | hblocked
        · exact absurd hroom (not_lt.mpr hfull)
        · exact .inl hin
        · exact .inr (.inr hblocked)
      · exact hall other hother
    · rw [hfail] at hno ⊢
      obtain ⟨hlist, hall⟩ := ih (h.fail hpending reason) hroom hrest hno
      refine ⟨hlist, fun other hother => ?_⟩
      rcases List.mem_cons.mp hother with rfl | hother
      · -- what has failed stays failed
        refine .inr (.inl (failed_pass ?_))
        obtain ⟨row, hrow, hstatus⟩ := exists_pending_row hpending
        obtain ⟨row', hrow', -⟩ := h.rows _ row hrow hstatus
        show Failed (failTransaction sel.mempool other.txHash reason) other.txHash
        unfold Failed
        rw [find?_failTransaction, if_pos rfl, hrow']
        exact ⟨_, rfl, rfl⟩
      · exact hall other hother
    -- a transaction that is taken is progress
    · rw [htake] at hno
      have hyes : (rest.foldl (considerTransaction cfg now s maxCount) (sel.take tx)).progress = true :=
        progress_pass rfl
      rw [hno] at hyes
      cases hyes

/-! ## All passes -/

theorem Admits.withoutProgress {sel : Selection} (h : Admits s maxCount sel) :
    Admits s maxCount { sel with progress := false } :=
  ⟨h.length_le, h.nodup, h.nonces, h.covered, h.expected, h.reserved, h.confirmed, h.rows⟩

/-- The passes keep the invariant; where they end with room left, every row is settled. -/
theorem selectionPasses_spec (fuel : ℕ) {sel : Selection} (h : Admits s maxCount sel)
    (hfuel : maxCount ≤ sel.selected.length + fuel) :
    let sel' := selectionPasses cfg now s maxCount (pendingTransactions s.mempool) fuel sel
    Admits s maxCount sel' ∧ (sel'.selected.length < maxCount →
      ∀ tx ∈ pendingTransactions s.mempool, Settled s sel' tx) := by
  induction fuel generalizing sel with
  | zero =>
    exact ⟨h, fun hroom => absurd hroom (not_lt.mpr hfuel)⟩
  | succ fuel ih =>
    have hstart := h.withoutProgress
    have hadmits := hstart.pass cfg now (fun _ htx => htx)
    have hlength := length_pass cfg now hstart (fun _ htx => htx)
    unfold selectionPasses
    dsimp only
    split
    · rename_i hgo
      refine ih hadmits ?_
      have hlonger := hlength.2 rfl hgo.1
      change sel.selected.length < (selectionPass cfg now s maxCount _ sel).selected.length at hlonger
      omega
    · rename_i hstop
      refine ⟨hadmits, fun hroom => ?_⟩
      have hno : (selectionPass cfg now s maxCount (pendingTransactions s.mempool) sel).progress =
          false := Bool.eq_false_iff.mpr fun hyes => hstop ⟨hyes, hroom⟩
      exact (settled_pass hstart (lt_of_le_of_lt hlength.1 hroom) (fun _ htx => htx) hno).2

theorem runSelection_spec (cfg : Config) (now : Instant) (s : NodeState) (maxCount : ℕ) :
    Admits s maxCount (runSelection cfg now s maxCount) ∧
      ((runSelection cfg now s maxCount).selected.length < maxCount →
        ∀ tx ∈ pendingTransactions s.mempool, Settled s (runSelection cfg now s maxCount) tx) :=
  selectionPasses_spec maxCount (Admits.empty s maxCount) (Nat.le_add_left _ _)

/-- **A selection is admissible**: it has at most `maxCount` transactions and no hash twice, the nonces
of each sender follow its confirmed nonce one by one, and their debits are covered by its balance. Where
there is room left, every pending transaction is in the list, has failed, or is held back by a gap
before its nonce or by what is left of the balance. -/
theorem selection_admissible (cfg : Config) (now : Instant) (s : NodeState) (maxCount : ℕ) :
    (selectTransactionsForTask cfg now s maxCount).length ≤ maxCount ∧
    ((selectTransactionsForTask cfg now s maxCount).map Tx.txHash).Nodup ∧
    (∀ a, senderNonces (selectTransactionsForTask cfg now s maxCount) a =
      (List.range (senderCount (selectTransactionsForTask cfg now s maxCount) a)).map
        fun i : ℕ => confirmedNonce s a + 1 + (i : ℤ)) ∧
    (∀ tx ∈ selectTransactionsForTask cfg now s maxCount,
      senderDebits (selectTransactionsForTask cfg now s maxCount) tx.sender ≤
        s.ledger.balanceUnits tx.sender) ∧
    ((selectTransactionsForTask cfg now s maxCount).length < maxCount →
      ∀ tx ∈ pendingTransactions s.mempool,
        tx.txHash ∉ (selectTransactionsForTask cfg now s maxCount).map Tx.txHash →
        ¬ Failed (runSelection cfg now s maxCount).mempool tx.txHash →
          Blocked s (selectTransactionsForTask cfg now s maxCount) tx) := by
  obtain ⟨hadmits, hsettled⟩ := runSelection_spec cfg now s maxCount
  refine ⟨hadmits.length_le, hadmits.nodup, hadmits.nonces, hadmits.covered,
    fun hroom tx htx hnew hnofail => ?_⟩
  rcases hsettled hroom tx htx with hin | hfailed | hblocked
  · exact absurd hin hnew
  · exact absurd hfailed hnofail
  · exact hblocked

end Picoin
