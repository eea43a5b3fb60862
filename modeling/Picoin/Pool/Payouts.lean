import Mathlib.Data.List.Sort
import Mathlib.Data.Rat.Floor
import Picoin.Core.Money
import Picoin.Pool.Work

/-!
# The payouts of the pool

The pool pays its workers with transfers of its own wallet. What a worker is owed is its part of
the rewards less what has been paid, and a payout counts as paid from its first row on, unless the
network refuses it or the pool gives it up and releases the amount.

The node that the pool asks can answer anything or nothing. The chain can confirm every
transaction that was sent, once for each nonce.

* **`runPayouts`** signs and sends a payout for every worker that is owed enough;
* **`reconcilePayoutStatuses`** asks the node what became of the payouts;
* **`payoutStep`** is a step of the pool, of its node or of the chain.
-/

namespace Picoin.Pool

/-! ## The state -/

inductive PayoutStatus where
  | submitting
  | submitted
  | confirmed
  | error
deriving DecidableEq

/-- The part of a signed payout that the pool chooses. -/
structure PayoutTx where
  recipient : String
  amountUnits : ℤ
  feeUnits : ℤ
  nonce : ℤ
  workerId : String
  payoutId : String
deriving DecidableEq

/-- A row of `pool_payouts`, under its payout id; `amount` is a number of units of `10 ^ -8`. -/
structure PayoutRow where
  workerId : String
  payoutAddress : String
  amount : ℤ
  amountUnits : ℤ
  feeUnits : ℤ
  txHash : String
  status : PayoutStatus
  error : Option String
  tx : PayoutTx
  createdAt : Instant

/-- A record of a signing that the pool does not keep: the net entitlement of the worker at the time,
its payouts that counted as paid, and those that had been released. -/
structure Signing where
  payoutId : String
  workerId : String
  amountUnits : ℤ
  net : ℚ
  counted : List String
  released : List String
deriving DecidableEq

/-- The payouts of the pool with the order in which they were signed, the transactions that were
sent, those that the node holds as active, and those that the chain has confirmed. -/
structure PayoutState where
  payouts : Sql.Table String PayoutRow
  signed : List Signing
  sent : List String
  active : List String
  confirmed : List String

def PayoutState.empty : PayoutState := ⟨Sql.Table.empty, [], [], [], []⟩

/-- The settings of the payouts, and the hash of a signed transaction. Amounts are numbers of units
of `10 ^ -8`. -/
structure PayoutConfig extends PoolConfig where
  payoutMinAmount : ℤ
  payoutFee : ℤ
  payoutConfirmationGraceSeconds : ℤ
  signedTxHash : PayoutTx → String

/-- A worker of `stats`, with its net entitlement. -/
structure Payee where
  workerId : String
  payoutAddress : Option String
  net : ℚ

/-! ## Amounts -/

/-- The payout counts in `_paid_payout_rows`. -/
def PayoutStatus.counts : PayoutStatus → Bool
  | .submitting | .submitted | .confirmed => true
  | .error => false

/-- The payout waits for its confirmation. -/
def PayoutStatus.open' : PayoutStatus → Bool
  | .submitting | .submitted => true
  | .confirmed | .error => false

/-- `_paid_payout_rows`, for one worker. -/
def paidPayoutRows (s : PayoutState) (workerId : String) : List (String × PayoutRow) :=
  s.payouts.rows.filter fun r => r.2.status.counts && r.2.workerId = workerId

/-- One row of the loop over the payouts in `summarize_round_window_payouts`. -/
def subtractPayout (pending : ℚ) (row : PayoutRow) : ℚ :=
  if row.amount ≤ 0 then pending else max 0 (pending - row.amount / 10 ^ 8)

/-- The pending amount of a worker. -/
def pendingAmount (s : PayoutState) (payee : Payee) : ℚ :=
  ((paidPayoutRows s payee.workerId).map Prod.snd).foldl subtractPayout payee.net

/-- `_decimal_to_float`. -/
def decimalToFloat (value : ℚ) : ℤ := ⌊value * 10 ^ 8⌋

/-- `floor_picoin_units`. -/
def floorPicoinUnits (amount : ℤ) : ℤ := amount / 100

/-- The worker is `payable` and has an address. -/
def payable (pc : PayoutConfig) (s : PayoutState) (payee : Payee) : Bool :=
  let pending := pendingAmount s payee
  let minPayout : ℚ := (max 0 pc.payoutMinAmount : ℤ) / 10 ^ 8
  pending > 0 && (if minPayout > 0 then minPayout ≤ pending else true) &&
    textOr payee.payoutAddress "" ≠ ""

/-- The order of the workers: by pending amount, then by id. -/
def payoutOrder (s : PayoutState) (a b : Payee) : Bool :=
  let x := decimalToFloat (pendingAmount s a)
  let y := decimalToFloat (pendingAmount s b)
  y < x || (x = y && a.workerId ≤ b.workerId)

/-! ## Sending -/

/-- The answer to a request; `json` tells whether the body is JSON. -/
inductive PostAnswer where
  | none
  | http (code : ℕ) (json : Bool)
deriving DecidableEq

/-- What `run_payouts` concludes from sending a payout. -/
inductive PostOutcome where
  | accepted
  | refused
  | unknown
deriving DecidableEq

/-- One request of `_submit_payout_transaction`, with `_payout_submit_error_is_ambiguous`. -/
def postOutcome : PostAnswer → PostOutcome
  | .none => .unknown
  | .http code json =>
    if 400 ≤ code ∧ code < 500 then .refused
    else if 500 ≤ code ∧ code < 600 then .unknown
    else if json then .accepted
    else .unknown

/-- `_submit_payout_transaction`: a second path is tried where the first one is not found. -/
def submitPayoutTransaction (first second : PostAnswer) : PostOutcome :=
  match first with
  | .http 404 _ => postOutcome second
  | answer => postOutcome answer

/-- The first row of a payout, with the status `submitting`. -/
def signPayout (pc : PayoutConfig) (s : PayoutState) (payee : Payee) (tx : PayoutTx)
    (now : Instant) : Option PayoutState :=
  let row : PayoutRow :=
    { workerId := payee.workerId
      payoutAddress := tx.recipient
      amount := unitsToFloat tx.amountUnits
      amountUnits := tx.amountUnits
      feeUnits := tx.feeUnits
      txHash := pc.signedTxHash tx
      status := .submitting
      error := none
      tx
      createdAt := now }
  if s.payouts.rows.any fun r => r.2.txHash = row.txHash then none
  else
    let released := s.payouts.rows.filter fun r => !r.2.status.counts && r.2.workerId = payee.workerId
    (s.payouts.insert? tx.payoutId row).map fun payouts =>
      { s with
        payouts
        signed := s.signed ++ [⟨tx.payoutId, payee.workerId, tx.amountUnits, payee.net,
          (paidPayoutRows s payee.workerId).map Prod.fst, released.map Prod.fst⟩] }

/-- `UPDATE pool_payouts SET status = …` for one payout. -/
def setPayoutStatus (s : PayoutState) (payoutId : String) (status : PayoutStatus)
    (error : Option String) : PayoutState :=
  { s with payouts := s.payouts.modify payoutId fun row => { row with status, error } }

/-- The payout has been sent; `received` tells whether the node holds it. -/
def postPayout (s : PayoutState) (payoutId : String) (received : Bool) : PayoutState :=
  { s with
    sent := s.sent ++ [payoutId]
    active := if received then s.active ++ [payoutId] else s.active }

/-! ## What the node says -/

/-- The text fields of the answer to `/tx/<hash>`; `hasFields` tells whether it has any other. -/
structure TxAnswer where
  status : Option String
  detail : Option String
  message : Option String
  hasFields : Bool

/-- The text contains another one. -/
def containsText (text part : String) : Bool :=
  text.toList.tails.any fun rest => part.toList.isPrefixOf rest

/-- What `reconcile_payout_statuses` does with a payout. -/
inductive PayoutVerdict where
  | confirm
  | submit
  | keep
  | release (error : String)

/-- The decision about one payout, its age given. -/
def payoutVerdict (pc : PayoutConfig) (answer : TxAnswer) (age : ℤ) : PayoutVerdict :=
  let status := lower (clean answer.status)
  let detail := strip (textOr answer.detail (textOr answer.message ""))
  let empty := status = "" && !answer.hasFields
  let notFound := status = "not_found" || status = "missing" ||
    containsText (lower detail) "not found" || empty
  if status = "confirmed" then .confirm
  else if status ∈ ["pending", "selected", "submitted", "mempool"] then .submit
  else if notFound then
    if age < seconds pc.payoutConfirmationGraceSeconds then .keep
    else .release "payout transaction not found"
  else if status ∈ ["expired", "failed", "rejected", "error"] then
    .release (if detail = "" then "payout transaction failed" else detail)
  else .keep

/-- One row of `reconcile_payout_statuses`. -/
def reconcilePayout (pc : PayoutConfig) (answers : String → Option TxAnswer) (healthy : Bool)
    (now : Instant) (s : PayoutState) (r : String × PayoutRow) : PayoutState :=
  match answers r.1 with
  | none => s
  | some answer =>
    match payoutVerdict pc answer (now - r.2.createdAt) with
    | .confirm => setPayoutStatus s r.1 .confirmed none
    | .submit => setPayoutStatus s r.1 .submitted none
    | .keep => s
    | .release error => if healthy then setPayoutStatus s r.1 .error (some error) else s

/-- `reconcile_payout_statuses`. -/
def reconcilePayoutStatuses (pc : PayoutConfig) (answers : String → Option TxAnswer)
    (healthy : Bool) (now : Instant) (s : PayoutState) : PayoutState :=
  let rows := (s.payouts.rows.filter fun r => r.2.status.open').insertionSort
    fun a b => a.2.createdAt ≤ b.2.createdAt
  (rows.take 100).foldl (reconcilePayout pc answers healthy now) s

/-! ## The run of payouts -/

/-- The confirmed nonce of the wallet. -/
def confirmedNonce (s : PayoutState) : ℤ :=
  (s.confirmed.filterMap fun id => (s.payouts.find? id).map fun row => row.tx.nonce).foldl max 0

/-- The loop of `_next_nonce_after_statuses`. -/
def nextFreeNonce (used : List ℤ) (nonce : ℤ) : ℕ → ℤ
  | 0 => nonce
  | fuel + 1 => if nonce ∈ used then nextFreeNonce used (nonce + 1) fuel else nonce

/-- `next_nonce` of `get_wallet_nonce_status`. -/
def nextNonce (s : PayoutState) : ℤ :=
  let used := s.active.filterMap fun id => (s.payouts.find? id).map fun row => row.tx.nonce
  nextFreeNonce used (confirmedNonce s + 1) used.length

/-- What the node answers during a run of payouts, and the ids that are drawn. -/
structure RunAnswers where
  lookups : String → Option TxAnswer
  healthy : Bool
  nonceAnswered : Bool
  balance : Option ℤ
  payoutIds : ℕ → String
  posts : String → PostAnswer × PostAnswer
  received : String → Bool

/-- The loop of `run_payouts`, over workers that are numbered. -/
def payWorkers (pc : PayoutConfig) (answers : RunAnswers) (now : Instant) (pending : Payee → ℤ) :
    List (Payee × ℕ) → ℤ → ℤ → PayoutState → PayoutState
  | [], _, _, s => s
  | (payee, i) :: rest, nonce, remaining, s =>
    match normalizePayoutAddress pc.toPoolConfig payee.payoutAddress with
    | .error _ | .ok none => s
    | .ok (some address) =>
      let amountUnits := floorPicoinUnits (pending payee)
      let feeUnits := unitsOf pc.payoutFee
      if amountUnits < unitsOf pc.payoutMinAmount ∨ remaining < amountUnits + feeUnits then
        payWorkers pc answers now pending rest nonce remaining s
      else
        let payoutId := answers.payoutIds i
        let tx : PayoutTx := ⟨address, amountUnits, feeUnits, nonce, payee.workerId, payoutId⟩
        match signPayout pc s payee tx now with
        | none => s
        | some s =>
          let posted := postPayout s payoutId (answers.received payoutId)
          match submitPayoutTransaction (answers.posts payoutId).1 (answers.posts payoutId).2 with
          | .accepted =>
            payWorkers pc answers now pending rest (nonce + 1)
              (max 0 (remaining - (amountUnits + feeUnits)))
              (setPayoutStatus posted payoutId .submitted none)
          | .unknown => setPayoutStatus posted payoutId .submitted (some "no answer")
          | .refused => setPayoutStatus posted payoutId .error (some "client error")

/-- `_submitted_payout_reserved_units`. -/
def submittedPayoutReservedUnits (s : PayoutState) : ℤ :=
  ((s.payouts.rows.filter fun r => r.2.status.open').map
    fun r => r.2.amountUnits + r.2.feeUnits).sum

/-- The workers of `stats`, under their ids, with their addresses and net entitlements. -/
def payeesOf (workers : Sql.Table String (Option String × ℚ)) : List Payee :=
  workers.rows.map fun r => ⟨r.1, r.2.1, r.2.2⟩

/-- `run_payouts`. -/
def runPayouts (pc : PayoutConfig) (answers : RunAnswers)
    (workers : Sql.Table String (Option String × ℚ)) (now : Instant) (s : PayoutState) :
    PayoutState :=
  let s := reconcilePayoutStatuses pc answers.lookups answers.healthy now s
  let payees := ((payeesOf workers).filter (payable pc s)).insertionSort
    fun a b => payoutOrder s a b = true
  if payees = [] ∨ answers.nonceAnswered = false then s
  else
    match answers.balance with
    | none => s
    | some balance =>
      payWorkers pc answers now (fun payee => decimalToFloat (pendingAmount s payee))
        payees.zipIdx (nextNonce s) (max 0 (balance - submittedPayoutReservedUnits s)) s

/-! ## Runs -/

/-- A step of the pool, of its node or of the chain. -/
inductive PayoutEvent where
  | runPayouts (answers : RunAnswers) (workers : Sql.Table String (Option String × ℚ))
      (now : Instant)
  | reconcile (answers : String → Option TxAnswer) (healthy : Bool) (now : Instant)
  | receive (payoutId : String)
  | drop (payoutId : String)
  | confirm (payoutId : String)

/-- The nonce of a payout is free on the chain. -/
def nonceFree (s : PayoutState) (payoutId : String) : Bool :=
  s.confirmed.all fun id =>
    (s.payouts.find? id).map (fun row => row.tx.nonce) ≠
      (s.payouts.find? payoutId).map fun row => row.tx.nonce

/-- The chain confirms what was sent, once for each nonce. -/
def confirmPayout (s : PayoutState) (payoutId : String) : PayoutState :=
  if payoutId ∈ s.sent ∧ nonceFree s payoutId = true then
    { s with
      confirmed := s.confirmed ++ [payoutId]
      active := s.active.filter (· ≠ payoutId) }
  else s

def payoutStep (pc : PayoutConfig) (s : PayoutState) : PayoutEvent → PayoutState
  | .runPayouts answers workers now => runPayouts pc answers workers now s
  | .reconcile answers healthy now => reconcilePayoutStatuses pc answers healthy now s
  | .receive payoutId =>
    if payoutId ∈ s.sent then { s with active := s.active ++ [payoutId] } else s
  | .drop payoutId => { s with active := s.active.filter (· ≠ payoutId) }
  | .confirm payoutId => confirmPayout s payoutId

end Picoin.Pool
