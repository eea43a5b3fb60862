import Picoin.Proofs.ApprovedJobs
import Picoin.Services.LocalNode
import Picoin.Services.Submission

/-!
# No poison transaction

A selection should return a list whatever the peers have sent. The admission looks at the envelope
of a transaction only, and the checks of a selection read its payload and its timestamp, so that a
transaction with an unreadable one ends every selection that comes to it.

* **`Readable`** — the check of the transaction's kind can read it in this state;
* **`rowsVisited`** — the rows of a selection in which nothing raises, with its state at each;
* **`selection_returns_iff`** — a selection returns if and only if each row whose kind it comes to
  check is readable;
* **`readable_stake_iff`** — what a stake or an unstake has to hold to be readable.
-/

/-! ## Folds that may fail

A loop whose step may fail, beside the pure loop that it is where no step fails. -/

namespace Fold

variable {α β ε : Type} {f : β → α → Except ε β} {g : β → α → β} {ok : β → α → Prop}

/-- The states in which the loop comes to its items. -/
def visits (g : β → α → β) : β → List α → List (β × α)
  | _, [] => []
  | b, a :: rest => (b, a) :: visits g (g b a) rest

/-- A step that gives what the pure one gives where it is allowed, and fails where it is not. -/
structure Checks (f : β → α → Except ε β) (g : β → α → β) (ok : β → α → Prop) : Prop where
  allowed : ∀ b a, ok b a → f b a = .ok (g b a)
  refused : ∀ b a, ¬ok b a → ∃ e, f b a = .error e

/-- The loop fails at its first visit that is not allowed, and is the pure loop without one. -/
theorem foldlM_spec (h : Checks f g ok) (as : List α) (b : β) :
    ((∀ visit ∈ visits g b as, ok visit.1 visit.2) ∧ as.foldlM f b = .ok (as.foldl g b)) ∨
      ((∃ visit ∈ visits g b as, ¬ok visit.1 visit.2) ∧ ∃ e, as.foldlM f b = .error e) := by
  induction as generalizing b with
  | nil => exact .inl ⟨fun visit hvisit => absurd hvisit List.not_mem_nil, rfl⟩
  | cons a rest ih =>
    by_cases hok : ok b a
    · have hstep : (a :: rest).foldlM f b = rest.foldlM f (g b a) := by
        rw [List.foldlM_cons, h.allowed b a hok]
        rfl
      rw [hstep]
      rcases ih (g b a) with ⟨hall, hrest⟩ | ⟨⟨visit, hvisit, hbad⟩, hrest⟩
      · refine .inl ⟨fun visit hvisit => ?_, hrest⟩
        rcases List.mem_cons.mp hvisit with rfl | hvisit
        · exact hok
        · exact hall visit hvisit
      · exact .inr ⟨⟨visit, List.mem_cons_of_mem _ hvisit, hbad⟩, hrest⟩
    · obtain ⟨e, hstep⟩ := h.refused b a hok
      refine .inr ⟨⟨(b, a), List.mem_cons_self, hok⟩, e, ?_⟩
      rw [List.foldlM_cons, hstep]
      rfl

end Fold

namespace Picoin

open Json Outcome Fold

/-! ## One row -/

/-- The check of the transaction's kind can read it. -/
def Readable (sc : SubmissionConfig) (now : Instant) (s : NodeState) (row : ReceivedRow) : Prop :=
  readKind sc now s row = .ok ()

/-- The selection comes to the check of the row's kind: it has room, and the row's envelope, nonce
and balance stand. -/
def ComesToKind (sc : SubmissionConfig) (s : NodeState) (maxCount : ℕ) (sel : Selection)
    (row : ReceivedRow) : Prop :=
  let tx := row.toTx sc
  let s := { s with mempool := sel.mempool }
  ¬(maxCount ≤ sel.selected.length ∨ tx.txHash ∈ sel.selected.map Tx.txHash) ∧
    receivedBasicReason sc row = none ∧ tx.nonce = expectedNonce s sel.expected tx.sender ∧
    receivedCommonReason s tx sel.expected = none

/-- One row of a pass in which every value can be read. -/
def considerReadable (sc : SubmissionConfig) (now : Instant) (s : NodeState) (maxCount : ℕ)
    (sel : Selection) (row : ReceivedRow) : Selection :=
  let tx := row.toTx sc
  let s := { s with mempool := sel.mempool }
  let next := expectedNonce s sel.expected tx.sender
  if maxCount ≤ sel.selected.length ∨ tx.txHash ∈ sel.selected.map Tx.txHash then sel
  else match receivedBasicReason sc row with
    | some reason => sel.fail tx reason
    | none =>
      if tx.nonce < next then sel.fail tx s!"invalid nonce, expected {next}"
      else if next < tx.nonce then sel
      else match (receivedCommonReason s tx sel.expected).or
          (receivedKindReason sc now s row (sel.reservedFaucet tx.sender)) with
        | some reason => sel.fail tx reason
        | none =>
          if s.ledger.balanceUnits tx.sender <
              sel.reservedUnits tx.sender + totalDebitUnits tx then sel
          else sel.take tx

section

variable {sc : SubmissionConfig} {now : Instant} {s : NodeState} {maxCount : ℕ}
  {row : ReceivedRow} {sel : Selection}

/-- The check of a row is the pure one where it can read the row, or does not come to read it. -/
theorem receivedReason_eq {expected : ExpectedNonces} {reserved : List Instant}
    (h : receivedCommonReason s (row.toTx sc) expected = none → Readable sc now s row) :
    receivedReason sc now s row expected reserved =
      .ok ((receivedCommonReason s (row.toTx sc) expected).or
        (receivedKindReason sc now s row reserved)) := by
  unfold receivedReason
  dsimp only
  cases hcommon : receivedCommonReason s (row.toTx sc) expected with
  | some reason => rfl
  | none =>
    dsimp only
    rw [h hcommon]
    rfl

theorem receivedReason_raises {expected : ExpectedNonces} {reserved : List Instant}
    (hcommon : receivedCommonReason s (row.toTx sc) expected = none) (h : ¬Readable sc now s row) :
    ∃ e, receivedReason sc now s row expected reserved = .error e := by
  unfold receivedReason
  dsimp only
  rw [hcommon]
  dsimp only
  cases hread : readKind sc now s row with
  | error e => exact ⟨e, rfl⟩
  | ok _ => exact absurd hread h

/-- Where the check of its kind can read the row, or the selection does not come to it, the row is
taken, left pending or failed. -/
theorem considerReceived_eq (h : ComesToKind sc s maxCount sel row → Readable sc now s row) :
    considerReceived sc now s maxCount sel row =
      .ok (considerReadable sc now s maxCount sel row) := by
  unfold considerReceived considerReadable
  dsimp only
  by_cases hroom : maxCount ≤ sel.selected.length ∨
      (row.toTx sc).txHash ∈ sel.selected.map Tx.txHash
  · rw [if_pos hroom, if_pos hroom]
    rfl
  rw [if_neg hroom, if_neg hroom]
  cases hbasic : receivedBasicReason sc row with
  | some reason => rfl
  | none =>
    dsimp only
    split
    · rfl
    · next hlow =>
      split
      · rfl
      · next hhigh =>
        have hread : receivedCommonReason { s with mempool := sel.mempool } (row.toTx sc)
            sel.expected = none → Readable sc now { s with mempool := sel.mempool } row :=
          fun hcommon => h ⟨hroom, hbasic, by omega, hcommon⟩
        rw [receivedReason_eq hread]
        cases (receivedCommonReason { s with mempool := sel.mempool } (row.toTx sc)
            sel.expected).or (receivedKindReason sc now { s with mempool := sel.mempool } row
              (sel.reservedFaucet (row.toTx sc).sender)) with
        | some reason => rfl
        | none =>
          simp only [bind, Except.bind]
          split <;> rfl

/-- A selection that comes to a row it cannot read ends there. -/
theorem considerReceived_raises (hcomes : ComesToKind sc s maxCount sel row)
    (h : ¬Readable sc now s row) : ∃ e, considerReceived sc now s maxCount sel row = .error e := by
  obtain ⟨hroom, hbasic, hnonce, hcommon⟩ := hcomes
  obtain ⟨e, he⟩ := receivedReason_raises (s := { s with mempool := sel.mempool }) hcommon h
  refine ⟨e, ?_⟩
  unfold considerReceived
  dsimp only
  rw [if_neg hroom, hbasic]
  dsimp only
  rw [if_neg (by omega), if_neg (by omega), he]
  rfl

/-- A row of a pass as a step that may fail. -/
theorem considerReceived_checks :
    Checks (considerReceived sc now s maxCount) (considerReadable sc now s maxCount)
      fun sel row => ComesToKind sc s maxCount sel row → Readable sc now s row where
  allowed _ _ h := considerReceived_eq h
  refused _ _ h := by
    obtain ⟨hcomes, hread⟩ := Classical.not_imp.mp h
    exact considerReceived_raises hcomes hread

end

/-! ## The passes -/

/-- The rows that a selection goes through, with its state at each, where nothing raises. -/
def passesVisited (sc : SubmissionConfig) (now : Instant) (s : NodeState) (maxCount : ℕ)
    (rows : List ReceivedRow) : ℕ → Selection → List (Selection × ReceivedRow)
  | 0, _ => []
  | fuel + 1, sel =>
    let start := { sel with progress := false }
    let sel := rows.foldl (considerReadable sc now s maxCount) start
    visits (considerReadable sc now s maxCount) start rows ++
      if sel.progress ∧ sel.selected.length < maxCount then
        passesVisited sc now s maxCount rows fuel sel
      else []

/-- The rows of a selection. -/
def rowsVisited (sc : SubmissionConfig) (now : Instant) (s : NodeState) (maxCount : ℕ)
    (rows : List ReceivedRow) : List (Selection × ReceivedRow) :=
  passesVisited sc now s maxCount rows maxCount (emptySelection s.mempool)

section

variable {sc : SubmissionConfig} {now : Instant} {s : NodeState} {maxCount : ℕ}
  {rows : List ReceivedRow}

/-- The passes return if and only if each row whose kind they come to check is readable. The
induction is on the passes that are left. -/
theorem receivedPasses_returns_iff (fuel : ℕ) (sel : Selection) :
    (∃ sel', receivedPasses sc now s maxCount rows fuel sel = .ok sel') ↔
      ∀ visit ∈ passesVisited sc now s maxCount rows fuel sel,
        ComesToKind sc s maxCount visit.1 visit.2 → Readable sc now s visit.2 := by
  induction fuel generalizing sel with
  | zero => exact ⟨fun _ visit h => absurd h List.not_mem_nil, fun _ => ⟨sel, rfl⟩⟩
  | succ fuel ih =>
    unfold receivedPasses passesVisited
    dsimp only
    rcases foldlM_spec considerReceived_checks rows { sel with progress := false } with
      ⟨hpass, hfold⟩ | ⟨⟨visit, hvisit, hbad⟩, e, hfold⟩
    · rw [hfold]
      simp only [bind, Except.bind, List.forall_mem_append]
      split
      · exact (ih _).trans ⟨fun h => ⟨hpass, h⟩, fun h => h.2⟩
      · exact ⟨fun _ => ⟨hpass, fun visit h => absurd h List.not_mem_nil⟩, fun _ => ⟨_, rfl⟩⟩
    · rw [hfold]
      constructor
      · rintro ⟨sel', h⟩
        cases h
      · intro h
        exact absurd (h visit (List.mem_append_left _ hvisit)) hbad

/-- A selection returns if and only if each row whose kind it comes to check is readable. -/
theorem selection_returns_iff (sc : SubmissionConfig) (now : Instant) (s : NodeState)
    (maxCount : ℕ) (rows : List ReceivedRow) :
    (∃ selected, selectReceived sc now s maxCount rows = .ok selected) ↔
      ∀ visit ∈ rowsVisited sc now s maxCount rows,
        ComesToKind sc s maxCount visit.1 visit.2 → Readable sc now s visit.2 := by
  unfold rowsVisited
  rw [← receivedPasses_returns_iff]
  unfold selectReceived
  constructor
  · rintro ⟨selected, h⟩
    obtain ⟨sel, hsel, -⟩ := bind_eq_ok.mp h
    exact ⟨sel, hsel⟩
  · rintro ⟨sel, hsel⟩
    exact ⟨sel.selected, by rw [hsel]; rfl⟩

/-- The query for the validator of a stake or an unstake binds its id. -/
def BindsValidator (sc : SubmissionConfig) (row : ReceivedRow) : Prop :=
  isValidatorStakeTx (row.toTx sc) = true ∧
    startsWith (validatorStakeValidatorId (row.toTx sc)) "validator_" = true ∧
    (row.txType = .unstake ∨ 0 < txAmountUnits (row.toTx sc))

/-- A stake or an unstake is readable if and only if its payload is empty or an object, and UTF-8
encodes the id of a validator that it looks up. -/
theorem readable_stake_iff {row : ReceivedRow} (h : row.txType = .stake ∨ row.txType = .unstake) :
    Readable sc now s row ↔ (∃ fields, row.payloadOrEmpty = .obj fields) ∧
      (BindsValidator sc row → sc.encodable (validatorStakeValidatorId (row.toTx sc)) = true) := by
  have hkind : readKind sc now s row = readStake sc row := by
    unfold readKind
    rcases h with h | h <;> rw [h]
  unfold Readable
  rw [hkind]
  unfold readStake ReceivedRow.readFields
  cases hpayload : row.payloadOrEmpty with
  | obj fields =>
    have hbinds : (isValidatorStakeTx (row.toTx sc) &&
        startsWith (validatorStakeValidatorId (row.toTx sc)) "validator_" &&
        (row.txType = .unstake || 0 < txAmountUnits (row.toTx sc))) = true ↔
        BindsValidator sc row := by
      simp only [BindsValidator, Bool.and_eq_true, Bool.or_eq_true, decide_eq_true_eq, and_assoc]
    simp only [bind, Except.bind, bindText, pure, Except.pure]
    by_cases hlooked : BindsValidator sc row
    · rw [if_pos (hbinds.mpr hlooked)]
      by_cases hencodable : sc.encodable (validatorStakeValidatorId (row.toTx sc)) = true
      · rw [if_pos hencodable]
        exact ⟨fun _ => ⟨⟨fields, rfl⟩, fun _ => hencodable⟩, fun _ => rfl⟩
      · rw [if_neg hencodable]
        exact ⟨fun hread => (nomatch hread), fun hread => absurd (hread.2 hlooked) hencodable⟩
    · rw [if_neg (mt hbinds.mp hlooked)]
      exact ⟨fun _ => ⟨⟨fields, rfl⟩, fun hbound => absurd hbound hlooked⟩, fun _ => rfl⟩
  | _ =>
    constructor
    · intro hread
      cases hread
    · rintro ⟨⟨fields, hfields⟩, -⟩
      cases hfields

end

/-! ## A poison transaction -/

/-- A transaction that passes each check of the admission gets its row. -/
theorem receiveTransaction_eq_ok {sc : SubmissionConfig} {tx timestamp recipient sender publicKey
      networkId chainId txHash signature number : Value} {txType : TxType} {nonce feeUnits amountUnits : ℤ}
    {unsigned payload : Client.UnsignedDict}
    (hrequired : ∀ key ∈ transactionRequiredFields, (Client.item tx key).toOption.isNone = false)
    (hsize : (canonicalJson tx).length ≤ sc.maxTxSizeBytes)
    (htype : readTxType tx = .ok txType) (hsupported : txType.supported = true)
    (hnumber : Client.item tx "nonce" = .ok number)
    (hnonce : Client.toInt sc.toClientConfig number = .ok nonce)
    (hfee : Client.moneyUnits sc.toClientConfig tx "fee_units" "fee" = .ok feeUnits)
    (hamount : Client.moneyUnits sc.toClientConfig tx "amount_units" "amount" = .ok amountUnits)
    (hunits : checkUnits sc nonce feeUnits amountUnits = .ok ())
    (htimestamp : Client.item tx "timestamp" = .ok timestamp)
    (hrecipient : Client.get tx "recipient" = .ok recipient)
    (hexpires : expires sc timestamp = true)
    (htransfer : txType ≠ .transfer)
    (hsender : Client.item tx "sender" = .ok sender)
    (hkey : Client.item tx "public_key" = .ok publicKey)
    (haddress : Client.addressMatches sc.toConfig sender publicKey = true)
    (hnetwork : Client.item tx "network_id" = .ok networkId)
    (hchain : Client.item tx "chain_id" = .ok chainId)
    (hplace : (!Client.sameValue networkId (.str sc.networkId) ||
      Client.toText sc.toClientConfig chainId ≠ sc.chainId.str) = false)
    (hunsigned : Client.unsignedFromValue sc.toClientConfig tx = .ok unsigned)
    (hhash : Client.item tx "tx_hash" = .ok txHash)
    (hsignature : Client.item tx "signature" = .ok signature)
    (hmatch : Client.matchingSignaturePayload sc.toConfig unsigned publicKey txHash = some payload)
    (hverify : Client.verifyPayload sc.toConfig publicKey payload signature = true)
    (hbind : [recipient, .int nonce, .int feeUnits, .int amountUnits].all (bindable sc) = true) :
    receiveTransaction sc tx = .ok
      { txHash := Client.toText sc.toClientConfig txHash
        txType
        sender := Client.toText sc.toClientConfig sender
        recipient
        amountUnits
        feeUnits
        nonce
        payload := unsigned.payload
        timestamp := unsigned.timestamp
        publicKey
        signature
        networkId
        chainId } := by
  have hmissing : (transactionRequiredFields.filter fun key =>
      (Client.item tx key).toOption.isNone) = [] :=
    List.filter_eq_nil_iff.mpr fun key hkey => by rw [hrequired key hkey]; exact Bool.false_ne_true
  -- what expires is a time
  have hcanonical : (canonicalTransactionTimestamp sc timestamp).isNone = false := by
    cases h : canonicalTransactionTimestamp sc timestamp with
    | some instant => rfl
    | none =>
      rw [expires, h] at hexpires
      cases hexpires
  unfold receiveTransaction
  simp only [hmissing, Nat.not_lt.mpr hsize, htype, hsupported, hnumber, hnonce, hfee, hamount, hunits,
    htimestamp, hrecipient, hcanonical, htransfer, hsender, hkey, haddress, hnetwork, hchain,
    hplace, hunsigned, hhash, hsignature, hmatch, hverify, hexpires, hbind, python,
    Except.mapError, bind, Except.bind, pure, Except.pure, ne_eq, not_true_eq_false, if_false,
    false_and, Bool.not_true, Bool.false_eq_true]

/-- The unsigned fields of a stake whose payload is a list. -/
def listedUnsigned : Client.UnsignedDict :=
  Client.unsignedTransactionPayload Client.localClient
    { txType := .str "stake"
      sender := .str aliceAddress
      recipient := .null
      amountUnits := 0
      nonce := 1
      feeUnits := 0
      payload := .arr [.int 1]
      timestamp := .str "2026-05-10T00:00:00+00:00"
      networkId := .str "local"
      chainId := .str "picoin-local-testnet" }

/-- What its hash is taken of. -/
def listedSigned : Value := .obj [("public_key", .str aliceKey), ("tx", listedUnsigned.toJson)]

/-- The digest of the stake. -/
def listedHash : String := "dddddddddddddddddddddddddddddddddddddddddddddddddddddddddddddddd"

/-- A stand-in for SHA-256 that has a digest for the stake. -/
def listedDigest (text : String) : String :=
  if text.length < 100 then localSha256Text text
  else if text = canonicalJson listedSigned then listedHash
  else text

/-- A node of the local network at its default limits. -/
def localSubmission : SubmissionConfig :=
  { Client.localClient with
    sha256Text := listedDigest
    fromIsoformat := fun text =>
      if text = "2026-05-10T00:00:00+00:00" then some ⟨seconds 1778371200, true⟩ else none
    floatOfText := fun _ => none
    encodable := fun _ => true
    earliest := seconds (-62135596800)
    latest := seconds 253402300799
    maxTxSizeBytes := 16384
    mempoolMaxFee := 3141600000
    mempoolTxTtlSeconds := 3600 }

/-- The stake as a peer sends it. -/
def listedStake : Value :=
  .obj [("tx_hash", .str listedHash), ("tx_type", .str "stake"), ("sender", .str aliceAddress),
    ("amount_units", .int 0), ("nonce", .int 1), ("fee", .int 0), ("fee_units", .int 0),
    ("payload", .arr [.int 1]), ("timestamp", .str "2026-05-10T00:00:00+00:00"),
    ("public_key", .str aliceKey), ("signature", .str "signed"), ("network_id", .str "local"),
    ("chain_id", .str "picoin-local-testnet")]

/-- The row of the stake. -/
def listedRow : ReceivedRow where
  txHash := listedHash
  txType := .stake
  sender := aliceAddress
  recipient := .null
  amountUnits := 0
  feeUnits := 0
  nonce := 1
  payload := .arr [.int 1]
  timestamp := .str "2026-05-10T00:00:00+00:00"
  publicKey := .str aliceKey
  signature := .str "signed"
  networkId := .str "local"
  chainId := .str "picoin-local-testnet"

theorem length_listedSigned : 100 ≤ (canonicalJson listedSigned).length := by
  rw [canonicalJson, String.length_ofList]
  decide +kernel

theorem length_listedStake : (canonicalJson listedStake).length ≤ 16384 := by
  rw [canonicalJson, String.length_ofList]
  decide +kernel

/-- The node's hash of the stake. The data stay a variable, so that nothing evaluates its text. -/
theorem hashJson_of {data : Value} (hlength : 100 ≤ (canonicalJson data).length)
    (h : data = listedSigned) : localSubmission.toConfig.hashJson data = listedHash :=
  (if_neg (Nat.not_lt.mpr hlength)).trans (if_pos (congrArg canonicalJson h))

theorem sameValue_of_eq {s t : String} (h : s = t) :
    Client.sameValue (.str s) (.str t) = true := by
  rw [h]
  exact decide_eq_true rfl

theorem candidates_listedUnsigned :
    ∃ rest, Client.signaturePayloadCandidates listedUnsigned = listedUnsigned :: rest :=
  ⟨_, rfl⟩

theorem matching_listedUnsigned :
    Client.matchingSignaturePayload localSubmission.toConfig listedUnsigned (.str aliceKey)
      (.str listedHash) = some listedUnsigned := by
  obtain ⟨rest, hcandidates⟩ := candidates_listedUnsigned
  have hsame : Client.sameValue (.str (localSubmission.toConfig.hashJson
      (.obj [("public_key", .str aliceKey), ("tx", listedUnsigned.toJson)])))
      (.str listedHash) = true :=
    sameValue_of_eq (hashJson_of length_listedSigned rfl)
  rw [Client.matchingSignaturePayload, hcandidates]
  exact List.find?_cons_of_pos hsame

theorem addressMatches_alice :
    Client.addressMatches localSubmission.toConfig (.str aliceAddress) (.str aliceKey) = true := by
  decide +kernel

theorem receiveTransaction_listedStake :
    receiveTransaction localSubmission listedStake = .ok listedRow := by
  refine receiveTransaction_eq_ok (by decide +kernel) length_listedStake rfl rfl rfl rfl rfl rfl ?_
    rfl rfl ?_ (by decide) rfl rfl addressMatches_alice rfl rfl ?_ rfl rfl rfl
    matching_listedUnsigned ?_ (by decide +kernel)
  · rfl
  · decide +kernel
  · decide +kernel
  · decide +kernel

/-- A transaction whose fields verify has a valid signature. -/
theorem isSignatureValidValue_of {cc : Client.ClientConfig} {tx networkId chainId sender publicKey
      txHash signature : Value} {unsigned payload : Client.UnsignedDict}
    (hunsigned : Client.unsignedFromValue cc tx = .ok unsigned)
    (hkey : Client.item tx "public_key" = .ok publicKey)
    (hhash : Client.item tx "tx_hash" = .ok txHash)
    (hnetwork : Client.get tx "network_id" = .ok networkId)
    (hchain : Client.get tx "chain_id" = .ok chainId)
    (hsender : Client.get tx "sender" = .ok sender)
    (hplace : (Client.sameValue networkId (.str cc.networkId) &&
      Client.toText cc chainId = cc.chainId.str &&
      Client.addressMatches cc.toConfig sender publicKey) = true)
    (hmatch : Client.matchingSignaturePayload cc.toConfig unsigned publicKey txHash = some payload)
    (hsignature : Client.item tx "signature" = .ok signature)
    (hverify : Client.verifyPayload cc.toConfig publicKey payload signature = true) :
    Client.isSignatureValidValue cc tx = true := by
  have hcheck : Client.checkSignature cc tx = .ok true := by
    unfold Client.checkSignature
    simp only [hunsigned, hkey, hhash, hnetwork, hchain, hsender, hplace, hmatch, hsignature,
      hverify, bind, Except.bind, pure, Except.pure, Bool.not_true, Bool.false_eq_true, if_false]
  rw [Client.isSignatureValidValue, hcheck]

theorem isSignatureValid_listedRow :
    Client.isSignatureValidValue localSubmission.toClientConfig listedRow.toValue = true := by
  have hunsigned : Client.unsignedFromValue localSubmission.toClientConfig listedRow.toValue =
      .ok listedUnsigned := rfl
  refine isSignatureValidValue_of hunsigned rfl rfl rfl rfl rfl ?_ matching_listedUnsigned rfl ?_
  · decide +kernel
  · decide +kernel

/-- The selection comes to the row first, and to the check of its kind. -/
theorem comesToKind_listedRow :
    ComesToKind localSubmission (localNode []) 1
      { emptySelection (localNode []).mempool with progress := false } listedRow := by
  have hbasic : receivedBasicReason localSubmission listedRow = none := by
    unfold receivedBasicReason
    rw [isSignatureValid_listedRow]
    decide +kernel
  refine ⟨by decide +kernel, hbasic, ?_, ?_⟩
  · decide +kernel
  · decide +kernel

theorem not_readable_listedRow : ¬Readable localSubmission 0 (localNode []) listedRow := by
  intro h
  obtain ⟨⟨fields, hfields⟩, -⟩ := (readable_stake_iff (.inl rfl)).mp h
  have hpayload : listedRow.payloadOrEmpty = .arr [.int 1] := rfl
  rw [hpayload] at hfields
  cases hfields

/-- A stake whose payload is a list is admitted, and no selection gets past it. -/
theorem listed_payload :
    ∃ row, receiveTransaction localSubmission listedStake = .ok row ∧
      ¬∃ selected, selectReceived localSubmission 0 (localNode []) 1 [row] = .ok selected := by
  refine ⟨listedRow, receiveTransaction_listedStake, fun ⟨selected, h⟩ => ?_⟩
  obtain ⟨sel, hsel, -⟩ := bind_eq_ok.mp h
  exact not_readable_listedRow ((receivedPasses_returns_iff 1 _).mp ⟨sel, hsel⟩ (_, listedRow)
    (List.mem_append_left _ List.mem_cons_self) comesToKind_listedRow)

end Picoin
