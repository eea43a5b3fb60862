import Picoin.Lib.JsonScan
import Picoin.Proofs.MerkleSound
import Picoin.Services.LocalMining
import Picoin.Services.ValidatorClient

/-!
# What an approval of the client is worth

`SoundJob` is what an approved job should be. The client's checks leave four things out: the
transactions of a job that lists none, the keys of a transaction that the client replaces by
defaults, the address of its sender, and the number and the places of the samples. `CompleteJob`
names just these, and `soundJob_iff` says that nothing else is missing.
-/

namespace Picoin.Client

open Json Outcome

/-! ## Soundness -/

/-- The position lies in the job's range. -/
def InRange (job : Value) (position : ℤ) : Prop :=
  ∃ rangeStart rangeEnd, item job "range_start" = .ok (.int rangeStart) ∧
    item job "range_end" = .ok (.int rangeEnd) ∧ rangeStart ≤ position ∧ position ≤ rangeEnd

/-- The sample shows the digit of pi at its position, with a proof for the root. -/
def ShowsDigit (cc : ClientConfig) (algorithm merkleRoot sample : Value) : Prop :=
  ∃ position number digit proof, item sample "position" = .ok position ∧
    positionNumber position = .ok number ∧ item sample "digit" = .ok digit ∧
    item sample "proof" = .ok proof ∧
    cc.piDigit number algorithm = some (cc.caseMap.upper (toText cc digit)) ∧
    verifyProofValue cc position (cc.caseMap.upper (toText cc digit)) proof merkleRoot = .ok true

/-- The position of the sample lies in the job's range. -/
def SampleInRange (job sample : Value) : Prop :=
  ∃ position number, item sample "position" = .ok position ∧
    positionNumber position = .ok number ∧ InRange job number

/-- The listed transactions are what the job says about them, and the node accepts each. -/
structure SoundTransactions (cc : ClientConfig) (job : Value) (transactions txHashes : List Value) :
    Prop where
  count : toInt cc (orElse ((get job "tx_count").toOption.getD .null) (.int 0)) =
    .ok transactions.length
  hashes : ∃ actual, transactions.mapM (fun tx => get tx "tx_hash") = .ok actual ∧
    sameValues actual txHashes = true
  hashesHash : sameValue (.str (selectedHashesHash cc txHashes))
    (orElse ((get job "selected_tx_hashes_hash").toOption.getD .null)
      (.str (selectedHashesHash cc []))) = true
  signatures : ∀ tx ∈ transactions, isSignatureValidValue cc tx = true
  commitment : ∃ c, jobCommitment cc transactions = .ok c ∧
    sameValue (.str c.txMerkleRoot)
      (orElse ((get job "tx_merkle_root").toOption.getD .null) (.str "")) = true ∧
    toInt cc (orElse ((get job "tx_fee_total_units").toOption.getD .null) (.int 0)) =
      .ok c.txFeeTotalUnits

/-- The job that an approval should stand for. -/
structure SoundJob (cc : ClientConfig) (job : Value) : Prop where
  transactions : ∃ transactions txHashes, jobList job "transactions" = .ok transactions ∧
    jobList job "selected_tx_hashes" = .ok txHashes ∧
    SoundTransactions cc job transactions txHashes
  samples : ∃ samples algorithm merkleRoot, (item job "samples").bind toList = .ok samples ∧
    item job "algorithm" = .ok algorithm ∧ item job "merkle_root" = .ok merkleRoot ∧
    samples ≠ [] ∧ ∀ sample ∈ samples,
      ShowsDigit cc algorithm merkleRoot sample ∧ SampleInRange job sample

/-! ## What the client leaves out -/

/-- The transaction has the key. -/
def HasKey (tx : Value) (key : String) : Prop := ∃ v, item tx key = .ok v

/-- The transaction has the keys that the client replaces by defaults, and its sender is the
address of its public key. -/
structure SignedByOwner (cc : ClientConfig) (tx : Value) : Prop where
  txType : HasKey tx "tx_type"
  timestamp : HasKey tx "timestamp"
  signature : HasKey tx "signature"
  nonce : ∃ v n, item tx "nonce" = .ok v ∧ toInt cc v = .ok n
  owner : ∃ sender publicKey, item tx "sender" = .ok sender ∧
    item tx "public_key" = .ok publicKey ∧ addressMatches cc.toConfig sender publicKey = true

/-- A job without transactions says so. -/
structure SaysEmpty (cc : ClientConfig) (job : Value) : Prop where
  count : toInt cc (orElse ((get job "tx_count").toOption.getD .null) (.int 0)) = .ok 0
  root : sameValue (.str (txMerkleRoot cc.toConfig []))
    (orElse ((get job "tx_merkle_root").toOption.getD .null) (.str "")) = true
  fees : toInt cc (orElse ((get job "tx_fee_total_units").toOption.getD .null) (.int 0)) = .ok 0

/-- What the client does not check. -/
structure CompleteJob (cc : ClientConfig) (job : Value) : Prop where
  transactions : ∃ transactions, jobList job "transactions" = .ok transactions ∧
    (transactions = [] → SaysEmpty cc job) ∧ ∀ tx ∈ transactions, SignedByOwner cc tx
  samples : ∃ samples, (item job "samples").bind toList = .ok samples ∧ samples ≠ [] ∧
    ∀ sample ∈ samples, SampleInRange job sample

/-! ## Lists of checks -/

theorem firstRefusal_eq_none {α : Type} {check : α → Except PyError (Option String)} {l : List α} :
    firstRefusal check l = .ok none ↔ ∀ x ∈ l, check x = .ok none := by
  induction l with
  | nil => simp [firstRefusal]
  | cons x rest ih =>
    unfold firstRefusal
    rw [bind_eq_ok, List.forall_mem_cons, ← ih]
    constructor
    · rintro ⟨result, hx, hrest⟩
      cases result with
      | none => exact ⟨hx, hrest⟩
      | some reason => cases hrest
    · rintro ⟨hx, hrest⟩
      exact ⟨none, hx, hrest⟩

/-- Checking with several workers refuses the same jobs. -/
theorem firstRefusal_map {α : Type} (check : α → Except PyError (Option String)) (l : List α) :
    firstRefusal id (l.map check) = firstRefusal check l := by
  induction l with
  | nil => rfl
  | cons x rest ih =>
    rw [List.map_cons, firstRefusal, firstRefusal, ih]
    rfl

/-! ## Samples -/

theorem validateSample_eq_none {cc : ClientConfig} {algorithm merkleRoot sample : Value} :
    validateSample cc algorithm merkleRoot sample = .ok none ↔
      ShowsDigit cc algorithm merkleRoot sample := by
  unfold validateSample ShowsDigit
  constructor
  · intro h
    obtain ⟨position, hposition, h⟩ := bind_eq_ok.mp h
    obtain ⟨digit, hdigit, h⟩ := bind_eq_ok.mp h
    obtain ⟨number, hnumber, h⟩ := bind_eq_ok.mp h
    dsimp only at h
    split at h
    · cases h
    · next expected hexpected =>
      split at h
      · cases h
      · next hsame =>
        obtain ⟨proof, hproof, h⟩ := bind_eq_ok.mp h
        obtain ⟨valid, hvalid, h⟩ := bind_eq_ok.mp h
        cases valid with
        | false => cases h
        | true =>
          refine ⟨position, number, digit, proof, hposition, hnumber, hdigit, hproof, ?_, hvalid⟩
          rw [hexpected, not_not.mp hsame]
  · rintro ⟨position, number, digit, proof, hposition, hnumber, hdigit, hproof, hpi, hvalid⟩
    rw [hposition]
    show (item sample "digit" >>= _) = _
    rw [hdigit]
    show (positionNumber position >>= _) = _
    rw [hnumber]
    simp only [hpi, hproof, hvalid, bind, Except.bind, ne_eq, not_true_eq_false, if_false]
    rfl

theorem validateSamples_eq_none {cc : ClientConfig} {job : Value} {workers : ℤ} :
    validateSamples cc job workers = .ok none ↔
      ∃ samples algorithm merkleRoot, (item job "samples").bind toList = .ok samples ∧
        item job "algorithm" = .ok algorithm ∧ item job "merkle_root" = .ok merkleRoot ∧
        ∀ sample ∈ samples, ShowsDigit cc algorithm merkleRoot sample := by
  have hloop : ∀ samples algorithm merkleRoot,
      (if workers ≤ 1 ∨ samples.length ≤ 1 then
          firstRefusal (validateSample cc algorithm merkleRoot) samples
        else firstRefusal id (samples.map (validateSample cc algorithm merkleRoot))) = .ok none ↔
        ∀ sample ∈ samples, ShowsDigit cc algorithm merkleRoot sample := by
    intro samples algorithm merkleRoot
    rw [firstRefusal_map, ite_self, firstRefusal_eq_none]
    simp only [validateSample_eq_none]
  unfold validateSamples
  constructor
  · intro h
    obtain ⟨listed, hlisted, h⟩ := bind_eq_ok.mp h
    obtain ⟨samples, hsamples, h⟩ := bind_eq_ok.mp h
    obtain ⟨algorithm, halgorithm, h⟩ := bind_eq_ok.mp h
    obtain ⟨merkleRoot, hroot, h⟩ := bind_eq_ok.mp h
    refine ⟨samples, algorithm, merkleRoot, ?_, halgorithm, hroot, (hloop _ _ _).mp h⟩
    rw [hlisted]
    exact hsamples
  · rintro ⟨samples, algorithm, merkleRoot, hsamples, halgorithm, hroot, hall⟩
    obtain ⟨listed, hlisted, hlist⟩ := bind_eq_ok.mp hsamples
    refine bind_eq_ok.mpr ⟨listed, hlisted, bind_eq_ok.mpr ⟨samples, hlist, ?_⟩⟩
    exact bind_eq_ok.mpr ⟨algorithm, halgorithm, bind_eq_ok.mpr ⟨merkleRoot, hroot,
      (hloop _ _ _).mpr hall⟩⟩

/-! ## One transaction -/

theorem item_eq_ok {v x : Value} {key : String} (h : item v key = .ok x) (default : Value) :
    get v key default = .ok x := by
  unfold item at h
  split at h
  · split at h
    · cases h
    · next hlookup =>
      cases h
      simp [get, hlookup]
  · cases h

/-- An access with a default either finds the key or gives the default. -/
theorem get_eq_ok {v x default : Value} {key : String} (h : get v key default = .ok x) :
    item v key = .ok x ∨ (¬HasKey v key ∧ x = default) := by
  unfold get at h
  split at h
  · next fields =>
    unfold HasKey item
    cases hlookup : fields.lookup key with
    | none =>
      rw [hlookup] at h
      cases h
      refine .inr ⟨?_, rfl⟩
      rintro ⟨x, hx⟩
      dsimp only at hx
      rw [hlookup] at hx
      cases hx
    | some y =>
      rw [hlookup] at h
      cases h
      exact .inl (by simp [hlookup])
  · cases h

/-- Taking zero for a false value changes no number. -/
theorem toInt_orElse {cc : ClientConfig} {v : Value} {n : ℤ} (h : toInt cc v = .ok n) :
    toInt cc (orElse v (.int 0)) = .ok n := by
  unfold orElse
  split
  · exact h
  · next hfalse =>
    cases v with
    | null => cases h
    | bool b =>
      have hb : b = false := by simpa [truthy] using hfalse
      rw [hb] at h
      exact h
    | int i =>
      have hi : i = 0 := by simpa [truthy] using hfalse
      rw [hi] at h
      exact h
    | float x =>
      have hx : x = 0 := by simpa [truthy] using hfalse
      rw [hx] at h
      exact h
    | str s =>
      have hs : s = "" := by simpa [truthy] using hfalse
      rw [toInt, hs, cc.intOfText_empty] at h
      cases h
    | arr items => cases h
    | obj fields => cases h

/-- The client reads the units that the node reads. -/
theorem moneyUnits_of_clientUnits {cc : ClientConfig} {tx : Value} {units amount : String} {n : ℤ}
    (h : clientUnits cc tx units amount = .ok n) : moneyUnits cc tx units amount = .ok n := by
  obtain ⟨v, hv, h⟩ := bind_eq_ok.mp h
  refine bind_eq_ok.mpr ⟨v, hv, ?_⟩
  cases v with
  | null => exact h
  | bool b => exact toInt_orElse h
  | int i => exact toInt_orElse h
  | float x => exact toInt_orElse h
  | str s => exact toInt_orElse h
  | arr items => exact toInt_orElse h
  | obj fields => exact toInt_orElse h

theorem orElse_orElse (v default : Value) : orElse (orElse v default) default = orElse v default := by
  unfold orElse
  split
  · rfl
  · exact ite_self _

/-- What a transaction that passes the client's checks has been checked for. -/
theorem clientChecksTx_eq_none {cc : ClientConfig} {tx : Value}
    (h : clientChecksTx cc tx = .ok none) :
    ∃ unsigned publicKey txHash signature payload, clientUnsigned cc tx = .ok unsigned ∧
      toText cc unsigned.chainId = cc.chainId.str ∧
      sameValue unsigned.networkId (.str cc.networkId) = true ∧
      get tx "public_key" (.str "") = .ok publicKey ∧ get tx "tx_hash" (.str "") = .ok txHash ∧
      get tx "signature" (.str "") = .ok signature ∧
      matchingSignaturePayload cc.toConfig unsigned publicKey txHash = some payload ∧
      verifyPayload cc.toConfig publicKey payload signature = true := by
  obtain ⟨unsigned, hunsigned, h⟩ := bind_eq_ok.mp h
  split at h
  · cases h
  next hnetwork =>
  rw [not_or, not_not, Bool.not_eq_false] at hnetwork
  obtain ⟨publicKey, hkey, h⟩ := bind_eq_ok.mp h
  obtain ⟨txHash, hhash, h⟩ := bind_eq_ok.mp h
  split at h
  · cases h
  next payload hpayload =>
  obtain ⟨signature, hsignature, h⟩ := bind_eq_ok.mp h
  split at h
  · next hverify =>
    exact ⟨unsigned, publicKey, txHash, signature, payload, hunsigned, hnetwork.1, hnetwork.2,
      hkey, hhash, hsignature, hpayload, hverify⟩
  · cases h

/-- The client's unsigned payload, with what it reads. -/
theorem clientUnsigned_eq_ok {cc : ClientConfig} {tx : Value} {unsigned : UnsignedDict}
    (h : clientUnsigned cc tx = .ok unsigned) :
    ∃ amountUnits feeUnits txType sender recipient nonceValue nonce payload timestamp networkId
        chainId,
      moneyUnits cc tx "amount_units" "amount" = .ok amountUnits ∧
      moneyUnits cc tx "fee_units" "fee" = .ok feeUnits ∧ get tx "tx_type" = .ok txType ∧
      get tx "sender" = .ok sender ∧ get tx "recipient" = .ok recipient ∧
      get tx "nonce" = .ok nonceValue ∧ toInt cc (orElse nonceValue (.int 0)) = .ok nonce ∧
      get tx "payload" = .ok payload ∧ get tx "timestamp" = .ok timestamp ∧
      get tx "network_id" = .ok networkId ∧ get tx "chain_id" = .ok chainId ∧
      unsigned = unsignedTransactionPayload cc ⟨txType, sender, recipient, amountUnits, nonce,
        feeUnits, payload, timestamp, networkId, chainId⟩ := by
  obtain ⟨amountUnits, hamount, h⟩ := bind_eq_ok.mp h
  obtain ⟨feeUnits, hfee, h⟩ := bind_eq_ok.mp h
  obtain ⟨txType, htype, h⟩ := bind_eq_ok.mp h
  obtain ⟨sender, hsender, h⟩ := bind_eq_ok.mp h
  obtain ⟨recipient, hrecipient, h⟩ := bind_eq_ok.mp h
  obtain ⟨nonceValue, hnonceValue, h⟩ := bind_eq_ok.mp h
  obtain ⟨nonce, hnonce, h⟩ := bind_eq_ok.mp h
  obtain ⟨payload, hpayload, h⟩ := bind_eq_ok.mp h
  obtain ⟨timestamp, htimestamp, h⟩ := bind_eq_ok.mp h
  obtain ⟨networkId, hnetwork, h⟩ := bind_eq_ok.mp h
  obtain ⟨chainId, hchain, h⟩ := bind_eq_ok.mp h
  refine ⟨amountUnits, feeUnits, txType, sender, recipient, nonceValue, nonce, payload, timestamp,
    networkId, chainId, moneyUnits_of_clientUnits hamount, moneyUnits_of_clientUnits hfee, htype,
    hsender, hrecipient, hnonceValue, hnonce, hpayload, htimestamp, hnetwork, hchain, ?_⟩
  rw [← pure_eq_ok.mp h]
  simp only [unsignedTransactionPayload, orElse_orElse]

theorem sameValue_null_str (s : String) : sameValue .null (.str s) = false := by
  unfold sameValue canonicalJson
  rw [decide_eq_false_iff_not]
  intro h
  have hlist := congrArg String.toList h
  rw [String.toList_ofList, String.toList_ofList] at hlist
  cases hlist

/-- What the node's unsigned payload of a transaction is read from. -/
theorem unsignedFromValue_eq_ok {cc : ClientConfig} {tx : Value} {unsigned : UnsignedDict}
    (h : unsignedFromValue cc tx = .ok unsigned) :
    ∃ (a : UnsignedArgs) (nonceItem : Value), item tx "tx_type" = .ok a.txType ∧
      item tx "sender" = .ok a.sender ∧ get tx "recipient" = .ok a.recipient ∧
      moneyUnits cc tx "amount_units" "amount" = .ok a.amountUnits ∧
      item tx "nonce" = .ok nonceItem ∧ toInt cc nonceItem = .ok a.nonce ∧
      moneyUnits cc tx "fee_units" "fee" = .ok a.feeUnits ∧ get tx "payload" = .ok a.payload ∧
      item tx "timestamp" = .ok a.timestamp ∧ unsigned = unsignedTransactionPayload cc a := by
  obtain ⟨txType, htype, h⟩ := bind_eq_ok.mp h
  obtain ⟨sender, hsender, h⟩ := bind_eq_ok.mp h
  obtain ⟨recipient, hrecipient, h⟩ := bind_eq_ok.mp h
  obtain ⟨amountUnits, hamount, h⟩ := bind_eq_ok.mp h
  obtain ⟨nonceItem, hnonceItem, h⟩ := bind_eq_ok.mp h
  obtain ⟨nonce, hnonce, h⟩ := bind_eq_ok.mp h
  obtain ⟨feeUnits, hfee, h⟩ := bind_eq_ok.mp h
  obtain ⟨payload, hpayload, h⟩ := bind_eq_ok.mp h
  obtain ⟨timestamp, htimestamp, h⟩ := bind_eq_ok.mp h
  obtain ⟨networkId, -, h⟩ := bind_eq_ok.mp h
  obtain ⟨chainId, -, h⟩ := bind_eq_ok.mp h
  exact ⟨⟨txType, sender, recipient, amountUnits, nonce, feeUnits, payload, timestamp, networkId,
    chainId⟩, nonceItem, htype, hsender, hrecipient, hamount, hnonceItem, hnonce, hfee, hpayload,
    htimestamp, (pure_eq_ok.mp h).symm⟩

/-- What the node has checked of a transaction that it accepts. -/
theorem isSignatureValidValue_inv {cc : ClientConfig} {tx : Value}
    (h : isSignatureValidValue cc tx = true) :
    ∃ unsigned publicKey txHash sender form signature, unsignedFromValue cc tx = .ok unsigned ∧
      item tx "public_key" = .ok publicKey ∧ item tx "tx_hash" = .ok txHash ∧
      get tx "sender" = .ok sender ∧ addressMatches cc.toConfig sender publicKey = true ∧
      matchingSignaturePayload cc.toConfig unsigned publicKey txHash = some form ∧
      item tx "signature" = .ok signature := by
  unfold isSignatureValidValue at h
  split at h
  · next valid hcheck =>
    subst h
    obtain ⟨unsigned, hunsigned, hcheck⟩ := bind_eq_ok.mp hcheck
    obtain ⟨publicKey, hkey, hcheck⟩ := bind_eq_ok.mp hcheck
    obtain ⟨txHash, hhash, hcheck⟩ := bind_eq_ok.mp hcheck
    obtain ⟨networkId, -, hcheck⟩ := bind_eq_ok.mp hcheck
    obtain ⟨chainId, -, hcheck⟩ := bind_eq_ok.mp hcheck
    obtain ⟨sender, hsender, hcheck⟩ := bind_eq_ok.mp hcheck
    split at hcheck
    · cases hcheck
    next hpasses =>
    rw [Bool.not_eq_true, Bool.not_eq_false', Bool.and_eq_true] at hpasses
    split at hcheck
    · cases hcheck
    next form hmatch =>
    obtain ⟨signature, hsignature, -⟩ := bind_eq_ok.mp hcheck
    exact ⟨unsigned, publicKey, txHash, sender, form, signature, hunsigned, hkey, hhash, hsender,
      hpasses.2, hmatch, hsignature⟩
  · cases h

/-- A transaction that passes the client's checks passes the node's if and only if it has the keys
that the client does without, and its sender is the address of its key. -/
theorem isSignatureValidValue_iff {cc : ClientConfig} (hchain : cc.chainId.str ≠ "None")
    {tx : Value} (hhash : HasKey tx "tx_hash") (h : clientChecksTx cc tx = .ok none) :
    isSignatureValidValue cc tx = true ↔ SignedByOwner cc tx := by
  obtain ⟨unsigned, publicKey, txHash, signature, signed, hunsigned, hchainText, hnetworkText,
    hkey, hhash', hsignature, hmatching, hverify⟩ := clientChecksTx_eq_none h
  obtain ⟨amountUnits, feeUnits, txType, sender, recipient, nonceValue, nonce, payload, timestamp,
    networkId, chainId, hamount, hfee, htype, hsender, hrecipient, hnonceValue, hnonce, hpayload,
    htimestamp, hnetwork, hchainId, rfl⟩ := clientUnsigned_eq_ok hunsigned
  -- the client's check of the chain and the network needs the two keys
  have hchainItem : item tx "chain_id" = .ok chainId := by
    rcases get_eq_ok hchainId with hitem | ⟨-, hnull⟩
    · exact hitem
    · rw [show (unsignedTransactionPayload cc _).chainId = chainId from rfl, hnull] at hchainText
      exact absurd (hchainText.symm.trans cc.textOf_null) hchain
  have hnetworkItem : item tx "network_id" = .ok networkId := by
    rcases get_eq_ok hnetwork with hitem | ⟨-, hnull⟩
    · exact hitem
    · rw [show (unsignedTransactionPayload cc _).networkId = networkId from rfl, hnull]
        at hnetworkText
      rw [sameValue_null_str] at hnetworkText
      cases hnetworkText
  have hhashItem : item tx "tx_hash" = .ok txHash := by
    rcases get_eq_ok hhash' with hitem | ⟨hno, -⟩
    · exact hitem
    · exact absurd hhash hno
  constructor
  · intro hvalid
    obtain ⟨unsigned', publicKey', txHash', sender', _, signature', hunsigned', hkeyItem, -, hsender',
      howner, -, hsignatureItem⟩ := isSignatureValidValue_inv hvalid
    obtain ⟨a, nonceItem, htype', hsenderItem, -, -, hnonceItem, hnonce', -, -, htimestamp', -⟩ :=
      unsignedFromValue_eq_ok hunsigned'
    rw [item_eq_ok hsenderItem] at hsender'
    cases hsender'
    exact ⟨⟨_, htype'⟩, ⟨_, htimestamp'⟩, ⟨_, hsignatureItem⟩, ⟨_, _, hnonceItem, hnonce'⟩,
      ⟨_, _, hsenderItem, hkeyItem, howner⟩⟩
  · rintro ⟨⟨txType', htype'⟩, ⟨timestamp', htimestamp'⟩, ⟨signature', hsignature'⟩,
      ⟨nonceItem, n, hnonceItem, hn⟩, ⟨sender', publicKey', hsender', hkey', howner⟩⟩
    -- each key that the node requires is there, so both read the same values
    rw [item_eq_ok htype'] at htype
    rw [item_eq_ok htimestamp'] at htimestamp
    rw [item_eq_ok hsignature'] at hsignature
    rw [item_eq_ok hnonceItem] at hnonceValue
    rw [item_eq_ok hsender'] at hsender
    rw [item_eq_ok hkey'] at hkey
    cases htype
    cases htimestamp
    cases hsignature
    cases hnonceValue
    cases hsender
    cases hkey
    rw [toInt_orElse hn] at hnonce
    cases hnonce
    have hnode : unsignedFromValue cc tx = .ok (unsignedTransactionPayload cc ⟨txType, sender,
        recipient, amountUnits, nonce, feeUnits, payload, timestamp, networkId, chainId⟩) := by
      unfold unsignedFromValue
      simp only [htype', hsender', hrecipient, hamount, hnonceItem, hn, hfee, hpayload, htimestamp',
        item_eq_ok hnetworkItem, item_eq_ok hchainItem, bind, Except.bind]
      rfl
    have hcheck : checkSignature cc tx = .ok true := by
      unfold checkSignature
      simp only [hnode, hkey', hhashItem, hnetwork, hchainId, item_eq_ok hsender', bind,
        Except.bind]
      rw [if_neg (by simpa [howner, hnetworkText] using ⟨hnetworkText, hchainText⟩), hmatching]
      simp only [hsignature', hverify]
      rfl
    unfold isSignatureValidValue
    rw [hcheck]

/-! ## A job -/

/-- Every element of a list that is mapped without an error has an image. -/
theorem mapM_forall {α β : Type} {f : α → Except PyError β} {l : List α} {ys : List β}
    (h : l.mapM f = .ok ys) : ∀ x ∈ l, ∃ y, f x = .ok y := by
  induction l generalizing ys with
  | nil => exact fun x hx => nomatch hx
  | cons a rest ih =>
    rw [List.mapM_cons] at h
    obtain ⟨y, hy, h⟩ := bind_eq_ok.mp h
    obtain ⟨ys', hrest, -⟩ := bind_eq_ok.mp h
    intro x hx
    rcases List.mem_cons.mp hx with rfl | hx
    · exact ⟨y, hy⟩
    · exact ih hrest x hx

/-- What the client checks of a job that lists transactions. -/
theorem validateTransactions_eq_none {cc : ClientConfig} {job : Value}
    {transactions txHashes : List Value}
    (h : validateTransactions cc job transactions txHashes = .ok none)
    (hlisted : transactions ≠ []) :
    (∃ actual, transactions.mapM (fun tx => get tx "tx_hash") = .ok actual ∧
        sameValues actual txHashes = true) ∧
      (∀ tx ∈ transactions, HasKey tx "tx_hash" ∧ clientChecksTx cc tx = .ok none) ∧
      ∃ c root fees, jobCommitment cc transactions = .ok c ∧
        get job "tx_merkle_root" = .ok root ∧
        sameValue (.str c.txMerkleRoot) (orElse root (.str "")) = true ∧
        get job "tx_fee_total_units" = .ok fees ∧
        toInt cc (orElse fees (.int 0)) = .ok c.txFeeTotalUnits := by
  unfold validateTransactions at h
  rw [if_neg (by simpa using hlisted)] at h
  -- the checks in the order of the source, each with what its passing says
  obtain ⟨actual, hactual, h⟩ := bind_eq_ok.mp h
  split at h
  · cases h
  next horder =>
  obtain ⟨refusal, hrefusal, h⟩ := bind_eq_ok.mp h
  cases refusal with
  | some reason => cases h
  | none =>
    obtain ⟨c, hc, h⟩ := bind_eq_ok.mp h
    obtain ⟨root, hroot, h⟩ := bind_eq_ok.mp h
    split at h
    · cases h
    next hsameRoot =>
    obtain ⟨fees, hfees, h⟩ := bind_eq_ok.mp h
    obtain ⟨total, htotal, h⟩ := bind_eq_ok.mp h
    split at h
    · cases h
    next hsameTotal =>
    obtain ⟨hashes, hhashes, -⟩ := bind_eq_ok.mp hc
    refine ⟨⟨actual, hactual, by simpa using horder⟩, fun tx htx => ⟨mapM_forall hhashes tx htx,
      firstRefusal_eq_none.mp hrefusal tx htx⟩, c, root, fees, hc, hroot, by simpa using hsameRoot,
      hfees, ?_⟩
    rw [not_not.mp hsameTotal]
    exact htotal

/-- What the client checks of a job. -/
theorem validateJob_eq_none {cc : ClientConfig} {job : Value} {workers : ℤ}
    (h : validateJob cc job workers = .ok none) :
    ∃ txHashes transactions count stated, jobList job "selected_tx_hashes" = .ok txHashes ∧
      jobList job "transactions" = .ok transactions ∧ get job "tx_count" = .ok count ∧
      toInt cc (orElse count (.int 0)) = .ok txHashes.length ∧
      get job "selected_tx_hashes_hash" = .ok stated ∧
      sameValue (.str (selectedHashesHash cc txHashes))
        (orElse stated (.str (selectedHashesHash cc []))) = true ∧
      validateTransactions cc job transactions txHashes = .ok none ∧
      validateSamples cc job workers = .ok none := by
  obtain ⟨txHashes, htxHashes, h⟩ := bind_eq_ok.mp h
  obtain ⟨transactions, htransactions, h⟩ := bind_eq_ok.mp h
  obtain ⟨count, hcount, h⟩ := bind_eq_ok.mp h
  obtain ⟨txCount, htxCount, h⟩ := bind_eq_ok.mp h
  obtain ⟨stated, hstated, h⟩ := bind_eq_ok.mp h
  dsimp only at h
  split at h
  · cases h
  next hlength =>
  split at h
  · cases h
  next hsame =>
  obtain ⟨refusal, hrefusal, h⟩ := bind_eq_ok.mp h
  cases refusal with
  | some reason => cases h
  | none =>
    refine ⟨txHashes, transactions, count, stated, htxHashes, htransactions, hcount, ?_, hstated,
      by simpa using hsame, hrefusal, h⟩
    rw [not_not.mp hlength]
    exact htxCount

theorem sameValues_nil {ws : List Value} (h : sameValues [] ws = true) : ws = [] := by
  cases ws with
  | nil => rfl
  | cons w rest => cases h

/-- Equal lists are equally long. -/
theorem length_of_sameValues {vs ws : List Value} (h : sameValues vs ws = true) :
    vs.length = ws.length := by
  induction vs generalizing ws with
  | nil => rw [sameValues_nil h]
  | cons v rest ih =>
    cases ws with
    | nil => cases h
    | cons w ws =>
      rw [sameValues, Bool.and_eq_true] at h
      rw [List.length_cons, List.length_cons, ih h.2]

/-- The value that a returning access gives. -/
theorem toOption_getD {x : Except PyError Value} {v : Value} (h : x = .ok v) :
    x.toOption.getD .null = v := by
  rw [h]
  rfl

/-- The commitment to no transactions. -/
theorem jobCommitment_nil (cc : ClientConfig) :
    jobCommitment cc [] = .ok (transactionCommitment cc.toConfig []) := rfl

/-- The transactions of an approved job are sound exactly where the client's omissions do no
harm. -/
theorem soundTransactions_iff {cc : ClientConfig} (hchain : cc.chainId.str ≠ "None") {job : Value}
    {workers : ℤ} (h : validateJob cc job workers = .ok none) {transactions txHashes : List Value}
    (htransactions : jobList job "transactions" = .ok transactions)
    (htxHashes : jobList job "selected_tx_hashes" = .ok txHashes) :
    SoundTransactions cc job transactions txHashes ↔
      (transactions = [] → SaysEmpty cc job) ∧ ∀ tx ∈ transactions, SignedByOwner cc tx := by
  obtain ⟨txHashes', transactions', count, stated, htxHashes', htransactions', hcount, hlength,
    hstated, hhash, hlisted, -⟩ := validateJob_eq_none h
  rw [htxHashes] at htxHashes'
  rw [htransactions] at htransactions'
  cases htxHashes'
  cases htransactions'
  rw [← toOption_getD hcount] at hlength
  rw [← toOption_getD hstated] at hhash
  by_cases hempty : transactions = []
  · subst hempty
    constructor
    · intro hsound
      obtain ⟨c, hc, hroot, hfees⟩ := hsound.commitment
      rw [jobCommitment_nil] at hc
      cases hc
      exact ⟨fun _ => ⟨hsound.count, hroot, hfees⟩, fun tx htx => nomatch htx⟩
    · rintro ⟨hempty, -⟩
      have hempties := hempty rfl
      -- the listed hashes are as many as the count says
      have hnone : txHashes = [] := by
        rw [hempties.count] at hlength
        rw [← List.length_eq_zero_iff]
        exact_mod_cast (Except.ok.inj hlength).symm
      subst hnone
      exact ⟨hempties.count, ⟨[], rfl, rfl⟩, hhash, (fun tx htx => nomatch htx),
        _, jobCommitment_nil cc, hempties.root, hempties.fees⟩
  · obtain ⟨⟨actual, hactual, hsame⟩, hchecks, c, root, fees, hc, hroot, hsameRoot, hfees,
      htotal⟩ := validateTransactions_eq_none hlisted hempty
    have hvalid : ∀ tx ∈ transactions,
        (isSignatureValidValue cc tx = true ↔ SignedByOwner cc tx) := fun tx htx =>
      isSignatureValidValue_iff hchain (hchecks tx htx).1 (hchecks tx htx).2
    constructor
    · exact fun hsound => ⟨fun hnil => absurd hnil hempty,
        fun tx htx => (hvalid tx htx).mp (hsound.signatures tx htx)⟩
    · rintro ⟨-, howners⟩
      refine ⟨?_, ⟨actual, hactual, hsame⟩, hhash,
        fun tx htx => (hvalid tx htx).mpr (howners tx htx), c, hc, ?_, ?_⟩
      · rw [hlength, ← length_of_sameValues hsame, length_of_mapM hactual]
      · rw [toOption_getD hroot]
        exact hsameRoot
      · rw [toOption_getD hfees]
        exact htotal

/-- **An approved job is sound** if and only if it is complete in what the client does not check,
for any number of workers. -/
theorem soundJob_iff {cc : ClientConfig} (hchain : cc.chainId.str ≠ "None") {job : Value}
    {workers : ℤ} (h : validateJob cc job workers = .ok none) :
    SoundJob cc job ↔ CompleteJob cc job := by
  obtain ⟨txHashes, transactions, -, -, htxHashes, htransactions, -, -, -, -, -, hsamples⟩ :=
    validateJob_eq_none h
  obtain ⟨samples, algorithm, merkleRoot, hlist, halgorithm, hroot, hshow⟩ :=
    validateSamples_eq_none.mp hsamples
  constructor
  · rintro ⟨⟨transactions', txHashes', htransactions', htxHashes', hsound⟩,
      ⟨samples', _, _, hlist', -, -, hsome, hall⟩⟩
    refine ⟨⟨transactions', htransactions',
      (soundTransactions_iff hchain h htransactions' htxHashes').mp hsound⟩, ?_⟩
    exact ⟨samples', hlist', hsome, fun sample hsample => (hall sample hsample).2⟩
  · rintro ⟨⟨transactions', htransactions', hcomplete⟩, ⟨samples', hlist', hsome, hrange⟩⟩
    rw [hlist] at hlist'
    cases hlist'
    refine ⟨⟨transactions', txHashes, htransactions', htxHashes,
      (soundTransactions_iff hchain h htransactions' htxHashes).mpr hcomplete⟩, ?_⟩
    exact ⟨samples, algorithm, merkleRoot, hlist, halgorithm, hroot, hsome,
      fun sample hsample => ⟨hshow sample hsample, hrange sample hsample⟩⟩

/-- A client on the local network. It knows the first two hexadecimal digits of pi. -/
def localClient : ClientConfig :=
  { localConfig with
    caseMap := addressCase
    intOfText := fun text => if text = "" then none else text.toInt?
    intOfText_empty := if_pos rfl
    decimalOfText := fun text => (String.toInt? text).map fun n => ⟨n, 0⟩
    textOf := fun v => if canonicalJson v = "null" then "None" else canonicalJson v
    textOf_null := by decide
    piDigit := fun position algorithm =>
      if sameValue algorithm (.str "bbp_hex_v1") = false then none
      else if position = 1 then some "2"
      else if position = 2 then some "4"
      else none
    utcNow := "2026-05-10T00:00:00+00:00" }

/-- The leaf of a digit. -/
def localLeaf (position : ℤ) (digit : String) : String :=
  leafHash localConfig addressCase position digit

/-- What Alice signs to send Bob 1000 units. -/
def localUnsigned : UnsignedDict :=
  unsignedTransactionPayload localClient
    { txType := .str "transfer"
      sender := .str aliceAddress
      recipient := .str bobAddress
      amountUnits := 1000
      nonce := 1
      feeUnits := 200
      payload := .obj []
      timestamp := .str "2026-05-10T00:00:00+00:00"
      networkId := .str localConfig.networkId
      chainId := localConfig.chainId.toJson }

def localTxHash : String :=
  localConfig.hashJson (.obj [("public_key", .str aliceKey), ("tx", localUnsigned.toJson)])

/-- Alice's transfer, signed. -/
def localSignedTx : Value :=
  .obj [("tx_type", .str "transfer"), ("sender", .str aliceAddress),
    ("recipient", .str bobAddress), ("amount_units", .int 1000), ("nonce", .int 1),
    ("fee_units", .int 200), ("payload", .obj []),
    ("timestamp", .str "2026-05-10T00:00:00+00:00"),
    ("network_id", .str localConfig.networkId), ("chain_id", localConfig.chainId.toJson),
    ("public_key", .str aliceKey), ("signature", .str "signed"), ("tx_hash", .str localTxHash)]

/-- A sample with the leaf of the other digit as its proof. -/
def localSample (position : ℤ) (digit side sibling : String) : Value :=
  .obj [("position", .int position), ("digit", .str digit),
    ("proof", .arr [.obj [("side", .str side), ("hash", .str sibling)]])]

/-- A job for the first two digits, with the transfer. -/
def localDigitJob : Value :=
  .obj [("algorithm", .str "bbp_hex_v1"),
    ("merkle_root", .str (parentHash localConfig (localLeaf 1 "2") (localLeaf 2 "4"))),
    ("range_start", .int 1), ("range_end", .int 2),
    ("samples", .arr [localSample 1 "2" "right" (localLeaf 2 "4"),
      localSample 2 "4" "left" (localLeaf 1 "2")]),
    ("tx_count", .int 1), ("selected_tx_hashes", .arr [.str localTxHash]),
    ("selected_tx_hashes_hash", .str (selectedTxHashesHash localConfig [localTxHash])),
    ("transactions", .arr [localSignedTx]),
    ("tx_merkle_root", .str (txMerkleRoot localConfig [localTxHash])),
    ("tx_fee_total_units", .int 200)]

/-- A text that is not empty is no default. -/
theorem orElse_of_ne {text : String} (h : text ≠ "") (default : Value) :
    orElse (.str text) default = .str text := if_pos (decide_eq_true h)

/-- The empty text is its own default. -/
theorem orElse_text (text : String) : orElse (.str text) (.str "") = .str text := by
  by_cases h : text = ""
  · rw [h]
    rfl
  · exact orElse_of_ne h _

/-- A value is the same as itself. -/
theorem sameValue_self (v : Value) : sameValue v v = true := decide_eq_true rfl

/-- The hash of the transfer is that of its payload, in the first form that is tried. -/
theorem matching_localUnsigned :
    matchingSignaturePayload localConfig localUnsigned (.str aliceKey) (.str localTxHash) =
      some localUnsigned := by
  obtain ⟨rest, hrest⟩ : ∃ rest, signaturePayloadCandidates localUnsigned =
      localUnsigned :: rest := ⟨_, rfl⟩
  unfold matchingSignaturePayload
  rw [hrest]
  exact List.find?_cons_of_pos (sameValue_self _)

/-- The client finds nothing wrong with the transfer. -/
theorem clientChecksTx_localSignedTx : clientChecksTx localClient localSignedTx = .ok none := by
  have hunsigned : clientUnsigned localClient localSignedTx = .ok localUnsigned := rfl
  have hnetwork : sameValue localUnsigned.networkId (.str localClient.networkId) = true :=
    sameValue_self _
  unfold clientChecksTx
  refine bind_eq_ok.mpr ⟨_, hunsigned, ?_⟩
  rw [if_neg (by rw [hnetwork]; exact not_or.mpr ⟨not_not.mpr rfl, Bool.noConfusion⟩)]
  refine bind_eq_ok.mpr ⟨.str aliceKey, rfl, bind_eq_ok.mpr ⟨.str localTxHash, rfl, ?_⟩⟩
  have hmatching : matchingSignaturePayload localClient.toConfig localUnsigned (.str aliceKey)
      (.str localTxHash) = some localUnsigned := matching_localUnsigned
  rw [hmatching]
  rfl

/-- The client finds nothing wrong with the transactions of the job. -/
theorem validateTransactions_localDigitJob :
    validateTransactions localClient localDigitJob [localSignedTx] [.str localTxHash] =
      .ok none := by
  have hhashes : [localSignedTx].mapM (fun tx => get tx "tx_hash") = .ok [.str localTxHash] := rfl
  have hsame : sameValues [.str localTxHash] [.str localTxHash] = true := by
    unfold sameValues
    rw [sameValue_self]
    rfl
  have hchecks : firstRefusal (clientChecksTx localClient) [localSignedTx] = .ok none :=
    firstRefusal_eq_none.mpr fun tx htx => by
      rw [List.mem_singleton.mp htx, clientChecksTx_localSignedTx]
  have hcommitment : jobCommitment localClient [localSignedTx] =
      .ok (transactionCommitment localConfig [(localTxHash, 200)]) := rfl
  unfold validateTransactions
  rw [if_neg (by decide)]
  refine bind_eq_ok.mpr ⟨_, hhashes, ?_⟩
  rw [hsame]
  refine bind_eq_ok.mpr ⟨_, hchecks, bind_eq_ok.mpr ⟨_, hcommitment,
    bind_eq_ok.mpr ⟨.str (txMerkleRoot localConfig [localTxHash]), rfl, ?_⟩⟩⟩
  have hroot : (transactionCommitment localConfig [(localTxHash, 200)]).txMerkleRoot =
      txMerkleRoot localConfig [localTxHash] := by
    simp only [transactionCommitment, List.map_cons, List.map_nil]
  have hfees : get localDigitJob "tx_fee_total_units" = .ok (.int 200) := rfl
  have hunits : toInt localClient (orElse (.int 200) (.int 0)) = .ok 200 := rfl
  have htotal :
      (transactionCommitment localConfig [(localTxHash, 200)]).txFeeTotalUnits = 200 := rfl
  rw [hroot, orElse_text, sameValue_self, Bool.not_true, if_neg Bool.false_ne_true, hfees]
  refine bind_eq_ok.mpr ⟨_, rfl, bind_eq_ok.mpr ⟨_, hunits, ?_⟩⟩
  rw [if_neg (not_not.mpr htotal)]
  rfl

/-- A sample whose leaf is one of two passes with the other as its proof. -/
theorem validateSample_localSample {position : ℤ} {digit : String}
    (hdigit : localClient.piDigit position (.str "bbp_hex_v1") = some digit)
    (hupper : addressCase.upper digit = digit) {side sibling root : String}
    (hroot : side = "right" ∧ root = parentHash localConfig (localLeaf position digit) sibling ∨
      side = "left" ∧ root = parentHash localConfig sibling (localLeaf position digit)) :
    validateSample localClient (.str "bbp_hex_v1") (.str root)
      (localSample position digit side sibling) = .ok none := by
  have hcase : localClient.caseMap.upper digit = digit := hupper
  have hleaf : localClient.hashJson (.obj [("digit", .str (localClient.caseMap.upper digit)),
      ("position", .int position)]) = localLeaf position digit := rfl
  have hproof : verifyProofValue localClient (.int position) digit
      (.arr [.obj [("side", .str side), ("hash", .str sibling)]]) (.str root) = .ok true := by
    have hitems : proofItems (.arr [.obj [("side", .str side), ("hash", .str sibling)]]) =
        .ok [(.str side, .str sibling)] := rfl
    unfold verifyProofValue
    refine bind_eq_ok.mpr ⟨_, hitems, ?_⟩
    rw [hleaf]
    rcases hroot with ⟨rfl, rfl⟩ | ⟨rfl, rfl⟩
    · have hside : sameValue (.str "right") (.str "left") = false := by decide
      unfold foldProofValues
      rw [hside, sameValue_self]
      exact congrArg Except.ok (sameValue_self _)
    · unfold foldProofValues
      rw [sameValue_self]
      exact congrArg Except.ok (sameValue_self _)
  unfold validateSample
  refine bind_eq_ok.mpr ⟨.int position, rfl, bind_eq_ok.mpr ⟨.str digit, rfl,
    bind_eq_ok.mpr ⟨position, rfl, ?_⟩⟩⟩
  rw [hdigit]
  have htext : localClient.caseMap.upper (toText localClient (.str digit)) = digit := hcase
  rw [htext]
  dsimp only
  rw [if_neg (not_not.mpr rfl)]
  refine bind_eq_ok.mpr ⟨_, rfl, bind_eq_ok.mpr ⟨_, hproof, rfl⟩⟩

/-- No digest of the local network is empty. -/
theorem hashJson_localConfig_ne_empty (value : Value) : localConfig.hashJson value ≠ "" := by
  show localSha256Text (canonicalJson value) ≠ ""
  have htext : canonicalJson value ≠ "" := fun hempty =>
    render_ne_nil value (by simpa [canonicalJson] using congrArg String.toList hempty)
  unfold localSha256Text
  split_ifs
  · decide
  · decide
  · exact htext

/-- The client approves the job. -/
theorem validateJob_localDigitJob : validateJob localClient localDigitJob 4 = .ok none := by
  have hstated : orElse (.str (selectedTxHashesHash localConfig [localTxHash]))
      (.str (selectedHashesHash localClient [])) =
        .str (selectedTxHashesHash localConfig [localTxHash]) :=
    orElse_of_ne (hashJson_localConfig_ne_empty _) _
  have hsamples : validateSamples localClient localDigitJob 4 = .ok none := by
    unfold validateSamples
    refine bind_eq_ok.mpr ⟨_, rfl, bind_eq_ok.mpr
      ⟨[localSample 1 "2" "right" (localLeaf 2 "4"), localSample 2 "4" "left" (localLeaf 1 "2")],
        rfl, bind_eq_ok.mpr ⟨.str "bbp_hex_v1", rfl, bind_eq_ok.mpr
          ⟨.str (parentHash localConfig (localLeaf 1 "2") (localLeaf 2 "4")), rfl, ?_⟩⟩⟩⟩
    rw [if_neg (by decide), firstRefusal_map, firstRefusal_eq_none]
    intro sample hsample
    rcases List.mem_pair.mp hsample with rfl | rfl
    · exact validateSample_localSample (by decide) (by decide) (.inl ⟨rfl, rfl⟩)
    · exact validateSample_localSample (by decide) (by decide) (.inr ⟨rfl, rfl⟩)
  have hhash : sameValue (.str (selectedHashesHash localClient [.str localTxHash]))
      (orElse (.str (selectedTxHashesHash localConfig [localTxHash]))
        (.str (selectedHashesHash localClient []))) = true := by
    have hsame : selectedHashesHash localClient [.str localTxHash] =
        selectedTxHashesHash localConfig [localTxHash] := rfl
    rw [hstated, hsame, sameValue_self]
  unfold validateJob
  refine bind_eq_ok.mpr ⟨[.str localTxHash], rfl, bind_eq_ok.mpr ⟨[localSignedTx], rfl,
    bind_eq_ok.mpr ⟨.int 1, rfl, bind_eq_ok.mpr ⟨1, rfl, bind_eq_ok.mpr
      ⟨.str (selectedTxHashesHash localConfig [localTxHash]), rfl, ?_⟩⟩⟩⟩⟩
  rw [if_neg (by decide), hhash]
  exact bind_eq_ok.mpr ⟨none, validateTransactions_localDigitJob, hsamples⟩

/-- The approval of the local job is sound. -/
theorem soundJob_localDigitJob :
    validateJob localClient localDigitJob 4 = .ok none ∧ SoundJob localClient localDigitJob := by
  have howner : SignedByOwner localClient localSignedTx :=
    { txType := ⟨_, rfl⟩
      timestamp := ⟨_, rfl⟩
      signature := ⟨_, rfl⟩
      nonce := ⟨_, 1, rfl, rfl⟩
      owner := ⟨_, _, rfl, rfl, addressMatchesPublicKey_alice⟩ }
  refine ⟨validateJob_localDigitJob, (soundJob_iff (by decide) validateJob_localDigitJob).mpr
    ⟨⟨[localSignedTx], rfl, (fun hnone => nomatch hnone), fun tx htx => ?_⟩,
      ⟨_, rfl, List.cons_ne_nil _ _, fun sample hsample => ?_⟩⟩⟩
  · rw [List.mem_singleton.mp htx]
    exact howner
  · rcases List.mem_pair.mp hsample with rfl | rfl
    · exact ⟨.int 1, 1, rfl, rfl, 1, 2, rfl, rfl, by decide, by decide⟩
    · exact ⟨.int 2, 2, rfl, rfl, 1, 2, rfl, rfl, by decide, by decide⟩

/-- A job that announces a transaction but lists none, and has no sample. -/
def localEmptyJob : Value :=
  .obj [("algorithm", .str "bbp_hex_v1"), ("merkle_root", .str "root"), ("range_start", .int 1),
    ("range_end", .int 64), ("samples", .arr []), ("tx_count", .int 1),
    ("selected_tx_hashes", .arr [.str "tx-1"]),
    ("selected_tx_hashes_hash", .str (selectedTxHashesHash localConfig ["tx-1"])),
    ("transactions", .arr [])]

/-- The client approves a job that is not sound. -/
theorem validateJob_unsound :
    validateJob localClient localEmptyJob 4 = .ok none ∧ ¬SoundJob localClient localEmptyJob := by
  refine ⟨by decide +kernel, fun hsound => ?_⟩
  obtain ⟨samples, _, _, hlist, -, -, hsome, -⟩ := hsound.samples
  have hnone : (item localEmptyJob "samples").bind toList = .ok [] := rfl
  rw [hnone] at hlist
  cases hlist
  exact hsome rfl

end Picoin.Client
