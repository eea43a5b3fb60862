import Picoin.Lib.JsonScan
import Picoin.Proofs.PoisonRows
import Picoin.Proofs.TimestampForms

/-!
# What a transaction hash names

A hash may be the one of any form of a transaction's payload, so two objects with one hash have a form
in common. The text of a form determines its fields, and the forms of a field determine the field: the
units of an amount, and the instant of a timestamp. What the forms do not determine is how the node
reads an object: a nonce goes through `int`, and a payload that counts as false stands for the empty one.
-/

namespace Picoin

open Json Outcome

/-! ## Amounts -/

theorem point_notMem_sign (units : ℤ) (n : ℕ) :
    '.' ∉ (if units < 0 then ['-'] else []) ++ (toString n).toList := by
  intro h
  rcases List.mem_append.mp h with h | h
  · split at h
    · exact absurd (List.mem_singleton.mp h) (by decide)
    · cases h
  · exact absurd (isDigit_of_mem_toString h) (by decide)

theorem minus_cons_ne_toString (x : List Char) (n : ℕ) : '-' :: x ≠ (toString n).toList := by
  intro h
  have hdigit : Char.isDigit '-' = true := isDigit_of_mem_toString (h ▸ List.mem_cons_self)
  exact absurd hdigit (by decide)

/-- The text of an amount determines its units. -/
theorem canonicalAmount_inj {u v : ℤ} (h : canonicalAmount u = canonicalAmount v) : u = v := by
  -- the last six digits stand behind the only point
  have hlist := String.ofList_inj.mp h
  obtain ⟨hwhole, hfraction⟩ := append_cons_inj (point_notMem_sign _ _) (point_notMem_sign _ _) hlist
  have hmod : u.natAbs % 10 ^ 6 = v.natAbs % 10 ^ 6 := by
    rw [← ofDigitChars_padded 6 (u.natAbs % 10 ^ 6), ← ofDigitChars_padded 6 (v.natAbs % 10 ^ 6)]
    exact congrArg (fun digits => Nat.ofDigitChars 10 digits 0) hfraction
  have hdiv : ∀ {a b : ℕ}, (toString a).toList = (toString b).toList → a = b := fun hab =>
    nat_repr_inj (String.toList_inj.mp hab)
  split_ifs at hwhole with hu hv hv
  · have hsame := hdiv (List.cons.inj hwhole).2
    omega
  · exact absurd hwhole (minus_cons_ne_toString _ _)
  · exact absurd hwhole.symm (minus_cons_ne_toString _ _)
  · have hsame := hdiv hwhole
    omega

/-! ## Forms -/

namespace Client

/-- The value under a key. -/
def field (tx : Value) (key : String) : Value := (get tx key).toOption.getD .null

/-- The same client at another time. -/
def ClientConfig.at (cc : ClientConfig) (now : String) : ClientConfig := { cc with utcNow := now }

theorem render_eq_of_sameValue {v w : Value} (h : sameValue v w = true) : render v = render w :=
  String.ofList_inj.mp (of_decide_eq_true h)

theorem sameValue_of_render_eq {v w : Value} (h : render v = render w) : sameValue v w = true :=
  decide_eq_true (congrArg String.ofList h)

/-- The forms of an amount determine its units. -/
theorem moneyValues_inj {u u' : ℤ} {v v' : Value} (hv : v ∈ moneyValues u) (hv' : v' ∈ moneyValues u')
    (h : render v = render v') : u = u' := by
  simp only [moneyValues, List.mem_cons, List.not_mem_nil, or_false] at hv hv'
  rcases hv with rfl | rfl <;> rcases hv' with rfl | rfl
  · exact canonicalAmount_inj (render_str_inj h)
  · exact absurd h (render_str_ne_float _ _)
  · exact absurd h.symm (render_str_ne_float _ _)
  · have hfloat : u * 100 = u' * 100 := render_float_inj h
    omega

/-- A form differs from the payload only in how fields are written. -/
structure FormOf (base form : UnsignedDict) : Prop where
  timestamp : form.timestamp ∈ timestampValues base.timestamp
  amount : form.amount ∈ moneyValues base.amountUnits
  fee : form.fee ∈ moneyValues base.feeUnits
  nullRecipient : form.withNullRecipient ∈ recipientValues base.recipient
  rest : (form.sender, form.recipient, form.txType, form.nonce, form.payload) =
    (base.sender, base.recipient, base.txType, base.nonce, base.payload)

theorem formOf_of_mem {base form : UnsignedDict} (h : form ∈ signaturePayloadCandidates base) :
    FormOf base form := by
  simp only [signaturePayloadCandidates, List.mem_flatMap, List.mem_map] at h
  obtain ⟨timestamp, htimestamp, chainId, -, amount, hamount, fee, hfee, withUnits, -, withNull, hnull,
    rfl⟩ := h
  exact ⟨htimestamp, hamount, hfee, hnull, rfl⟩

theorem null_of_left_out {recipient : Value} (h : false ∈ recipientValues recipient) :
    recipient = .null := by
  cases recipient with
  | null => rfl
  | _ => cases List.mem_singleton.mp h

/-- What the text of a form determines. -/
structure SameForm (d d' : UnsignedDict) : Prop where
  timestamp : render d.timestamp = render d'.timestamp
  amount : render d.amount = render d'.amount
  fee : render d.fee = render d'.fee
  sender : render d.sender = render d'.sender
  txType : render d.txType = render d'.txType
  nonce : d.nonce = d'.nonce
  payload : render d.payload = render d'.payload
  recipient : (d.withNullRecipient = true ∧ d'.withNullRecipient = true ∧
    render d.recipient = render d'.recipient) ∨
    (d.withNullRecipient = false ∧ d'.withNullRecipient = false)

theorem sameForm_of_render_eq {d d' : UnsignedDict} (h : render d.toJson = render d'.toJson) :
    SameForm d d' := by
  -- the key of the recipient is in both texts or in neither
  have hrecipient : ∀ {e e' : UnsignedDict}, render e.toJson = render e'.toJson →
      e.withNullRecipient = true → e'.withNullRecipient = true := by
    intro e e' hrender htrue
    unfold UnsignedDict.toJson at hrender
    obtain ⟨w, hw, -⟩ := @exists_field_of_render_eq _ _ hrender "recipient" e.recipient
      (by simp [htrue])
    by_contra hfalse
    rw [Bool.not_eq_true] at hfalse
    cases hunits : e'.withUnits <;> simp [hfalse, hunits] at hw
  have hback := hrecipient h.symm
  have hforth := hrecipient h
  unfold UnsignedDict.toJson at h
  have hfield := render_field_eq h
    (by cases d'.withUnits <;> cases d'.withNullRecipient <;> simp)
  refine
    { timestamp := hfield "timestamp" _ _ (by simp) (by simp)
      amount := hfield "amount" _ _ (by simp) (by simp)
      fee := hfield "fee" _ _ (by simp) (by simp)
      sender := hfield "sender" _ _ (by simp) (by simp)
      txType := hfield "tx_type" _ _ (by simp) (by simp)
      nonce := render_int_inj (hfield "nonce" _ _ (by simp) (by simp))
      payload := hfield "payload" _ _ (by simp) (by simp)
      recipient := ?_ }
  cases hnull : d.withNullRecipient with
  | true =>
    have hnull' := hforth hnull
    exact .inl ⟨rfl, hnull', hfield "recipient" _ _ (by simp [hnull]) (by simp [hnull'])⟩
  | false =>
    refine .inr ⟨rfl, ?_⟩
    cases hnull' : d'.withNullRecipient with
    | true => exact absurd (hnull.symm.trans (hback hnull')) Bool.false_ne_true
    | false => rfl

/-! ## Objects -/

/-- A payload that the node builds from an object, and the form of it that the object's hash is of. -/
structure HashedForm (cc : ClientConfig) (tx : Value) (a : UnsignedArgs) (form : UnsignedDict) : Prop where
  txType : field tx "tx_type" = a.txType
  sender : field tx "sender" = a.sender
  recipient : field tx "recipient" = a.recipient
  amountUnits : moneyUnits cc tx "amount_units" "amount" = .ok a.amountUnits
  nonce : toInt cc (field tx "nonce") = .ok a.nonce
  feeUnits : moneyUnits cc tx "fee_units" "fee" = .ok a.feeUnits
  payload : field tx "payload" = a.payload
  timestamp : field tx "timestamp" = a.timestamp
  isForm : FormOf (unsignedTransactionPayload cc a) form
  hash : sameValue (.str (cc.hashJson (.obj [("public_key", field tx "public_key"),
    ("tx", form.toJson)]))) (field tx "tx_hash") = true

theorem field_of_get {tx x : Value} {key : String} (h : get tx key = .ok x) : field tx key = x := by
  rw [field, h]
  rfl

/-- An object that the node accepts has a form with its hash. -/
theorem hashedForm_of_valid {cc : ClientConfig} {tx : Value} (h : isSignatureValidValue cc tx = true) :
    ∃ a form, HashedForm cc tx a form := by
  obtain ⟨unsigned, publicKey, txHash, _, form, _, hunsigned, hkey, hhash, -, -, hmatch, -⟩ :=
    isSignatureValidValue_inv h
  obtain ⟨a, nonceItem, htype, hsender, hrecipient, hamount, hnonceItem, hnonce, hfee, hpayload,
    htimestamp, rfl⟩ := unsignedFromValue_eq_ok hunsigned
  have hfield : ∀ {key : String} {x : Value}, item tx key = .ok x → field tx key = x :=
    fun hitem => field_of_get (item_eq_ok hitem _)
  refine ⟨a, form, hfield htype, hfield hsender, field_of_get hrecipient, hamount, ?_, hfee,
    field_of_get hpayload, hfield htimestamp, formOf_of_mem (List.mem_of_find?_eq_some hmatch), ?_⟩
  · rw [hfield hnonceItem]
    exact hnonce
  · unfold matchingSignaturePayload at hmatch
    have hfound := List.find?_some hmatch
    rw [hfield hkey, hfield hhash]
    exact hfound

/-- What a reader reads of a timestamp; a value that is no text denotes no instant. -/
def readValue {ι : Type} (reader : TimestampReader ι) : Value → Option ι
  | .str t => reader.read t
  | _ => none

/-- Two objects are one transaction to the node. -/
structure SameTransaction {ι : Type} (cc : ClientConfig) (reader : TimestampReader ι) (tx tx' : Value) :
    Prop where
  publicKey : sameValue (field tx "public_key") (field tx' "public_key") = true
  sender : sameValue (field tx "sender") (field tx' "sender") = true
  recipient : sameValue (field tx "recipient") (field tx' "recipient") = true
  txType : sameValue (field tx "tx_type") (field tx' "tx_type") = true
  nonce : ∃ n, toInt cc (field tx "nonce") = .ok n ∧ toInt cc (field tx' "nonce") = .ok n
  amountUnits : ∃ u, moneyUnits cc tx "amount_units" "amount" = .ok u ∧
    moneyUnits cc tx' "amount_units" "amount" = .ok u
  feeUnits : ∃ u, moneyUnits cc tx "fee_units" "fee" = .ok u ∧
    moneyUnits cc tx' "fee_units" "fee" = .ok u
  payload : sameValue (orElse (field tx "payload") (.obj []))
    (orElse (field tx' "payload") (.obj [])) = true
  instant : ∀ i j, readValue reader (field tx "timestamp") = some i →
    readValue reader (field tx' "timestamp") = some j → i = j

/-- A timestamp that is read is written in one of its forms. -/
theorem readValue_form {ι : Type} {reader : TimestampReader ι} {timestamp default form : Value} {i : ι}
    (hread : readValue reader timestamp = some i)
    (hform : form ∈ timestampValues (orElse timestamp default)) :
    ∃ t w, timestamp = .str t ∧ form = .str w ∧ w ∈ timestampVariants t ∧ reader.read t = some i := by
  cases timestamp with
  | str t =>
    have hsome : t ≠ "" := fun hempty => by
      rw [readValue, hempty, reader.read_empty] at hread
      cases hread
    have htext : orElse (.str t) default = .str t := if_pos (decide_eq_true hsome)
    rw [htext] at hform
    obtain ⟨w, hw, rfl⟩ := List.mem_map.mp hform
    exact ⟨t, w, rfl, rfl, hw, hread⟩
  | _ => cases hread

/-- A hash names one transaction, whenever the two objects are checked. -/
theorem transaction_of_hash {ι : Type} (reader : TimestampReader ι) {cc : ClientConfig}
    (hsha : Function.Injective cc.sha256Text) {now now' : String} {tx tx' : Value}
    (hvalid : isSignatureValidValue (cc.at now) tx = true)
    (hvalid' : isSignatureValidValue (cc.at now') tx' = true)
    (hhash : sameValue (field tx "tx_hash") (field tx' "tx_hash") = true) :
    SameTransaction cc reader tx tx' := by
  obtain ⟨a, form, h⟩ := hashedForm_of_valid hvalid
  obtain ⟨a', form', h'⟩ := hashedForm_of_valid hvalid'
  -- the two hashes are of one text
  have htext : cc.hashJson (.obj [("public_key", field tx "public_key"), ("tx", form.toJson)]) =
      cc.hashJson (.obj [("public_key", field tx' "public_key"), ("tx", form'.toJson)]) :=
    render_str_inj ((render_eq_of_sameValue h.hash).trans
      ((render_eq_of_sameValue hhash).trans (render_eq_of_sameValue h'.hash).symm))
  have hfield := render_field_eq (String.ofList_inj.mp (hsha htext)) (by simp)
  have hsame := sameForm_of_render_eq
    (hfield "tx" form.toJson form'.toJson (by simp) (by simp))
  obtain ⟨hsender, hrecipient, htype, hnonce, hpayload⟩ : form.sender = a.sender ∧
      form.recipient = a.recipient ∧ form.txType = a.txType ∧ form.nonce = a.nonce ∧
      form.payload = orElse a.payload (.obj []) := by
    simpa [unsignedTransactionPayload] using h.isForm.rest
  obtain ⟨hsender', hrecipient', htype', hnonce', hpayload'⟩ : form'.sender = a'.sender ∧
      form'.recipient = a'.recipient ∧ form'.txType = a'.txType ∧ form'.nonce = a'.nonce ∧
      form'.payload = orElse a'.payload (.obj []) := by
    simpa [unsignedTransactionPayload] using h'.isForm.rest
  have hamount : a.amountUnits = a'.amountUnits :=
    moneyValues_inj h.isForm.amount h'.isForm.amount hsame.amount
  have hfee : a.feeUnits = a'.feeUnits := moneyValues_inj h.isForm.fee h'.isForm.fee hsame.fee
  refine
    { publicKey := sameValue_of_render_eq (hfield "public_key" _ _ (by simp) (by simp))
      sender := sameValue_of_render_eq ?_
      recipient := sameValue_of_render_eq ?_
      txType := sameValue_of_render_eq ?_
      nonce := ⟨a.nonce, h.nonce, ?_⟩
      amountUnits := ⟨a.amountUnits, h.amountUnits, hamount ▸ h'.amountUnits⟩
      feeUnits := ⟨a.feeUnits, h.feeUnits, hfee ▸ h'.feeUnits⟩
      payload := sameValue_of_render_eq ?_
      instant := ?_ }
  · rw [h.sender, h'.sender, ← hsender, ← hsender']
    exact hsame.sender
  · rw [h.recipient, h'.recipient]
    rcases hsame.recipient with ⟨-, -, hrender⟩ | ⟨hnull, hnull'⟩
    · rw [← hrecipient, ← hrecipient']
      exact hrender
    · -- only a null recipient is left out
      have habsent : a.recipient = .null := null_of_left_out (hnull ▸ h.isForm.nullRecipient)
      have habsent' : a'.recipient = .null := null_of_left_out (hnull' ▸ h'.isForm.nullRecipient)
      rw [habsent, habsent']
  · rw [h.txType, h'.txType, ← htype, ← htype']
    exact hsame.txType
  · rw [← hnonce, hsame.nonce, hnonce']
    exact h'.nonce
  · rw [h.payload, h'.payload, ← hpayload, ← hpayload']
    exact hsame.payload
  · intro i j hi hj
    rw [h.timestamp] at hi
    rw [h'.timestamp] at hj
    obtain ⟨t, w, -, hw, hmem, ht⟩ := readValue_form hi h.isForm.timestamp
    obtain ⟨t', w', -, hw', hmem', ht'⟩ := readValue_form hj h'.isForm.timestamp
    have hrender := hsame.timestamp
    rw [hw, hw'] at hrender
    obtain rfl := render_str_inj hrender
    exact read_of_variant reader hmem hmem' ht ht'

/-! ## Two spellings -/

/-- A client whose stand-in for SHA-256 is injective. -/
def exactClient : ClientConfig := { localClient with sha256Text := id }

/-- The key of the first wallet's address there. -/
def exactKey : String := "AAAAAAAAAAAAAAAAAAAAAAAAAAAAAAAAAAAAAA"

/-- The payload of a stake of nothing. -/
def spelledPayload : UnsignedDict :=
  unsignedTransactionPayload exactClient
    { txType := .str "stake"
      sender := .str aliceAddress
      recipient := .null
      amountUnits := 0
      nonce := 1
      feeUnits := 0
      payload := .obj []
      timestamp := .str "2026-05-10T00:00:00+00:00"
      networkId := .str "local"
      chainId := .str "picoin-local-testnet" }

def spelledHash : String :=
  exactClient.hashJson (.obj [("public_key", .str exactKey), ("tx", spelledPayload.toJson)])

/-- The stake as an object that spells its payload, its nonce and its timestamp in some way. -/
def spelledTx (payload nonce : Value) (timestamp : String) : Value :=
  .obj [("tx_hash", .str spelledHash), ("public_key", .str exactKey), ("payload", payload),
    ("timestamp", .str timestamp), ("tx_type", .str "stake"), ("sender", .str aliceAddress),
    ("amount_units", .int 0), ("nonce", nonce), ("fee_units", .int 0), ("signature", .str "signed"),
    ("network_id", .str "local"), ("chain_id", .str "picoin-local-testnet")]

/-- `datetime.fromisoformat` at one instant, in seconds. -/
def localReader : TimestampReader ℕ where
  read timestamp :=
    if utcText timestamp = some "2026-05-10T00:00:00".toList then some 1778371200 else none
  read_empty := by decide
  read_zulu start := by rw [utcText_zulu, utcText_offset]
  read_zeros whole fraction m n i j _ hi hj := by
    split at hi
    · split at hj
      · exact (Option.some.inj hi).symm.trans (Option.some.inj hj)
      · cases hj
    · cases hi

theorem exists_matching {base : UnsignedDict} (h : spelledPayload ∈ signaturePayloadCandidates base) :
    ∃ form, matchingSignaturePayload exactClient.toConfig base (.str exactKey) (.str spelledHash) =
      some form := by
  refine Option.isSome_iff_exists.mp (List.find?_isSome.mpr ⟨spelledPayload, h, ?_⟩)
  exact sameValue_of_eq rfl

/-- The object is accepted if the payload that the hash is of is a form of its own. -/
theorem spelledTx_valid {payload nonce : Value} {timestamp now : String}
    (hunsigned : unsignedFromValue (exactClient.at now) (spelledTx payload nonce timestamp) =
      .ok { spelledPayload with timestamp := .str timestamp })
    (hmem : Value.str "2026-05-10T00:00:00+00:00" ∈ timestampValues (.str timestamp)) :
    isSignatureValidValue (exactClient.at now) (spelledTx payload nonce timestamp) = true := by
  have hform : spelledPayload ∈
      signaturePayloadCandidates { spelledPayload with timestamp := .str timestamp } := by
    simp only [signaturePayloadCandidates, List.mem_flatMap, List.mem_map]
    exact ⟨_, hmem, spelledPayload.chainId, List.mem_cons_self, spelledPayload.amount, List.mem_cons_self,
      spelledPayload.fee, List.mem_cons_self, true, List.mem_cons_self, true, List.mem_cons_self, rfl⟩
  obtain ⟨form, hmatch⟩ := exists_matching hform
  refine isSignatureValidValue_of hunsigned rfl rfl rfl rfl rfl ?_ hmatch rfl ?_
  · show (sameValue (.str "local") (.str "local") &&
      decide ("picoin-local-testnet" = "picoin-local-testnet") &&
      addressMatches exactClient.toConfig (.str aliceAddress) (.str exactKey)) = true
    decide +kernel
  · show decide ("signed" = "signed") = true
    decide

theorem spelledTx_null (now : String) :
    isSignatureValidValue (exactClient.at now) (spelledTx .null (.float 150000000) "2026-05-10T00:00:00Z") = true := by
  refine spelledTx_valid rfl ?_
  have hvariants : timestampVariants "2026-05-10T00:00:00Z" =
      ["2026-05-10T00:00:00Z", "2026-05-10T00:00:00+00:00"] := by decide +kernel
  rw [timestampValues, hvariants]
  exact List.mem_cons_of_mem _ List.mem_cons_self

theorem spelledTx_empty (now : String) :
    isSignatureValidValue (exactClient.at now) (spelledTx (.obj []) (.int 1) "2026-05-10T00:00:00+00:00") =
      true := by
  refine spelledTx_valid rfl ?_
  have hvariants : timestampVariants "2026-05-10T00:00:00+00:00" =
      ["2026-05-10T00:00:00+00:00", "2026-05-10T00:00:00Z"] := by decide +kernel
  rw [timestampValues, hvariants]
  exact List.mem_cons_self

/-- The two spellings of the stake, checked a day apart, are one transaction. -/
theorem transaction_of_hash_spelled :
    SameTransaction exactClient localReader (spelledTx .null (.float 150000000) "2026-05-10T00:00:00Z")
      (spelledTx (.obj []) (.int 1) "2026-05-10T00:00:00+00:00") :=
  transaction_of_hash localReader (fun _ _ h => h)
    (spelledTx_null "2026-05-10T00:00:00+00:00") (spelledTx_empty "2026-05-11T00:00:00+00:00")
    (sameValue_of_eq rfl)

/-- Two accepted objects with one hash and one key, whose payloads and nonces are not equal. -/
theorem payloads_differ :
    let tx := spelledTx .null (.float 150000000) "2026-05-10T00:00:00Z"
    let tx' := spelledTx (.obj []) (.int 1) "2026-05-10T00:00:00+00:00"
    Function.Injective exactClient.sha256Text ∧ isSignatureValidValue exactClient tx = true ∧
      isSignatureValidValue exactClient tx' = true ∧ field tx "tx_hash" = field tx' "tx_hash" ∧
      field tx "public_key" = field tx' "public_key" ∧
      sameValue (field tx "payload") (field tx' "payload") = false ∧
      sameValue (field tx "nonce") (field tx' "nonce") = false :=
  ⟨fun _ _ h => h, spelledTx_null exactClient.utcNow, spelledTx_empty exactClient.utcNow, rfl, rfl,
    by decide, by decide⟩

end Client

end Picoin
