import Picoin.Forge.WorkerRequests
import Picoin.Lib.Outcome
import Picoin.Proofs.ChallengeAccounts

/-!
# A signed request acts once

The hash of a signature's text is in a table after its first acceptance. A message has one signature under
a key and the encoder writes it in one way, so that a second request with this text finds the row.

Keys and wallets are written by one route only. It checks a registration against the key that the
registration brings: a rotated key signs for itself, and so does a stranger's (`owner_replaced`).

* **`KeepsOwners`** — a write that leaves every key and wallet, and the calls that do;
* **`signed_requests_of_run`** — each message is accepted once, and keys change by self-signed
  registrations.
-/

namespace Picoin.Forge.Coordinator

open Json Base64

/-! ## Owners -/

/-- The key and the wallet that a worker is registered with. -/
def owner (workers : Workers) (workerId : String) : Option (String × String) :=
  (workers.find? workerId).map fun w => (w.registration.publicKey, w.registration.wallet)

/-- Every row is under the id in its registration. -/
def Keyed (workers : Workers) : Prop :=
  ∀ id w, workers.find? id = some w → w.registration.workerId = id

/-- A write that leaves the owners as they are. -/
structure KeepsOwners (before after : Workers) : Prop where
  keyed : Keyed after
  owner_eq : ∀ id, owner after id = owner before id

/-- Workers that stay keep their owners. -/
theorem KeepsOwners.refl {workers : Workers} (h : Keyed workers) : KeepsOwners workers workers :=
  ⟨h, fun _ => rfl⟩

/-- Owners that are kept twice are kept. -/
theorem KeepsOwners.trans {a b c : Workers} (h : KeepsOwners a b) (h' : KeepsOwners b c) :
    KeepsOwners a c :=
  ⟨h'.keyed, fun id => (h'.owner_eq id).trans (h.owner_eq id)⟩

/-- A worker is put under its id. -/
theorem Keyed.put {workers : Workers} (h : Keyed workers) (w : WorkerState) :
    Keyed (WorkerRegistry.put workers w) := by
  intro id x hx
  rw [find?_put] at hx
  split at hx
  · rename_i heq
    cases hx
    exact heq.symm
  · exact h id x hx

/-- Its owner is the one that is put, and all others stay. -/
theorem owner_put (workers : Workers) (w : WorkerState) (id : String) :
    owner (WorkerRegistry.put workers w) id =
      if id = w.registration.workerId then some (w.registration.publicKey, w.registration.wallet)
      else owner workers id := by
  unfold owner
  rw [find?_put]
  split
  · rfl
  · rfl

/-- A worker is put with the owner that it has. -/
theorem KeepsOwners.put {workers : Workers} (h : Keyed workers) {w : WorkerState}
    (howner : owner workers w.registration.workerId =
      some (w.registration.publicKey, w.registration.wallet)) :
    KeepsOwners workers (WorkerRegistry.put workers w) := by
  refine ⟨h.put w, fun id => ?_⟩
  rw [owner_put]
  split
  · rename_i heq
    rw [heq, howner]
  · rfl

/-- A worker that has been read is put with the registration that it had, up to the status. -/
theorem KeepsOwners.putRead {workers : Workers} (h : Keyed workers) {id : String} {w w' : WorkerState}
    (hw : WorkerRegistry.get workers id = .ok w)
    (hid : w'.registration.workerId = w.registration.workerId)
    (hkey : w'.registration.publicKey = w.registration.publicKey)
    (hwallet : w'.registration.wallet = w.registration.wallet) :
    KeepsOwners workers (WorkerRegistry.put workers w') := by
  have hfind := get_eq_ok.mp hw
  apply KeepsOwners.put h
  rw [hid, hkey, hwallet, h id w hfind, owner, hfind]
  rfl

/-! ## Calls -/

section

variable {s : CoordinatorState} (h : Keyed s.workers) (cc : ChallengeConfig) (now : Instant)
include h

/-- The expiry of a challenge keeps the owners. -/
theorem expireChallenge_keepsOwners (challenge : ComputeChallenge) :
    KeepsOwners s.workers (expireChallenge now challenge s).1.workers := by
  unfold expireChallenge
  dsimp only
  cases hget : WorkerRegistry.get (s.putChallenge now { challenge with status := .expired }).workers
      challenge.workerId with
  | error e => exact .refl h
  | ok w => exact .putRead h hget rfl rfl rfl

/-- So does its outcome. -/
theorem recordOutcome_keepsOwners (result : ChallengeResult) (challenge : ComputeChallenge)
    (passed : Bool) : KeepsOwners s.workers (recordOutcome cc now result challenge passed s).1.workers := by
  unfold recordOutcome
  dsimp only
  generalize hput : s.putChallenge now
    { challenge with status := if passed then .passed else .failed } = s'
  have hworkers : s'.workers = s.workers := by rw [← hput]; rfl
  rw [← hworkers] at h ⊢
  cases hget : WorkerRegistry.get s'.workers result.workerId with
  | error e => exact .refl h
  | ok w =>
    cases passed with
    | true =>
      dsimp only
      rw [if_pos rfl]
      cases hcount : countPassed cc result challenge w with
      | error e => exact .refl h
      | ok w' =>
        obtain ⟨benchmark, aiModelScore, rfl⟩ := countPassed_eq hcount
        exact .putRead h hget rfl rfl rfl
    | false => exact .putRead h hget rfl rfl rfl

/-- So does the check of a result. -/
theorem verifyResult_keepsOwners (result : ChallengeResult) :
    KeepsOwners s.workers (verifyResult cc now result s).1.workers := by
  unfold verifyResult
  cases s.challenges.find? result.challengeId with
  | none => exact .refl h
  | some challenge =>
    dsimp only
    split
    · exact .refl h
    · cases result.submittedAt with
      | naive => exact .refl h
      | aware submitted =>
        dsimp only
        split
        · have hexpire := expireChallenge_keepsOwners h now challenge
          cases hresult : expireChallenge now challenge s with
          | mk s' answer =>
            rw [hresult] at hexpire
            cases answer with
            | ok _ => exact hexpire
            | error e => exact hexpire
        · cases judge cc result challenge with
          | error e => exact .refl h
          | ok passed => exact recordOutcome_keepsOwners h cc now result challenge passed

/-- So does a benchmark. -/
theorem updateBenchmark_keepsOwners (benchmark : BenchmarkResult) :
    KeepsOwners s.workers (s.withWorkers (WorkerRegistry.updateBenchmark s.workers benchmark)).workers := by
  unfold WorkerRegistry.updateBenchmark
  cases hget : WorkerRegistry.get s.workers benchmark.workerId with
  | error e => exact .refl h
  | ok w => exact .putRead h hget rfl rfl rfl

/-- So does a heartbeat. -/
theorem heartbeat_keepsOwners (workerId : String) (timestamp : RequestTime) :
    KeepsOwners s.workers
      (s.withWorkers (WorkerRegistry.heartbeat s.workers workerId timestamp)).workers := by
  unfold WorkerRegistry.heartbeat
  cases hget : WorkerRegistry.get s.workers workerId with
  | error e => exact .refl h
  | ok w => exact .putRead h hget rfl rfl rfl

end

/-- So does the expiry of several challenges. -/
theorem expireEach_keepsOwners (now : Instant) (challenges : List ComputeChallenge) {s : CoordinatorState}
    (h : Keyed s.workers) : KeepsOwners s.workers (expireEach now challenges s).workers := by
  induction challenges generalizing s with
  | nil => exact .refl h
  | cons challenge rest ih =>
    rw [expireEach]
    split
    · exact ih h
    · have hexpire := expireChallenge_keepsOwners h now challenge
      cases hresult : expireChallenge now challenge s with
      | mk s' answer =>
        rw [hresult] at hexpire
        cases answer with
        | ok _ => exact hexpire.trans (ih hexpire.keyed)
        | error e => exact hexpire

/-- The workers were read before the loop; their owners stay as they were read. -/
theorem penalizeEach_keepsOwners (now : Instant) (graceSeconds : ℤ) (penalty : ℚ)
    (states : List WorkerState) {workers : Workers} (h : Keyed workers)
    (hread : ∀ w ∈ states, owner workers w.registration.workerId =
      some (w.registration.publicKey, w.registration.wallet)) :
    KeepsOwners workers
      (WorkerRegistry.penalizeEach now graceSeconds penalty states workers) := by
  induction states generalizing workers with
  | nil => exact .refl h
  | cons w rest ih =>
    have hrest := fun w' hw' => hread w' (List.mem_cons_of_mem w hw')
    rw [WorkerRegistry.penalizeEach]
    cases w.lastHeartbeatAt with
    | none => exact ih h hrest
    | some time =>
      cases time with
      | naive => exact .refl h
      | aware last =>
        dsimp only
        split
        · exact ih h hrest
        -- a row that was read before the loop is written with its owner
        · have hput : KeepsOwners workers
              (WorkerRegistry.put workers (WorkerRegistry.missedHeartbeat penalty w)) :=
            .put h (hread w List.mem_cons_self)
          apply hput.trans
          apply ih hput.keyed
          intro w' hw'
          rw [hput.owner_eq]
          exact hrest w' hw'

/-- So does a penalty for missed heartbeats. -/
theorem penalizeMissedHeartbeats_keepsOwners (now : Instant) (graceSeconds : ℤ) (penalty : ℚ)
    {workers : Workers} (h : Keyed workers) :
    KeepsOwners workers
      (WorkerRegistry.penalizeMissedHeartbeats now graceSeconds penalty workers) := by
  apply penalizeEach_keepsOwners now graceSeconds penalty _ h
  intro w hw
  obtain ⟨row, hrow, rfl⟩ := List.mem_map.mp hw
  have hmem := (List.perm_insertionSort (fun a b : String × WorkerState => a.1 ≤ b.1)
    workers.rows).mem_iff.mp hrow
  have hfind : workers.find? row.1 = some row.2 := Sql.Table.find?_eq_some_iff.mpr hmem
  rw [h row.1 row.2 hfind, owner, hfind]
  rfl

/-- The creation of a challenge writes no worker. -/
theorem createChallenge_workers (cc : ChallengeConfig) (now : Instant)
    (seed expectedHash workerId : String) (challengeType : ChallengeType) (difficulty : ℤ)
    (s : CoordinatorState) :
    (createChallenge cc now seed expectedHash workerId challengeType difficulty s).workers =
      s.workers := by
  unfold createChallenge
  split
  · rfl
  · rfl

/-- No call but a registration changes an owner. -/
theorem WorkerCall.keepsOwners (sc : SubmissionConfig) (now : Instant) {s : CoordinatorState}
    (h : Keyed s.workers) (call : WorkerCall) : KeepsOwners s.workers (call.apply sc now s).workers := by
  cases call with
  | createChallenge seed expectedHash workerId challengeType difficulty =>
    show KeepsOwners s.workers (Coordinator.createChallenge _ _ _ _ _ _ _ s).workers
    rw [createChallenge_workers]
    exact .refl h
  | verifyResult result => exact verifyResult_keepsOwners h _ now result
  | updateBenchmark benchmark => exact updateBenchmark_keepsOwners h benchmark
  | heartbeat workerId timestamp => exact heartbeat_keepsOwners h workerId timestamp
  | queue => exact .refl h

/-- A registration gives the worker that it names its key and wallet. -/
theorem register_owner (workers : Workers) (registration : WorkerRegistration) (id : String) :
    owner (WorkerRegistry.register workers registration) id =
      if id = registration.workerId then some (registration.publicKey, registration.wallet)
      else owner workers id := by
  unfold WorkerRegistry.register
  split
  · exact owner_put _ _ _
  · exact owner_put _ _ _

/-- A registration keeps the table keyed. -/
theorem Keyed.register {workers : Workers} (h : Keyed workers) (registration : WorkerRegistration) :
    Keyed (WorkerRegistry.register workers registration) := by
  unfold WorkerRegistry.register
  split
  · exact h.put _
  · exact h.put _

/-! ## Checks -/

section

variable {sc : SubmissionConfig} {now : Instant} {workers : Workers} {request : WorkerRequest}

/-- A header that is not empty is there. -/
theorem getD_eq_some {text : Option String} (h : text.getD "" ≠ "") : text = some (text.getD "") := by
  cases text with
  | none => exact absurd rfl h
  | some t => rfl

/-- The headers are those of the request. -/
theorem signatureHeaders_spec {headers : SignatureHeaders} (h : signatureHeaders request = .ok headers) :
    request.timestamp = some headers.timestamp ∧ request.signature = some headers.signature := by
  unfold signatureHeaders at h
  dsimp only at h
  split at h
  · cases h
  · rename_i hnonempty
    push Not at hnonempty
    cases h
    exact ⟨getD_eq_some hnonempty.2.1, getD_eq_some hnonempty.2.2⟩

/-- A signature that passes is one of a key that is a text. -/
theorem checkSignature_spec {publicKey : Value} {message signature key : String}
    (h : checkSignature sc publicKey message signature = .ok key) :
    publicKey = .str key ∧ verifyMessage sc key message signature = true := by
  unfold checkSignature at h
  split at h
  · split at h
    · rename_i hvalid
      cases h
      exact ⟨rfl, hvalid.2⟩
    · cases h
  · cases h

/-- The request carries a signature of its message under a key. -/
def SignedWith (sc : SubmissionConfig) (request : WorkerRequest) (headers : SignatureHeaders)
    (key : String) : Prop :=
  request.timestamp = some headers.timestamp ∧ request.signature = some headers.signature ∧
    verifyMessage sc key
      (requestSigningPayload sc request.method request.path headers.timestamp request.body)
      headers.signature = true

/-- What has been checked of a request that goes on: the signature, and for a registration that the key is
the one in its body. -/
theorem checkSubmission_spec {headers : SignatureHeaders} {payload : Value} {key : String}
    (h : checkSubmission sc now workers request = .ok (headers, payload, key)) :
    SignedWith sc request headers key ∧ sc.loads request.body = some payload ∧
      (request.path = "/workers/register" → getKey payload "public_key" = .ok (.str key)) := by
  unfold checkSubmission at h
  obtain ⟨headers', hheaders, h⟩ := Outcome.bind_eq_ok.mp h
  obtain ⟨_, _, h⟩ := Outcome.bind_eq_ok.mp h
  cases hloads : sc.loads request.body with
  | none => rw [hloads] at h; cases h
  | some loaded =>
    rw [hloads] at h
    obtain ⟨bodyWorkerId, _, h⟩ := Outcome.bind_eq_ok.mp h
    dsimp only at h
    split at h
    · cases h
    · obtain ⟨publicKey, hpublic, h⟩ := Outcome.bind_eq_ok.mp h
      obtain ⟨key', hkey, h⟩ := Outcome.bind_eq_ok.mp h
      cases h
      obtain ⟨rfl, hverified⟩ := checkSignature_spec hkey
      obtain ⟨htimestamp, hsignature⟩ := signatureHeaders_spec hheaders
      -- the key of a registration is looked up in its body
      refine ⟨⟨htimestamp, hsignature, hverified⟩, rfl, fun hpath => ?_⟩
      unfold checkedKey at hpublic
      rw [if_pos hpath] at hpublic
      exact hpublic

end

/-- A request that goes on where signatures are required: it is signed, its signature had no row, and it
has one now. -/
theorem requireWorkerSubmission_spec {sc : SubmissionConfig} (hrequired : sc.signatureRequired = true)
    {now : Instant} {workers : Workers} {seen seen' : SeenSignatures} {request : WorkerRequest}
    {accepted : Accepted}
    (h : requireWorkerSubmission sc now workers seen request = (seen', .ok accepted)) :
    ∃ headers payload key, accepted = ⟨request, some (headers, key)⟩ ∧
      checkSubmission sc now workers request = .ok (headers, payload, key) ∧
      seen.find? (sc.sha256Text headers.signature) = none ∧
      ∃ row, seen' = seen.upsert (sc.sha256Text headers.signature) row := by
  unfold requireWorkerSubmission at h
  split at h
  · cases h
  · rw [if_pos (.inl hrequired)] at h
    split at h
    · cases h
    · rename_i headers payload key hcheck
      unfold recordWorkerSignatureOnce at h
      cases hinsert : seen.insert? (sc.sha256Text headers.signature)
          ⟨headers.workerId, headers.timestamp, now⟩ with
      | none => rw [hinsert] at h; cases h
      | some seen₁ =>
        rw [hinsert] at h
        cases h
        obtain ⟨hnone, rfl⟩ := Sql.Table.insert?_eq_some_iff.mp hinsert
        exact ⟨headers, payload, key, rfl, hcheck, hnone, _, rfl⟩

/-- A request that is turned away leaves the rows of signatures. -/
theorem requireWorkerSubmission_error {sc : SubmissionConfig} {now : Instant} {workers : Workers}
    {seen seen' : SeenSignatures} {request : WorkerRequest} {e : HTTPException}
    (h : requireWorkerSubmission sc now workers seen request = (seen', .error e)) : seen' = seen := by
  unfold requireWorkerSubmission at h
  split at h
  · cases h
    rfl
  · split at h
    · split at h
      · cases h
        rfl
      · unfold recordWorkerSignatureOnce at h
        split at h
        · cases h
        · rename_i hrecord
          split at hrecord
          · cases hrecord
          · cases hrecord
            cases h
            rfl
    · cases h

/-! ## Runs -/

/-- The key that a request was checked against, as bytes. -/
def Accepted.signer (a : Accepted) : Option (List UInt8) :=
  a.signed.bind fun signed => stripPrefixedKey signed.2 keyPrefix

/-- The method, the path, the time and the body. -/
def Accepted.message (a : Accepted) : String × String × Option String × List UInt8 :=
  (a.request.method, a.request.path, a.request.timestamp, a.request.body)

/-- The signature is written as `sign_message` writes it. -/
def Accepted.Plain (a : Accepted) : Prop := ∃ raw, a.request.signature = some (signatureText raw)

/-- A message acts once under a key, if its signature is written as `sign_message` writes it. -/
def ActOnce (accepted : List Accepted) : Prop :=
  accepted.Pairwise fun a b => a.Plain → b.Plain → a.signer = b.signer → a.message ≠ b.message

/-- The accepted requests are signed and have a row. -/
structure Recorded (sc : SubmissionConfig) (s : SubmissionState) : Prop where
  keyed : Keyed s.coordinator.workers
  signed : ∀ a ∈ s.accepted, ∃ headers key, a.signed = some (headers, key) ∧
    SignedWith sc a.request headers key ∧ (s.seen.find? (sc.sha256Text headers.signature)).isSome
  once : ActOnce s.accepted

/-- It holds of a new coordinator. -/
theorem Recorded.initDb (sc : SubmissionConfig) : Recorded sc .initDb where
  keyed _ _ h := nomatch h
  signed _ h := nomatch h
  once := List.Pairwise.nil

/-- The bytes of a signature are read back from its text. -/
theorem stripPrefixedKey_signatureText (raw : List UInt8) :
    stripPrefixedKey (signatureText raw) keyPrefix = some raw := by
  unfold stripPrefixedKey signatureText startsWith
  rw [String.toList_append, if_pos (List.isPrefixOf_iff_prefix.mpr (List.prefix_append _ _)),
    List.drop_left, String.ofList_toList]
  exact b64urlDecode_encode raw

/-- A message that verifies is signed with the key. -/
theorem verifyMessage_plain {sc : SubmissionConfig} {key message : String} {raw : List UInt8}
    (h : verifyMessage sc key message (signatureText raw) = true) :
    ∃ publicRaw, stripPrefixedKey key keyPrefix = some publicRaw ∧
      sc.verify publicRaw message raw = true := by
  unfold verifyMessage at h
  rw [stripPrefixedKey_signatureText] at h
  cases hkey : stripPrefixedKey key keyPrefix with
  | none => rw [hkey] at h; cases h
  | some publicRaw =>
    rw [hkey] at h
    exact ⟨publicRaw, rfl, h⟩

section

variable {sc : SubmissionConfig} (hrequired : sc.signatureRequired = true)
  (hunique : ∀ key message a b, sc.verify key message a = true → sc.verify key message b = true → a = b)
include hunique

/-- Two plainly signed requests with one message and one key have one text of the signature. -/
theorem signature_eq {a b : Accepted} {headers headers' : SignatureHeaders} {key key' : String}
    (ha : a.signed = some (headers, key)) (hb : b.signed = some (headers', key'))
    (hsa : SignedWith sc a.request headers key) (hsb : SignedWith sc b.request headers' key')
    (hpa : a.Plain) (hpb : b.Plain) (hsigner : a.signer = b.signer) (hmessage : a.message = b.message) :
    headers.signature = headers'.signature := by
  obtain ⟨raw, hraw⟩ := hpa
  obtain ⟨raw', hraw'⟩ := hpb
  obtain ⟨htime, hsig, hverified⟩ := hsa
  obtain ⟨htime', hsig', hverified'⟩ := hsb
  have htext : headers.signature = signatureText raw := Option.some.inj (hsig.symm.trans hraw)
  have htext' : headers'.signature = signatureText raw' := Option.some.inj (hsig'.symm.trans hraw')
  rw [htext] at hverified
  rw [htext'] at hverified'
  obtain ⟨publicRaw, hkey, hvalid⟩ := verifyMessage_plain hverified
  obtain ⟨publicRaw', hkey', hvalid'⟩ := verifyMessage_plain hverified'
  have hpublic : publicRaw = publicRaw' := by
    unfold Accepted.signer at hsigner
    rw [ha, hb] at hsigner
    exact Option.some.inj (hkey.symm.trans (hsigner.trans hkey'))
  obtain ⟨hmethod, hrest⟩ := Prod.mk.inj hmessage
  obtain ⟨hpath, hrest⟩ := Prod.mk.inj hrest
  obtain ⟨htimestamp, hbody⟩ := Prod.mk.inj hrest
  have hstamp : headers.timestamp = headers'.timestamp := by
    rw [htime, htime'] at htimestamp
    exact Option.some.inj htimestamp
  rw [hpublic, hmethod, hpath, hstamp, hbody] at hvalid
  rw [htext, htext', hunique _ _ _ _ hvalid hvalid']

include hrequired

/-- An accepted request finds no row of its signature: no earlier one had the same message and key. -/
theorem Recorded.accept {s : SubmissionState} (h : Recorded sc s) {now : Instant}
    {request : WorkerRequest} {seen : SeenSignatures} {accepted : Accepted}
    (hgo : requireWorkerSubmission sc now s.coordinator.workers s.seen request = (seen, .ok accepted))
    {coordinator : CoordinatorState} (hkeyed : Keyed coordinator.workers) :
    Recorded sc ⟨coordinator, seen, s.accepted ++ [accepted]⟩ := by
  obtain ⟨headers, payload, key, rfl, hcheck, hnew, row, rfl⟩ :=
    requireWorkerSubmission_spec hrequired hgo
  obtain ⟨hsigned, -, -⟩ := checkSubmission_spec hcheck
  refine ⟨hkeyed, fun a ha => ?_, ?_⟩
  · show ∃ headers' key', _ ∧ _ ∧ ((s.seen.upsert _ row).find? _).isSome = true
    rcases List.mem_append.mp ha with ha | ha
    · obtain ⟨headers', key', heq, hsigned', hseen⟩ := h.signed a ha
      refine ⟨headers', key', heq, hsigned', ?_⟩
      rw [Sql.Table.find?_upsert]
      split
      · rfl
      · exact hseen
    · obtain rfl := List.mem_singleton.mp ha
      refine ⟨headers, key, rfl, hsigned, ?_⟩
      rw [Sql.Table.find?_upsert, if_pos rfl]
      rfl
  -- an earlier request with this message and key had this text, whose row is not there
  · refine List.pairwise_append.mpr ⟨h.once, List.pairwise_singleton _ _, ?_⟩
    intro a ha b hb hpa hpb hsigner hmessage
    obtain rfl := List.mem_singleton.mp hb
    obtain ⟨headers', key', heq, hsigned', hseen⟩ := h.signed a ha
    have htext := signature_eq hunique heq rfl hsigned' hsigned hpa hpb hsigner hmessage
    rw [htext, hnew] at hseen
    cases hseen

end

/-! ## Changes of a key -/

/-- A registration of a worker that was accepted under the key that it brings. -/
structure SelfSigned (sc : SubmissionConfig) (routes : Routes) (s s' : SubmissionState)
    (request : WorkerRequest) (id : String) (registration : WorkerRegistration) : Prop where
  path : request.path = "/workers/register"
  body : (sc.loads request.body).bind (registrationOf routes request) = some registration
  worker : registration.workerId = id
  signed : ∃ headers, s'.accepted = s.accepted ++ [⟨request, some (headers, registration.publicKey)⟩] ∧
    SignedWith sc request headers registration.publicKey
  owner : owner s'.coordinator.workers id = some (registration.publicKey, registration.wallet)

/-- Every change of an owner by an event is one by a self-signed registration. -/
def ChangesSelfSigned (sc : SubmissionConfig) (routes : Routes) (s s' : SubmissionState)
    (event : SubmissionEvent) : Prop :=
  ∀ id, owner s'.coordinator.workers id ≠ owner s.coordinator.workers id →
    ∃ now request registration, event = .request now request ∧
      SelfSigned sc routes s s' request id registration

/-- A registration has the key of its body. -/
theorem publicKey_of_registrationOf {routes : Routes} {request : WorkerRequest} {payload : Value}
    {registration : WorkerRegistration} (h : registrationOf routes request payload = some registration)
    {key : String} (hkey : getKey payload "public_key" = .ok (.str key)) :
    registration.publicKey = key := by
  unfold registrationOf at h
  cases payload with
  | obj fields =>
    obtain ⟨_, _, h⟩ := Option.bind_eq_some_iff.mp h
    obtain ⟨workerId, _, h⟩ := Option.bind_eq_some_iff.mp h
    obtain ⟨wallet, _, h⟩ := Option.bind_eq_some_iff.mp h
    obtain ⟨publicKey, hpublic, h⟩ := Option.bind_eq_some_iff.mp h
    obtain ⟨status, _, h⟩ := Option.bind_eq_some_iff.mp h
    cases h
    have hvalue : (fields.lookup "public_key").getD .null = .str key := Except.ok.inj hkey
    unfold bodyField at hpublic
    cases hlookup : fields.lookup "public_key" with
    | none => rw [hlookup] at hpublic; cases hpublic
    | some value =>
      rw [hlookup] at hpublic hvalue
      cases hvalue
      exact (Option.some.inj hpublic).symm
  | _ => cases h

/-- The route of a request that is not a registration leaves the owners. -/
theorem handle_keepsOwners (sc : SubmissionConfig) (routes : Routes) (now : Instant)
    {s : CoordinatorState} (h : Keyed s.workers) {request : WorkerRequest}
    (hpath : request.path ≠ "/workers/register") :
    KeepsOwners s.workers (handle sc routes now s request).workers := by
  unfold handle
  rw [if_neg hpath]
  cases routes.call request now with
  | none => exact .refl h
  | some call => exact call.keepsOwners sc now h

section

variable {sc : SubmissionConfig} (hrequired : sc.signatureRequired = true)
  (hunique : ∀ key message a b, sc.verify key message a = true → sc.verify key message b = true → a = b)
  (routes : Routes)
include hrequired hunique

/-- A request, by whether it is turned away, a registration, or another one. -/
theorem Recorded.submit {s : SubmissionState} (h : Recorded sc s) (now : Instant)
    (request : WorkerRequest) :
    Recorded sc (submit sc routes s now request) ∧
      ChangesSelfSigned sc routes s (submit sc routes s now request) (.request now request) := by
  unfold Coordinator.submit
  cases hgo : requireWorkerSubmission sc now s.coordinator.workers s.seen request with
  | mk seen answer =>
    cases answer with
    | error e =>
      -- turned away: nothing is written
      obtain rfl := requireWorkerSubmission_error hgo
      exact ⟨⟨h.keyed, h.signed, h.once⟩, fun id hne => absurd rfl hne⟩
    | ok accepted =>
      dsimp only
      by_cases hpath : request.path = "/workers/register"
      · unfold handle
        rw [if_pos hpath]
        cases hbody : (sc.loads request.body).bind (registrationOf routes request) with
        | none => exact ⟨h.accept hrequired hunique hgo h.keyed, fun id hne => absurd rfl hne⟩
        | some registration =>
          refine ⟨h.accept hrequired hunique hgo (h.keyed.register registration), fun id hne => ?_⟩
          obtain ⟨headers, payload, key, rfl, hcheck, -⟩ := requireWorkerSubmission_spec hrequired hgo
          obtain ⟨hsigned, hloads, hbrought⟩ := checkSubmission_spec hcheck
          have hregistration := hbody
          rw [hloads] at hregistration
          have hkey := publicKey_of_registrationOf hregistration (hbrought hpath)
          have howner := register_owner s.coordinator.workers registration id
          change owner (WorkerRegistry.register s.coordinator.workers registration) id ≠ _ at hne
          -- only the worker that the registration names has another owner
          have hid : id = registration.workerId := by
            by_contra hother
            rw [howner, if_neg hother] at hne
            exact hne rfl
          rw [if_pos hid] at howner
          exact ⟨now, request, registration, rfl, hpath, hbody, hid.symm,
            ⟨headers, by rw [hkey], hkey ▸ hsigned⟩, howner⟩
      · have hkeeps := handle_keepsOwners sc routes now h.keyed hpath
        exact ⟨h.accept hrequired hunique hgo hkeeps.keyed,
          fun id hne => absurd (hkeeps.owner_eq id) hne⟩

/-- A request preserves it, and changes no worker without its signature. -/
theorem Recorded.step {s : SubmissionState} (h : Recorded sc s) (event : SubmissionEvent) :
    Recorded sc (event.apply sc routes s) ∧
      ChangesSelfSigned sc routes s (event.apply sc routes s) event := by
  cases event with
  | request now request => exact h.submit hrequired hunique routes now request
  | expireOpenChallenges now =>
    have hkeeps := expireEach_keepsOwners now (listOpen s.coordinator.challenges) h.keyed
    exact ⟨⟨hkeeps.keyed, h.signed, h.once⟩, fun id hne => absurd (hkeeps.owner_eq id) hne⟩
  | penalizeMissedHeartbeats now graceSeconds penalty =>
    have hkeeps := penalizeMissedHeartbeats_keepsOwners now graceSeconds penalty h.keyed
    exact ⟨⟨hkeeps.keyed, h.signed, h.once⟩, fun id hne => absurd (hkeeps.owner_eq id) hne⟩

/-- It holds after any requests. -/
theorem recorded_of_run (events : List SubmissionEvent) {s : SubmissionState} (h : Recorded sc s) :
    Recorded sc (events.foldl (SubmissionEvent.apply sc routes) s) := by
  induction events generalizing s with
  | nil => exact h
  | cons event rest ih => exact ih (h.step hrequired hunique routes event).1

end

/-- **Signed requests**: where signatures are required, a message acts once under a key if its signature
is written as `sign_message` writes it, and the key and the wallet of a worker are written only by a
registration that names it and is signed under the key that it brings. -/
theorem signed_requests_of_run (sc : SubmissionConfig) (routes : Routes)
    (hrequired : sc.signatureRequired = true)
    (hunique : ∀ key message a b, sc.verify key message a = true → sc.verify key message b = true → a = b)
    (events : List SubmissionEvent) :
    ActOnce (events.foldl (SubmissionEvent.apply sc routes) .initDb).accepted ∧
      ∀ event, ChangesSelfSigned sc routes (events.foldl (SubmissionEvent.apply sc routes) .initDb)
        (event.apply sc routes (events.foldl (SubmissionEvent.apply sc routes) .initDb)) event := by
  have hrecorded := recorded_of_run hrequired hunique routes events (Recorded.initDb sc)
  exact ⟨hrecorded.once, fun event => (hrecorded.step hrequired hunique routes event).2⟩

/-! ## A registration under another key -/

/-- A key pair's registration of a worker: what is sent, and what the libraries make of it. -/
structure LocalSigner where
  wallet : String
  publicKey : String
  publicRaw : List UInt8
  bodyHash : String
  signature : String
  signatureRaw : List UInt8
  signatureHash : String

def ann : LocalSigner where
  wallet := "PIANN"
  publicKey := "ed25519:iojj3XQJ8ZX9UtstPLpdcspnCb8dlBIb83SIAbQPb1w"
  publicRaw :=
    [138, 136, 227, 221, 116, 9, 241, 149, 253, 82, 219, 45, 60, 186, 93, 114, 202, 103, 9, 191, 29,
     148, 18, 27, 243, 116, 136, 1, 180, 15, 111, 92]
  bodyHash := "bf4971e4c071835086d4faf51e6fa49c848e75347e4b6c69d074142c2a84e5ca"
  signature :=
    "ed25519:ERIZMSJg8MhNOJHpXLKSyxlXs-NetVo_bmHKyLIbARYhdWeDgBWtLpkocwO7Fls96G003gZsBCeSKZMHeY-DAQ"
  signatureRaw :=
    [17, 18, 25, 49, 34, 96, 240, 200, 77, 56, 145, 233, 92, 178, 146, 203, 25, 87, 179, 227, 94, 181,
     90, 63, 110, 97, 202, 200, 178, 27, 1, 22, 33, 117, 103, 131, 128, 21, 173, 46, 153, 40, 115, 3,
     187, 22, 91, 61, 232, 109, 52, 222, 6, 108, 4, 39, 146, 41, 147, 7, 121, 143, 131, 1]
  signatureHash := "02fdd0bc22a632fc171f04b2d4268d3d4e2325366fce318508e916bc225d86ee"

def bob : LocalSigner where
  wallet := "PIBOB"
  publicKey := "ed25519:gTl3Dqh9F19Wo1Rmw0x-zMuNipG07jeiXfYPW4_Js5Q"
  publicRaw :=
    [129, 57, 119, 14, 168, 125, 23, 95, 86, 163, 84, 102, 195, 76, 126, 204, 203, 141, 138, 145, 180,
     238, 55, 162, 93, 246, 15, 91, 143, 201, 179, 148]
  bodyHash := "ace10802c7a893a002a774a0bf5b90bf4aecc9524d2f2a8837bda4d7892ee59e"
  signature :=
    "ed25519:Ut7ZJ6eWm94sZvswfFR8aU0yu6ELM-H4YgC_OoPFPkQ1i57YqkKCOagw7rNhPrG3Gvkod34p5pFQie1Z78VQBg"
  signatureRaw :=
    [82, 222, 217, 39, 167, 150, 155, 222, 44, 102, 251, 48, 124, 84, 124, 105, 77, 50, 187, 161, 11,
     51, 225, 248, 98, 0, 191, 58, 131, 197, 62, 68, 53, 139, 158, 216, 170, 66, 130, 57, 168, 48, 238,
     179, 97, 62, 177, 183, 26, 249, 40, 119, 126, 41, 230, 145, 80, 137, 237, 89, 239, 197, 80, 6]
  signatureHash := "ecce659d17c5153dfb8738b7cb8de5c535c42fb7b0ac018f885f0c0a8f74541b"

/-- The body of a registration of the worker "worker_1". -/
def LocalSigner.bodyText (signer : LocalSigner) : String :=
  "\x7b\"worker_id\":\"worker_1\",\"wallet\":\"" ++ signer.wallet ++ "\",\"public_key\":\"" ++
    signer.publicKey ++ "\",\"machine_info\":\x7b\"hostname\":\"h\",\"platform\":\"p\"," ++
    "\"cpu_count\":1,\"python_version\":\"3\"\x7d\x7d"

/-- `text.encode("utf-8")`. -/
def encodeUtf8 (text : String) : List UInt8 := text.toUTF8.data.toList

def LocalSigner.payload (signer : LocalSigner) : Value :=
  .obj [("worker_id", .str "worker_1"), ("wallet", .str signer.wallet),
    ("public_key", .str signer.publicKey),
    ("machine_info", .obj [("hostname", .str "h"), ("platform", .str "p"), ("cpu_count", .int 1),
      ("python_version", .str "3")])]

def LocalSigner.request (signer : LocalSigner) : WorkerRequest where
  method := "POST"
  path := "/workers/register"
  body := encodeUtf8 signer.bodyText
  token := none
  workerId := some "worker_1"
  timestamp := some "1778371200"
  signature := some signer.signature

/-- The message that a signer signs. -/
def LocalSigner.message (signer : LocalSigner) : String :=
  "POST\n/workers/register\n1778371200\n" ++ signer.bodyHash

/-- What of two signers is known. -/
def ofSigners {α : Type} (value : LocalSigner → α) (key : LocalSigner → Bool) : Option α :=
  ([ann, bob].find? key).map value

/-- A coordinator that requires signatures, with the values of its libraries at the two requests. -/
def localSubmissions : SubmissionConfig :=
  { localChallenges with
    sha256Text := fun text =>
      (ofSigners LocalSigner.signatureHash fun signer => signer.signature = text).getD text
    coordinatorToken := ""
    requireWorkerSignatures := "1"
    sha256Bytes := fun body =>
      (ofSigners LocalSigner.bodyHash fun signer => encodeUtf8 signer.bodyText = body).getD ""
    verify := fun key message raw =>
      (ofSigners LocalSigner.signatureRaw fun signer =>
        signer.publicRaw = key ∧ signer.message = message) = some raw
    floatText := fun text => if text = "1778371200" then some (.finite 1778371200) else none
    loads := fun body => ofSigners LocalSigner.payload fun signer => encodeUtf8 signer.bodyText = body }

def localRoutes : Routes where
  otherFieldsValid _ := true
  status _ := none
  call _ _ := none

/-- Ann registers a worker, and bob registers it again. -/
def registeredTwice : List SubmissionEvent :=
  [.request 1778371200000000 ann.request, .request 1778371200000000 bob.request]

/-- Each of the two registrations acts once. -/
theorem signed_requests_local :
    ActOnce (registeredTwice.foldl (SubmissionEvent.apply localSubmissions localRoutes) .initDb).accepted :=
  (signed_requests_of_run localSubmissions localRoutes (by decide)
    (fun _ _ _ _ ha hb => Option.some.inj ((of_decide_eq_true ha).symm.trans (of_decide_eq_true hb)))
    registeredTwice).1

/-- Bob's registration replaces the key and the wallet, and its signature is none under ann's key. -/
theorem owner_replaced :
    owner ((registeredTwice.take 1).foldl (SubmissionEvent.apply localSubmissions localRoutes)
        .initDb).coordinator.workers "worker_1" = some (ann.publicKey, ann.wallet) ∧
      owner (registeredTwice.foldl (SubmissionEvent.apply localSubmissions localRoutes)
        .initDb).coordinator.workers "worker_1" = some (bob.publicKey, bob.wallet) ∧
      verifyMessage localSubmissions ann.publicKey
        (requestSigningPayload localSubmissions "POST" "/workers/register" "1778371200" bob.request.body)
        bob.signature = false := by
  decide +kernel

end Picoin.Forge.Coordinator
