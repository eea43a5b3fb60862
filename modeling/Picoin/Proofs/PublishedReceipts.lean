import Picoin.Forge.AiRequestRows
import Picoin.Proofs.RequestLifeCycle

/-!
# Published receipts

A receipt is computed from the arguments of a submission and checked against the stored row. Each
call keeps the fields that it hashes, but for one: a result of another worker for a request that has
a receipt overwrites the hash of the output, and leaves the receipt.

* **`ReceiptKept`** — what holds of a stored request;
* **`modelValidate_modelDump`** — a stored request reads back, up to its times;
* **`receipts_hold_of_run`** — the receipts of a run whose results keep the output hashes.
-/

namespace Picoin.Forge

open Json Run

/-! ## Storage and reload -/

/-- A list of texts is read back. -/
theorem readStrings_map (items : List String) : readStrings (.arr (items.map .str)) = some items := by
  show (items.map Value.str).mapM readStr = some items
  induction items with
  | nil => rfl
  | cons item rest ih =>
    rw [List.map_cons, List.mapM_cons, ih]
    rfl

/-- So is a text that may be missing. -/
theorem readOption_optStr (text : Option String) :
    readOption readStr (Value.optStr text) = some text := by
  cases text <;> rfl

/-- So is a profile. -/
theorem readModelProfile_toJson (profile : AIModelProfile) :
    readModelProfile profile.toJson = some profile := by
  simp [readModelProfile, AIModelProfile.toJson, readField, List.lookup_cons, readStrings_map,
    readOption_optStr, readStr, readFloat, readInt, readBool]

/-- So is a profile that may be missing. -/
theorem readOption_modelProfile (profile : Option AIModelProfile) :
    readOption readModelProfile (profile.elim .null AIModelProfile.toJson) = some profile := by
  cases profile with
  | none => rfl
  | some profile =>
    show (readModelProfile profile.toJson).map some = some (some profile)
    rw [readModelProfile_toJson]
    rfl

/-- So is a status. -/
theorem readStatus_text (status : AIRequestStatus) :
    readStatus (.str status.text) = some status := by
  cases status <;> rfl

/-- What the model library reads from an optional time that it has written. -/
def TimeFormat.reread (times : TimeFormat) (t : Option Instant) : Option (Option Instant) :=
  t.elim (some none) fun t => (times.parse (times.dump t)).map some

/-- A time is read back as its text is parsed. -/
theorem readOption_time (times : TimeFormat) (t : Option Instant) :
    readOption (readTime times) (t.elim .null fun t => .str (times.dump t)) = times.reread t := by
  cases t <;> rfl

/-- The request reads back, with the times as they read. -/
theorem modelValidate_modelDump (times : TimeFormat) (now : Instant) (item : AIInferenceRequest) :
    modelValidate times now (item.modelDump times) = (do
      let assignedAt ← times.reread item.assignedAt
      let leaseExpiresAt ← times.reread item.leaseExpiresAt
      let createdAt ← times.parse (times.dump item.createdAt)
      let updatedAt ← times.parse (times.dump item.updatedAt)
      return { item with assignedAt, leaseExpiresAt, createdAt, updatedAt }) := by
  have hrequired := readStrings_map item.requiredCapabilities
  have hhistory := readStrings_map item.assignmentHistory
  simp only [modelValidate, AIInferenceRequest.modelDump, readField, List.lookup_cons, String.reduceBEq,
    readOption_time, readOption_optStr, readOption_modelProfile, readStatus_text, hrequired,
    hhistory, readStr, readFloat, readInt, readBool, readTime, Option.elim_some, Option.bind_eq_bind,
    Option.bind_some, Option.pure_def, Int.toNat_natCast]

/-- Where the times read, the request reads back with the fields that a receipt hashes. -/
theorem reload_item {times : TimeFormat} (htimes : ∀ t, (times.parse (times.dump t)).isSome)
    (now : Instant) (item : AIInferenceRequest) :
    ∃ assignedAt leaseExpiresAt createdAt updatedAt,
      modelValidate times now (item.modelDump times) =
        some { item with assignedAt, leaseExpiresAt, createdAt, updatedAt } := by
  have hreread : ∀ t : Option Instant, ∃ t', times.reread t = some t' := by
    intro t
    cases t with
    | none => exact ⟨none, rfl⟩
    | some t =>
      obtain ⟨t', ht'⟩ := Option.isSome_iff_exists.mp (htimes t)
      exact ⟨some t', by rw [TimeFormat.reread, Option.elim_some, ht']; rfl⟩
  obtain ⟨assignedAt, hassigned⟩ := hreread item.assignedAt
  obtain ⟨leaseExpiresAt, hlease⟩ := hreread item.leaseExpiresAt
  obtain ⟨createdAt, hcreated⟩ := Option.isSome_iff_exists.mp (htimes item.createdAt)
  obtain ⟨updatedAt, hupdated⟩ := Option.isSome_iff_exists.mp (htimes item.updatedAt)
  refine ⟨assignedAt, leaseExpiresAt, createdAt, updatedAt, ?_⟩
  rw [modelValidate_modelDump, hassigned, hlease, hcreated, hupdated]
  rfl

/-! ## The invariant of a request -/

/-- The receipt is the hash of the stored fields. -/
def ReceiptVerifies (fc : ForgeConfig) (item : AIInferenceRequest) : Prop :=
  ∀ receiptHash, item.receiptHash = some receiptHash →
    fc.hashJson (aiInferenceReceiptPayload item none none) = receiptHash

/-- A request with a receipt is decided, and its receipt verifies. -/
structure ReceiptKept (fc : ForgeConfig) (item : AIInferenceRequest) : Prop where
  decided : item.receiptHash ≠ none → item.status = .verified ∨ item.status = .failed
  verifies : ReceiptVerifies fc item

variable {fc : ForgeConfig} {item : AIInferenceRequest}

/-- A request without a receipt keeps it. -/
theorem ReceiptKept.of_none (h : item.receiptHash = none) : ReceiptKept fc item where
  decided hsome := absurd h hsome
  verifies receiptHash hreceipt := by
    rw [h] at hreceipt
    cases hreceipt

/-- A request that is not decided has no receipt. -/
theorem ReceiptKept.receipt_none (h : ReceiptKept fc item) (hverified : item.status ≠ .verified)
    (hfailed : item.status ≠ .failed) : item.receiptHash = none := by
  by_contra hsome
  rcases h.decided hsome with hstatus | hstatus
  · exact hverified hstatus
  · exact hfailed hstatus

/-- A release leaves the receipt. -/
theorem receiptHash_release (fc : ForgeConfig) (now : Instant) (item : AIInferenceRequest) :
    (releaseExpiredAssignment fc now item).receiptHash = item.receiptHash := by
  unfold releaseExpiredAssignment
  split <;> rfl

/-- Only an assignment is released, and it has no receipt. -/
theorem ReceiptKept.release (h : ReceiptKept fc item) (hassigned : item.status = .assigned)
    (now : Instant) : ReceiptKept fc (releaseExpiredAssignment fc now item) := by
  apply ReceiptKept.of_none
  rw [receiptHash_release]
  apply h.receipt_none <;> rw [hassigned] <;> decide

/-- A claim preserves it, as a queued request has no receipt. -/
theorem ReceiptKept.claim (h : ReceiptKept fc item) (hqueued : item.status = .queued)
    (worker : WorkerState) (now : Instant) : ReceiptKept fc (item.claim fc worker now) := by
  apply ReceiptKept.of_none
  show item.receiptHash = none
  apply h.receipt_none <;> rw [hqueued] <;> decide

/-- A cancellation preserves it. -/
theorem ReceiptKept.cancel (h : ReceiptKept fc item) {canceled : AIInferenceRequest} {now : Instant}
    (hcancel : cancelItem now item = .ok canceled) : ReceiptKept fc canceled := by
  unfold cancelItem at hcancel
  split at hcancel
  · cases hcancel
  · next hverified =>
    split at hcancel
    · cases hcancel
      exact h
    · next hdecided =>
      cases hcancel
      apply ReceiptKept.of_none
      show item.receiptHash = none
      exact h.receipt_none hverified fun hfailed => hdecided (.inl hfailed)

/-- The receipt of a submission is the hash of the request that it leaves. -/
theorem aiInferenceReceiptHash_eq (result : AIInferenceResult)
    (hworker : item.assignedWorkerId = some result.workerId) :
    fc.hashJson (aiInferenceReceiptPayload
      { item with outputHash := some (fc.sha256Text result.output) } none none) =
        aiInferenceReceiptHash fc item result := by
  unfold aiInferenceReceiptPayload aiInferenceReceiptHash
  rw [hworker]
  have hid : (if result.workerId ≠ "" then Value.str result.workerId
      else Value.optStr (some result.workerId)) = Value.str result.workerId := by
    split <;> rfl
  rw [hid]
  rfl

/-- The result leaves the output hash of a request with a receipt, where it comes from another
worker. -/
def KeepsOutputHash (fc : ForgeConfig) (item : AIInferenceRequest) (result : AIInferenceResult) :
    Prop :=
  item.receiptHash ≠ none → item.assignedWorkerId ≠ some result.workerId →
    item.outputHash = some (fc.sha256Text result.output)

/-- A result that keeps the hash of the output preserves it. -/
theorem ReceiptKept.submit (h : ReceiptKept fc item) {result : AIInferenceResult}
    (hkeeps : KeepsOutputHash fc item result) (now : Instant) :
    ReceiptKept fc (submitItem fc result now item) := by
  unfold submitItem
  split
  · next hlate => exact h.release hlate.1 result.submittedAt
  · split
    · next hother =>
      refine ⟨fun _ => .inr rfl, fun receiptHash hreceipt => ?_⟩
      -- the output hash is overwritten by the one that is there
      have hsome : item.receiptHash ≠ none := by
        intro hnone
        rw [show item.receiptHash = some receiptHash from hreceipt] at hnone
        cases hnone
      rw [← h.verifies receiptHash hreceipt, ← hkeeps hsome hother]
      rfl
    · next hworker =>
      refine ⟨fun _ => .inl rfl, fun receiptHash hreceipt => ?_⟩
      rw [← Option.some.inj hreceipt]
      exact aiInferenceReceiptHash_eq result (not_ne_iff.mp hworker)

/-- A submission does not take a receipt away. -/
theorem receiptHash_submit {result : AIInferenceResult} {now : Instant}
    (hsome : item.receiptHash ≠ none) : (submitItem fc result now item).receiptHash ≠ none := by
  unfold submitItem
  split
  · rw [receiptHash_release]
    exact hsome
  · split
    · exact hsome
    · exact Option.some_ne_none _

/-! ## The invariant of the queue -/

/-- The requests are stored under their ids, and keep their receipts. -/
structure ReceiptsKept (fc : ForgeConfig) (s : AiQueue) : Prop where
  keyed : Keyed s.requests
  kept : s.requests.Forall (ReceiptKept fc)

/-- A result is for a request whose output hash it leaves. -/
def ResultsKeep (fc : ForgeConfig) (s : AiQueue) : AiEvent → Prop
  | .submit result _ => ∀ item, s.requests.find? result.requestId = some item →
      KeepsOutputHash fc item result
  | _ => True

/-- A row is found under the id of its request. -/
theorem Keyed.find? {requests : AiRequests} (h : Keyed requests) {id : String}
    (hitem : requests.find? id = some item) : item.requestId = id :=
  h _ (Sql.Table.find?_eq_some_iff.mp hitem)

/-- A write under the id of the request keeps the table keyed. -/
theorem Keyed.upsert {requests : AiRequests} (h : Keyed requests) {id : String}
    (hid : item.requestId = id) : Keyed (requests.upsert id item) := by
  intro r hr
  have hfound : (requests.upsert id item).find? r.1 = some r.2 :=
    Sql.Table.find?_eq_some_iff.mpr hr
  rw [Sql.Table.find?_upsert] at hfound
  split at hfound
  · next heq =>
    cases hfound
    exact hid.trans heq.symm
  · exact h.find? hfound

/-- A release leaves the id. -/
theorem requestId_release (fc : ForgeConfig) (now : Instant) (item : AIInferenceRequest) :
    (releaseExpiredAssignment fc now item).requestId = item.requestId := by
  unfold releaseExpiredAssignment
  split <;> rfl

/-- So does a result. -/
theorem requestId_submit (fc : ForgeConfig) (result : AIInferenceResult) (now : Instant)
    (item : AIInferenceRequest) : (submitItem fc result now item).requestId = item.requestId := by
  unfold submitItem
  split
  · exact requestId_release fc result.submittedAt item
  · split <;> rfl

/-- So does a cancellation. -/
theorem requestId_cancel {canceled : AIInferenceRequest} {now : Instant}
    (h : cancelItem now item = .ok canceled) : canceled.requestId = item.requestId := by
  unfold cancelItem at h
  split at h
  · cases h
  · split at h <;> cases h <;> rfl

/-- A new request has the id of its content, and no receipt. -/
theorem createRequest_ok {request : AIInferenceCreateRequest} {now : Instant}
    (h : createRequest fc request now = .ok item) :
    item.requestId = requestId fc request now ∧ item.receiptHash = none := by
  unfold createRequest at h
  dsimp only at h
  split at h
  · cases h
  · cases h
    exact ⟨rfl, rfl⟩

/-- It holds of an empty queue. -/
theorem ReceiptsKept.empty (fc : ForgeConfig) : ReceiptsKept fc .empty where
  keyed := fun _ hr => nomatch hr
  kept := fun _ hr => nomatch hr

/-- A write of a request that keeps its receipt, under its id. -/
theorem ReceiptsKept.write {s : AiQueue} (h : ReceiptsKept fc s) {id : String}
    (hid : item.requestId = id) (hitem : ReceiptKept fc item) (claimed : List String) :
    ReceiptsKept fc ⟨s.requests.upsert id item, claimed⟩ where
  keyed := h.keyed.upsert hid
  kept := Sql.Table.forall_iff_find?.mpr fun id' item' hitem' => by
    rw [Sql.Table.find?_upsert] at hitem'
    split at hitem'
    · cases hitem'
      exact hitem
    · exact h.kept.find? hitem'

/-- The release of expired assignments preserves it. -/
theorem ReceiptsKept.release {s : AiQueue} (h : ReceiptsKept fc s) (now : Instant) :
    ReceiptsKept fc { s with requests := releaseExpiredAssignments fc now s.requests } where
  keyed := h.keyed.release now
  kept := h.kept.mapRows fun _ item hitem => by
    split
    · next hover =>
      have hassigned : item.status = .assigned := by
        unfold leaseOver at hover
        rw [Bool.and_eq_true] at hover
        exact of_decide_eq_true hover.1
      exact hitem.release hassigned now
    · exact hitem

/-- What one call does to the invariant. -/
theorem ReceiptsKept.step {s : AiQueue} (h : ReceiptsKept fc s) {event : AiEvent}
    (hkeep : ResultsKeep fc s event) : ReceiptsKept fc (aiStep fc s event) := by
  have hmove := aiStep_move fc s event
  generalize aiStep fc s event = s' at hmove
  cases hmove with
  | raised => exact h
  | created hcreated =>
    exact h.write rfl (.of_none (createRequest_ok hcreated).2) _
  | released now => exact h.release now
  | @claimed _ _ released now item worker hrow hqueued =>
    have hreleased := h.release released
    obtain ⟨id, hrow⟩ := hrow
    have hitem : ReceiptKept fc item := hreleased.kept.find? hrow
    exact hreleased.write rfl (hitem.claim hqueued worker now) _
  | @submitted result now item hitem =>
    refine h.write ?_ ((h.kept.find? hitem).submit (hkeep item hitem) now) _
    rw [requestId_submit]
    exact h.keyed.find? hitem
  | @canceled id now item canceled hitem hcancel =>
    refine h.write ?_ ((h.kept.find? hitem).cancel hcancel) _
    rw [requestId_cancel hcancel]
    exact h.keyed.find? hitem

/-- A call that creates no request under the id leaves a receipt of the request. -/
theorem ReceiptsKept.receipt_step {s : AiQueue} (h : ReceiptsKept fc s) {event : AiEvent}
    {id : String} (hother : ∀ request now, event = .create request now →
      requestId fc request now ≠ id) {item : AIInferenceRequest}
    (hitem : s.requests.find? id = some item) (hsome : item.receiptHash ≠ none) :
    ∃ item', (aiStep fc s event).requests.find? id = some item' ∧ item'.receiptHash ≠ none := by
  -- neither a release nor a claim writes a request that is decided
  have hreleased : ∀ now, (releaseExpiredAssignments fc now s.requests).find? id = some item := by
    intro now
    apply find?_release_of_terminal fc hitem
    rcases (h.kept.find? hitem).decided hsome with hstatus | hstatus <;> rw [hstatus] <;> rfl
  have hmove := aiStep_move fc s event
  generalize hnext : aiStep fc s event = s' at hmove
  cases hmove with
  | raised => exact ⟨item, hitem, hsome⟩
  | @created request now created hcreated =>
    refine ⟨item, ?_, hsome⟩
    have hne : id ≠ created.requestId := by
      rw [(createRequest_ok hcreated).1]
      exact (hother request now rfl).symm
    exact (Sql.Table.find?_upsert_ne _ _ hne).trans hitem
  | released now => exact ⟨item, hreleased now, hsome⟩
  | @claimed _ _ released now claimed worker hrow hqueued =>
    refine ⟨item, ?_, hsome⟩
    obtain ⟨id', hrow⟩ := hrow
    have hid' := (h.release released).keyed.find? hrow
    have hne : id ≠ claimed.requestId := by
      rintro rfl
      rw [← hid', hreleased released] at hrow
      cases hrow
      rcases (h.kept.find? hitem).decided hsome with hstatus | hstatus <;>
        rw [hqueued] at hstatus <;> cases hstatus
    exact (Sql.Table.find?_upsert_ne _ _ hne).trans (hreleased released)
  | @submitted result now submitted hsubmitted =>
    by_cases heq : id = result.requestId
    · subst heq
      rw [hitem] at hsubmitted
      cases hsubmitted
      exact ⟨_, Sql.Table.find?_upsert_self .., receiptHash_submit hsome⟩
    · exact ⟨item, (Sql.Table.find?_upsert_ne _ _ heq).trans hitem, hsome⟩
  | @canceled id' now other canceled hother' hcancel =>
    by_cases heq : id = id'
    · subst heq
      rw [hitem] at hother'
      cases hother'
      refine ⟨_, Sql.Table.find?_upsert_self .., ?_⟩
      -- a decided request is left as it is
      rcases cancelItem_cases hcancel with rfl | ⟨hopen, -⟩
      · exact hsome
      · rcases (h.kept.find? hitem).decided hsome with hstatus | hstatus <;>
          rw [hstatus] at hopen <;> cases hopen
    · exact ⟨item, (Sql.Table.find?_upsert_ne _ _ heq).trans hitem, hsome⟩

/-! ## Runs -/

/-- The coordinator serves a receipt that verifies as valid. -/
theorem aiRequestReceipt_valid {fc : ForgeConfig} {item : AIInferenceRequest} {receiptHash : String}
    {response : ReceiptResponse} (hreceipt : item.receiptHash = some receiptHash)
    (hhash : fc.hashJson (aiInferenceReceiptPayload item none none) = receiptHash)
    (h : aiRequestReceipt fc item = .ok response) : response.valid = true := by
  unfold aiRequestReceipt at h
  rw [hreceipt] at h
  dsimp only at h
  split at h
  · cases h
  · cases h
    exact decide_eq_true hhash.symm

/-- In every state of the run the request reads back from each row that has a receipt, and the
receipt is the hash of what has been read; and a request with a receipt keeps one, until another
request is created under its id. -/
structure ReceiptsHold (fc : ForgeConfig) (times : TimeFormat) (events : List AiEvent) : Prop where
  verifies : ∀ s ∈ states (aiStep fc) .empty events, ∀ id item receiptHash,
    s.requests.find? id = some item → item.receiptHash = some receiptHash → ∀ now,
      ∃ reloaded, modelValidate times now (item.modelDump times) = some reloaded ∧
        reloaded.receiptHash = some receiptHash ∧
          fc.hashJson (aiInferenceReceiptPayload reloaded none none) = receiptHash ∧
            ∀ response, aiRequestReceipt fc reloaded = .ok response → response.valid = true
  stays : ∀ before after, events = before ++ after → ∀ id item,
    (before.foldl (aiStep fc) .empty).requests.find? id = some item → item.receiptHash ≠ none →
      (∀ request now, .create request now ∈ after → requestId fc request now ≠ id) →
        ∃ item', (events.foldl (aiStep fc) .empty).requests.find? id = some item' ∧
          item'.receiptHash ≠ none

/-- A receipt stays along a run that does not make its request again. -/
theorem ReceiptsKept.receipt_run {id : String} (events : List AiEvent) :
    ∀ s : AiQueue, ReceiptsKept fc s → EachStep (aiStep fc) (ResultsKeep fc) s events →
      (∀ request now, .create request now ∈ events → requestId fc request now ≠ id) →
        ∀ item, s.requests.find? id = some item → item.receiptHash ≠ none →
          ∃ item', (events.foldl (aiStep fc) s).requests.find? id = some item' ∧
            item'.receiptHash ≠ none := by
  induction events with
  | nil => exact fun s _ _ _ item hitem hsome => ⟨item, hitem, hsome⟩
  | cons event rest ih =>
    intro s h hrun hother item hitem hsome
    obtain ⟨item', hitem', hsome'⟩ := h.receipt_step
      (fun request now heq => hother request now (heq ▸ List.mem_cons_self)) hitem hsome
    exact ih _ (h.step hrun.1) hrun.2
      (fun request now hmem => hother request now (List.mem_cons_of_mem _ hmem)) item' hitem' hsome'

/-- It holds in every state of a run whose results keep the hash of the output. -/
theorem ReceiptsKept.run (events : List AiEvent)
    (hrun : EachStep (aiStep fc) (ResultsKeep fc) .empty events) :
    ∀ s ∈ states (aiStep fc) .empty events, ReceiptsKept fc s :=
  invariant_of_eachStep (fun _ _ h hkeep => ReceiptsKept.step h hkeep) events AiQueue.empty
    (ReceiptsKept.empty fc) hrun

/-- **The receipts hold** in every run in which no result of another worker changes the output hash
of a request that has a receipt. -/
theorem receipts_hold_of_run (fc : ForgeConfig) {times : TimeFormat}
    (htimes : ∀ t, (times.parse (times.dump t)).isSome) (events : List AiEvent)
    (hrun : EachStep (aiStep fc) (ResultsKeep fc) .empty events) :
    ReceiptsHold fc times events := by
  refine ⟨fun s hs id item receiptHash hitem hreceipt now => ?_, ?_⟩
  · obtain ⟨assignedAt, leaseExpiresAt, createdAt, updatedAt, hreload⟩ :=
      reload_item htimes now item
    -- the payload reads none of the times
    have hverifies := ((ReceiptsKept.run events hrun s hs).kept.find? hitem).verifies receiptHash
      hreceipt
    exact ⟨_, hreload, hreceipt, hverifies, fun response hserved =>
      aiRequestReceipt_valid hreceipt hverifies hserved⟩
  · rintro before after rfl id item hitem hsome hother
    obtain ⟨hbefore, hafter⟩ := eachStep_append.mp hrun
    have hstart := ReceiptsKept.run before hbefore _ (foldl_mem_states _ _ _)
    rw [List.foldl_append]
    exact hstart.receipt_run after _ hafter hother item hitem hsome

/-! ## A local coordinator -/

/-- A time in UTC, with `Z` for the offset. -/
def utcText (t : Instant) : String :=
  let text := (isoformat t).toList
  String.ofList (text.take (text.length - 6) ++ ['Z'])

/-- The times of the local run. -/
def localTimes : TimeFormat where
  dump := utcText
  parse text := some ((([0, 1, 2, 3, 120000001] : List Instant).find? fun t =>
    text = utcText t).getD 0)

/-- The local times are read back. -/
theorem localTimes_reads (t : Instant) : (localTimes.parse (localTimes.dump t)).isSome := rfl

/-- A claimed request has no receipt. -/
theorem receiptHash_localAiClaim :
    (((localAiClaim.foldl (aiStep localForge) .empty).requests.find? localRequestId).map
      AIInferenceRequest.receiptHash) = some none := by decide +kernel

/-- A request that is created, claimed and answered. -/
theorem receipts_hold_local :
    EachStep (aiStep localForge) (ResultsKeep localForge) .empty localAiRun ∧
      ReceiptsHold localForge localTimes localAiRun := by
  have h : EachStep (aiStep localForge) (ResultsKeep localForge) .empty localAiRun := by
    refine eachStep_concat.mpr ⟨⟨trivial, trivial, trivial⟩, fun item hitem hsome => ?_⟩
    have hnone := receiptHash_localAiClaim
    rw [hitem] at hnone
    exact absurd (Option.some.inj hnone) hsome
  exact ⟨h, receipts_hold_of_run localForge localTimes_reads localAiRun h⟩

/-- The receipt after a result of another worker, and the hash of the row that is read back. -/
theorem receipt_lateAiRun :
    (((lateAiRun.foldl (aiStep localForge) .empty).requests.find? localRequestId).map fun item =>
      item.receiptHash.isSome && (modelValidate localTimes 0 (item.modelDump localTimes)).any
        fun reloaded => some (localForge.hashJson (aiInferenceReceiptPayload reloaded none none)) ≠
          item.receiptHash) = some true := by
  decide +kernel

/-- The receipt of a verified request no longer verifies. -/
theorem receipt_broken_by_other :
    ¬ ∀ (fc : ForgeConfig) (times : TimeFormat), (∀ t, (times.parse (times.dump t)).isSome) →
      ∀ events : List AiEvent, ReceiptsHold fc times events := by
  intro hall
  obtain ⟨item, hitem, hbroken⟩ := Option.map_eq_some_iff.mp receipt_lateAiRun
  rw [Bool.and_eq_true] at hbroken
  obtain ⟨receiptHash, hreceipt⟩ := Option.isSome_iff_exists.mp hbroken.1
  obtain ⟨reloaded, hreload, -, hverifies, -⟩ := (hall localForge localTimes localTimes_reads
    lateAiRun).verifies _ (foldl_mem_states _ _ _) localRequestId item receiptHash hitem hreceipt 0
  have hother := hbroken.2
  rw [hreload, Option.any_some, hverifies, hreceipt] at hother
  exact of_decide_eq_true hother rfl

end Picoin.Forge
