import Picoin.Forge.AiAccessQueue
import Picoin.Lib.Run

/-!
# The life cycle of an AI request

A request that is verified, failed or canceled should stay so, its attempts should be its claims, and
only its worker should verify it, before its lease is over.

`submit` looks at the lease of an assigned request only, against the time that the worker gives, and
at no other status. The run theorem holds where no result comes for a request that is decided, no
result that comes after the lease is dated before its end, and no request gets the id of another;
**`submit_after_verification`** is a run in which a result comes for a verified
request.

* **`InOrder`** — the condition of a call;
* **`QueueKept`** — the invariant of the queue;
* **`ai_life_cycle_of_run`** — the life cycle.
-/

namespace Picoin.Forge

open Run

/-! ## The life cycle -/

/-- The request is decided. -/
def AIRequestStatus.terminal (status : AIRequestStatus) : Bool :=
  status = .verified || status = .failed || status = .canceled

/-- What is kept of a decided request. -/
def AIInferenceRequest.decision (item : AIInferenceRequest) :
    AIRequestStatus × Option String × Option String :=
  (item.status, item.outputHash, item.receiptHash)

/-- The call submits the result of the request's worker, no later than the end of its lease. -/
def SubmittedInTime (s : AiQueue) (id : String) : AiEvent → Prop
  | .submit result now => result.requestId = id ∧
      ∃ item lease, s.requests.find? id = some item ∧ item.status = .assigned ∧
        item.assignedWorkerId = some result.workerId ∧ item.leaseExpiresAt = some lease ∧ now ≤ lease
  | _ => False

/-- A created request has an id of its own. A result comes for a request that is not decided, and
where it comes from the request's worker after the lease, it is dated after the lease. -/
def InOrder (fc : ForgeConfig) (s : AiQueue) : AiEvent → Prop
  | .create request now => s.requests.find? (requestId fc request now) = none
  | .submit result now => ∀ item, s.requests.find? result.requestId = some item →
      item.status.terminal = false ∧ (item.assignedWorkerId = some result.workerId →
        ∀ lease, item.leaseExpiresAt = some lease → lease < now → lease < result.submittedAt)
  | _ => True

/-! ## The invariant -/

/-- What holds of a request that has been claimed `claims` times. -/
structure RequestKept (fc : ForgeConfig) (id : String) (claims : ℕ) (item : AIInferenceRequest) :
    Prop where
  named : item.requestId = id
  attempts : item.assignmentAttempts = claims
  bounded : item.assignmentAttempts ≤ fc.aiRequestMaxAssignments
  waiting : item.status = .queued →
    item.assignmentAttempts < fc.aiRequestMaxAssignments ∧ item.assignedWorkerId = none
  leased : item.status = .assigned → item.leaseExpiresAt.isSome
  known : item.status ≠ .submitted

structure QueueKept (fc : ForgeConfig) (s : AiQueue) : Prop where
  kept : ∀ id item, s.requests.find? id = some item → RequestKept fc id (s.claimed.count id) item
  unclaimed : ∀ id, s.requests.find? id = none → s.claimed.count id = 0

theorem QueueKept.empty (fc : ForgeConfig) : QueueKept fc .empty where
  kept _ _ h := nomatch h
  unclaimed _ _ := rfl

/-! ## One request -/

section

variable {fc : ForgeConfig} {id : String} {claims : ℕ} {item : AIInferenceRequest}

theorem RequestKept.create {request : AIInferenceCreateRequest} {now : Instant}
    (h : createRequest fc request now = .ok item) :
    item.requestId = requestId fc request now ∧ item.status = .queued ∧
      RequestKept fc item.requestId 0 item := by
  unfold createRequest at h
  dsimp only at h
  split at h
  · cases h
  · cases h
    exact ⟨rfl, rfl, rfl, rfl, Nat.zero_le _, fun _ => ⟨fc.one_le_maxAssignments, rfl⟩,
      fun h => (nomatch h), fun h => nomatch h⟩

/-- A released request waits again, or has failed. -/
theorem releaseExpiredAssignment_status (fc : ForgeConfig) (item : AIInferenceRequest)
    (now : Instant) : (releaseExpiredAssignment fc now item).status = .queued ∨
      (releaseExpiredAssignment fc now item).status = .failed := by
  unfold releaseExpiredAssignment
  split
  · exact .inr rfl
  · exact .inl rfl

theorem RequestKept.release (h : RequestKept fc id claims item) (now : Instant) :
    RequestKept fc id claims (releaseExpiredAssignment fc now item) := by
  unfold releaseExpiredAssignment
  split
  · exact ⟨h.named, h.attempts, h.bounded, fun h => (nomatch h), fun h => (nomatch h),
      fun h => nomatch h⟩
  · next hattempts =>
    exact ⟨h.named, h.attempts, h.bounded, fun _ => ⟨Nat.lt_of_not_le hattempts, rfl⟩,
      fun h => (nomatch h), fun h => nomatch h⟩

theorem RequestKept.claim (h : RequestKept fc id claims item) (hqueued : item.status = .queued)
    (worker : WorkerState) (now : Instant) :
    RequestKept fc id (claims + 1) (item.claim fc worker now) where
  named := h.named
  attempts := congrArg Nat.succ h.attempts
  bounded := (h.waiting hqueued).1
  waiting h := nomatch h
  leased _ := rfl
  known h := nomatch h

theorem RequestKept.submit (h : RequestKept fc id claims item) (result : AIInferenceResult)
    (now : Instant) : RequestKept fc id claims (submitItem fc result now item) := by
  unfold submitItem
  split
  · exact h.release result.submittedAt
  · split
    · exact ⟨h.named, h.attempts, h.bounded, fun h => (nomatch h), fun h => (nomatch h),
        fun h => nomatch h⟩
    · exact ⟨h.named, h.attempts, h.bounded, fun h => (nomatch h), fun h => (nomatch h),
        fun h => nomatch h⟩

theorem cancelItem_cases {item' : AIInferenceRequest} {now : Instant}
    (h : cancelItem now item = .ok item') :
    item' = item ∨ item.status.terminal = false ∧ item'.status = .canceled ∧
      item'.requestId = item.requestId ∧ item'.assignmentAttempts = item.assignmentAttempts := by
  unfold cancelItem at h
  split at h
  · cases h
  · next hverified =>
    split at h
    · cases h
      exact .inl rfl
    · next hdecided =>
      cases h
      rw [not_or] at hdecided
      exact .inr ⟨by simp [AIRequestStatus.terminal, hverified, hdecided], rfl, rfl, rfl⟩

theorem RequestKept.cancel (h : RequestKept fc id claims item) {item' : AIInferenceRequest}
    {now : Instant} (hcancel : cancelItem now item = .ok item') : RequestKept fc id claims item' := by
  rcases cancelItem_cases hcancel with rfl | ⟨-, hstatus, hname, hattempts⟩
  · exact h
  · exact ⟨hname.trans h.named, hattempts.trans h.attempts, hattempts ▸ h.bounded,
      fun hq => (nomatch hstatus.symm.trans hq), fun ha => (nomatch hstatus.symm.trans ha),
      fun hs => nomatch hstatus.symm.trans hs⟩

/-- A result verifies a request that was verified before, or whose worker sends it while the request
is assigned. -/
theorem submitItem_verified (h : RequestKept fc id claims item) {result : AIInferenceResult}
    {now : Instant} (hopen : item.status.terminal = false)
    (hdated : item.assignedWorkerId = some result.workerId →
      ∀ lease, item.leaseExpiresAt = some lease → lease < now → lease < result.submittedAt)
    (hverified : (submitItem fc result now item).status = .verified) :
    item.status = .assigned ∧ item.assignedWorkerId = some result.workerId ∧
      ∃ lease, item.leaseExpiresAt = some lease ∧ now ≤ lease := by
  unfold submitItem at hverified
  split at hverified
  · rcases releaseExpiredAssignment_status fc item result.submittedAt with
      hstatus | hstatus <;> rw [hstatus] at hverified <;> cases hverified
  · next hlive =>
    split at hverified
    · cases hverified
    · next hworker =>
      have hworker := not_not.mp hworker
      have hassigned : item.status = .assigned := by
        cases hstatus : item.status with
        | assigned => rfl
        | queued =>
          rw [(h.waiting hstatus).2] at hworker
          cases hworker
        | submitted => exact absurd hstatus h.known
        | verified | failed | canceled =>
          rw [hstatus] at hopen
          cases hopen
      obtain ⟨lease, hlease⟩ := Option.isSome_iff_exists.mp (h.leased hassigned)
      refine ⟨hassigned, hworker, lease, hlease, ?_⟩
      by_contra hlate
      refine hlive ⟨hassigned, ?_⟩
      rw [hlease]
      exact decide_eq_true (hdated hworker lease hlease (not_le.mp hlate))

end

/-! ## The calls -/

section

variable {fc : ForgeConfig} {s : AiQueue}

theorem find?_releaseExpiredAssignments (requests : AiRequests) (now : Instant) (id : String) :
    (releaseExpiredAssignments fc now requests).find? id = (requests.find? id).map fun item =>
      if leaseOver now item then releaseExpiredAssignment fc now item else item :=
  Sql.Table.find?_mapRows ..

theorem QueueKept.release (h : QueueKept fc s) (now : Instant) :
    QueueKept fc { s with requests := releaseExpiredAssignments fc now s.requests } where
  kept id item' hitem' := by
    rw [find?_releaseExpiredAssignments] at hitem'
    obtain ⟨item, hitem, rfl⟩ := Option.map_eq_some_iff.mp hitem'
    split
    · exact (h.kept id item hitem).release now
    · exact h.kept id item hitem
  unclaimed id hnone := by
    rw [find?_releaseExpiredAssignments] at hnone
    exact h.unclaimed id (Option.map_eq_none_iff.mp hnone)

/-- A row that is put in the place of another, or of none. -/
theorem QueueKept.upsert (h : QueueKept fc s) {id : String} {item : AIInferenceRequest}
    (hitem : RequestKept fc id (s.claimed.count id) item) :
    QueueKept fc { s with requests := s.requests.upsert id item } where
  kept id' item' hitem' := by
    rw [Sql.Table.find?_upsert] at hitem'
    split at hitem'
    · next heq =>
      cases hitem'
      rw [heq]
      exact hitem
    · exact h.kept id' item' hitem'
  unclaimed id' hnone := by
    rw [Sql.Table.find?_upsert] at hnone
    split at hnone
    · cases hnone
    · exact h.unclaimed id' hnone

/-- Every row is stored under the id of its request, as `put` stores it. -/
def Keyed (requests : AiRequests) : Prop := ∀ r ∈ requests.rows, r.2.requestId = r.1

theorem Keyed.release {fc : ForgeConfig} {requests : AiRequests} (h : Keyed requests)
    (now : Instant) : Keyed (releaseExpiredAssignments fc now requests) := by
  intro r hr
  obtain ⟨r', hr', rfl⟩ := List.mem_map.mp hr
  dsimp only
  split
  · unfold releaseExpiredAssignment
    split <;> exact h r' hr'
  · exact h r' hr'

/-- The request that a claim takes is one of the queue. -/
theorem chooseRequest_eq_some {views : String → List WorkerState × (String → ℕ)}
    {worker : WorkerState} {requests : AiRequests} {item : AIInferenceRequest}
    (h : chooseRequest views worker (queuedRequests requests) = some item) :
    (∃ id, requests.find? id = some item) ∧ item.status = .queued := by
  have hmem := List.mem_of_find?_eq_some h
  unfold queuedRequests at hmem
  rw [List.mem_insertionSort] at hmem
  have hqueued := (List.mem_insertionSort _).mp (List.mem_of_mem_take hmem)
  obtain ⟨hrow, hstatus⟩ := List.mem_filter.mp hqueued
  obtain ⟨r, hr, rfl⟩ := List.mem_map.mp hrow
  exact ⟨⟨r.1, Sql.Table.find?_eq_some_iff.mpr hr⟩, of_decide_eq_true hstatus⟩

/-- A call of `claim_next` releases what has expired, and claims a request of the queue or none. -/
theorem claimNext_cases (fc : ForgeConfig) (workers : List WorkerState) (workerId : String)
    (released now : Instant) (requests : AiRequests) :
    ((claimNext fc workers workerId released now requests).1 =
        releaseExpiredAssignments fc released requests ∧
      ∀ item, (claimNext fc workers workerId released now requests).2 ≠ .ok (some item)) ∨
    ∃ (worker : WorkerState) (item : AIInferenceRequest),
      (∃ id, (releaseExpiredAssignments fc released requests).find? id = some item) ∧
        item.status = .queued ∧
        claimNext fc workers workerId released now requests =
          ((releaseExpiredAssignments fc released requests).upsert item.requestId
            (item.claim fc worker now), .ok (some (item.claim fc worker now))) := by
  unfold claimNext
  dsimp only
  split
  · exact .inl ⟨rfl, fun _ h => by cases h⟩
  · next worker hworker =>
    split
    · exact .inl ⟨rfl, fun _ h => by cases h⟩
    · split
      · exact .inl ⟨rfl, fun _ h => by cases h⟩
      · next item hitem =>
        obtain ⟨hrow, hqueued⟩ := chooseRequest_eq_some hitem
        exact .inr ⟨worker, item, hrow, hqueued, rfl⟩

/-- The outcomes of a call. -/
inductive QueueMove (fc : ForgeConfig) (s : AiQueue) : AiEvent → AiQueue → Prop
  | raised {event : AiEvent} : QueueMove fc s event s
  | created {request : AIInferenceCreateRequest} {now : Instant} {item : AIInferenceRequest}
      (hcreated : createRequest fc request now = .ok item) :
      QueueMove fc s (.create request now)
        { s with requests := s.requests.upsert item.requestId item }
  | released {event : AiEvent} (now : Instant) :
      QueueMove fc s event { s with requests := releaseExpiredAssignments fc now s.requests }
  | claimed {workers : List WorkerState} {workerId : String} {released now : Instant}
      {item : AIInferenceRequest} (worker : WorkerState)
      (hrow : ∃ id, (releaseExpiredAssignments fc released s.requests).find? id = some item)
      (hqueued : item.status = .queued) :
      QueueMove fc s (.claimNext workers workerId released now)
        ⟨(releaseExpiredAssignments fc released s.requests).upsert item.requestId
          (item.claim fc worker now), s.claimed ++ [item.requestId]⟩
  | submitted {result : AIInferenceResult} {now : Instant} {item : AIInferenceRequest}
      (hitem : s.requests.find? result.requestId = some item) :
      QueueMove fc s (.submit result now)
        { s with requests := s.requests.upsert result.requestId (submitItem fc result now item) }
  | canceled {id : String} {now : Instant} {item canceled : AIInferenceRequest}
      (hitem : s.requests.find? id = some item) (hcancel : cancelItem now item = .ok canceled) :
      QueueMove fc s (.cancel id now) { s with requests := s.requests.upsert id canceled }

theorem aiStep_move (fc : ForgeConfig) (s : AiQueue) (event : AiEvent) :
    QueueMove fc s event (aiStep fc s event) := by
  -- one move for each call, or none where it raises
  cases event with
  | create request now =>
    rw [aiStep]
    split
    · exact .raised
    · next item hitem => exact .created hitem
  | claimNext workers workerId released now =>
    rw [aiStep]
    rcases claimNext_cases fc workers workerId released now s.requests with
      ⟨hrequests, hnone⟩ | ⟨worker, item, hrow, hqueued, hclaim⟩
    · dsimp only
      split
      · next item hsome => exact absurd hsome (hnone item)
      · rw [hrequests]
        exact .released released
    · rw [hclaim]
      exact .claimed worker hrow hqueued
  | submit result now =>
    rw [aiStep]
    unfold Forge.submit
    cases hitem : s.requests.find? result.requestId with
    | none => exact .raised
    | some item => exact .submitted hitem
  | cancel id now =>
    rw [aiStep]
    unfold Forge.cancel
    cases hitem : s.requests.find? id with
    | none => exact .raised
    | some item =>
      dsimp only
      cases hcancel : cancelItem now item with
      | error e => exact .raised
      | ok canceled => exact .canceled hitem hcancel
  | releaseExpiredAssignments now => exact .released now

/-- The queue after a claim. -/
theorem QueueKept.claim (h : QueueKept fc s) {item : AIInferenceRequest}
    (hrow : ∃ id, s.requests.find? id = some item) (hqueued : item.status = .queued)
    (worker : WorkerState) (now : Instant) :
    QueueKept fc ⟨s.requests.upsert item.requestId (item.claim fc worker now),
      s.claimed ++ [item.requestId]⟩ := by
  obtain ⟨id, hid⟩ := hrow
  have hkept := h.kept id item hid
  rw [hkept.named]
  -- one claim more for this request
  have hcount : ∀ id', (s.claimed ++ [id]).count id' =
      s.claimed.count id' + if id' = id then 1 else 0 := by
    intro id'
    rw [List.count_append, List.count_singleton]
    by_cases heq : id' = id
    · rw [heq]
      simp
    · simp [heq, Ne.symm heq]
  refine ⟨fun id' item' hitem' => ?_, fun id' hnone => ?_⟩
  · rw [Sql.Table.find?_upsert] at hitem'
    rw [hcount]
    split at hitem'
    · next heq =>
      cases hitem'
      rw [heq, if_pos rfl]
      exact hkept.claim hqueued worker now
    · next hne =>
      rw [if_neg hne]
      exact h.kept id' item' hitem'
  · rw [Sql.Table.find?_upsert] at hnone
    rw [hcount]
    split at hnone
    · cases hnone
    · next hne =>
      rw [if_neg hne]
      exact h.unclaimed id' hnone

/-- Every call keeps the queue. -/
theorem QueueKept.step (h : QueueKept fc s) {event : AiEvent} (horder : InOrder fc s event) :
    QueueKept fc (aiStep fc s event) := by
  have hmove := aiStep_move fc s event
  generalize aiStep fc s event = s' at hmove ⊢
  cases hmove with
  | raised => exact h
  | @created request now item hcreated =>
    obtain ⟨hname, -, hkept⟩ := RequestKept.create hcreated
    refine h.upsert ?_
    rw [h.unclaimed item.requestId (hname ▸ horder)]
    exact hkept
  | released now => exact h.release now
  | @claimed workers workerId released now item worker hrow hqueued =>
    exact (h.release released).claim hrow hqueued worker now
  | @submitted result now item hitem => exact h.upsert ((h.kept _ item hitem).submit result now)
  | @canceled id now item canceled hitem hcancel =>
    exact h.upsert ((h.kept _ item hitem).cancel hcancel)

/-- A decided request is neither released nor in the queue. -/
theorem find?_release_of_terminal (fc : ForgeConfig) {requests : AiRequests} {id : String}
    {item : AIInferenceRequest} (hitem : requests.find? id = some item) (hterminal : item.status.terminal = true)
    (now : Instant) : (releaseExpiredAssignments fc now requests).find? id = some item := by
  have hlive : leaseOver now item = false := by
    unfold leaseOver
    cases hstatus : item.status with
    | assigned =>
      rw [hstatus] at hterminal
      cases hterminal
    | _ => rfl
  rw [find?_releaseExpiredAssignments, hitem]
  simp [hlive]

/-- Every call leaves a decided request as it is. -/
theorem QueueKept.terminal_step (h : QueueKept fc s) {event : AiEvent}
    (horder : InOrder fc s event) {id : String} {item : AIInferenceRequest}
    (hitem : s.requests.find? id = some item) (hterminal : item.status.terminal = true) :
    (aiStep fc s event).requests.find? id = some item := by
  have hmove := aiStep_move fc s event
  generalize aiStep fc s event = s' at hmove ⊢
  cases hmove with
  | raised => exact hitem
  | @created request now created hcreated =>
    obtain ⟨hname, -, -⟩ := RequestKept.create hcreated
    have hne : id ≠ created.requestId := by
      rintro rfl
      rw [hname, horder] at hitem
      cases hitem
    exact (Sql.Table.find?_upsert_ne _ _ hne).trans hitem
  | released now => exact find?_release_of_terminal fc hitem hterminal now
  | @claimed workers workerId released now claimed worker hrow hqueued =>
    -- the claimed request was queued, so it is another one
    obtain ⟨id', hrow⟩ := hrow
    have hreleased := find?_release_of_terminal fc hitem hterminal released
    have hname := ((h.release released).kept id' claimed hrow).named
    have hne : id ≠ claimed.requestId := by
      rintro rfl
      rw [hname, hrow] at hreleased
      cases hreleased
      rw [hqueued] at hterminal
      cases hterminal
    exact (Sql.Table.find?_upsert_ne _ _ hne).trans hreleased
  | @submitted result now other hother =>
    -- a result is submitted for an open request
    have hne : id ≠ result.requestId := by
      rintro rfl
      rw [hother] at hitem
      cases hitem
      rw [(horder _ hother).1] at hterminal
      cases hterminal
    exact (Sql.Table.find?_upsert_ne _ _ hne).trans hitem
  | @canceled id' now other canceled hother hcancel =>
    -- a cancel of a decided request writes the row that is there
    by_cases heq : id = id'
    · rw [← heq, hitem] at hother
      cases hother
      rcases cancelItem_cases hcancel with rfl | ⟨hopen, -⟩
      · rw [heq]
        exact Sql.Table.find?_upsert_self ..
      · rw [hterminal] at hopen
        cases hopen
    · exact (Sql.Table.find?_upsert_ne _ _ heq).trans hitem

/-- A released table has no more verified requests. -/
theorem verified_of_release {requests : AiRequests} {id : String} {item' : AIInferenceRequest}
    {now : Instant} (hitem' : (releaseExpiredAssignments fc now requests).find? id = some item')
    (hverified : item'.status = .verified) : requests.find? id = some item' := by
  rw [find?_releaseExpiredAssignments] at hitem'
  obtain ⟨item, hitem, rfl⟩ := Option.map_eq_some_iff.mp hitem'
  split at hverified
  · rcases releaseExpiredAssignment_status fc item now with hstatus | hstatus <;>
      rw [hstatus] at hverified <;> cases hverified
  · next hlive => rw [if_neg hlive, hitem]

/-- A call that verifies a request is the submit of its worker, in time. -/
theorem QueueKept.verified_step (h : QueueKept fc s) {event : AiEvent}
    (horder : InOrder fc s event) {id : String} {item' : AIInferenceRequest}
    (hitem' : (aiStep fc s event).requests.find? id = some item')
    (hverified : item'.status = .verified) :
    (∃ item, s.requests.find? id = some item ∧ item.status = .verified) ∨
      SubmittedInTime s id event := by
  have hmove := aiStep_move fc s event
  generalize aiStep fc s event = s' at hmove hitem'
  cases hmove with
  | raised => exact .inl ⟨item', hitem', hverified⟩
  | created hcreated =>
    obtain ⟨-, hqueued, -⟩ := RequestKept.create hcreated
    rw [Sql.Table.find?_upsert] at hitem'
    split at hitem'
    · cases hitem'
      rw [hqueued] at hverified
      cases hverified
    · exact .inl ⟨item', hitem', hverified⟩
  | released now => exact .inl ⟨item', verified_of_release hitem' hverified, hverified⟩
  | claimed worker hrow hqueued =>
    rw [Sql.Table.find?_upsert] at hitem'
    split at hitem'
    -- what is claimed is assigned, not verified
    · cases hitem'
      cases hverified
    · exact .inl ⟨item', verified_of_release hitem' hverified, hverified⟩
  | @submitted result now item hitem =>
    rw [Sql.Table.find?_upsert] at hitem'
    split at hitem'
    · next heq =>
      cases hitem'
      obtain ⟨hopen, hdated⟩ := horder item hitem
      obtain ⟨hassigned, hworker, lease, hlease, htime⟩ :=
        submitItem_verified (h.kept _ item hitem) hopen hdated hverified
      exact .inr ⟨heq.symm, item, lease, heq ▸ hitem, hassigned, hworker, hlease, htime⟩
    · exact .inl ⟨item', hitem', hverified⟩
  | @canceled id' now item canceled hitem hcancel =>
    rw [Sql.Table.find?_upsert] at hitem'
    split at hitem'
    · next heq =>
      cases hitem'
      rcases cancelItem_cases hcancel with rfl | ⟨-, hstatus, -⟩
      · exact .inl ⟨_, heq ▸ hitem, hverified⟩
      · rw [hstatus] at hverified
        cases hverified
    · exact .inl ⟨item', hitem', hverified⟩

end

/-! ## Runs -/

/-- The life cycle of the requests of a run: a decided request keeps its decision, the attempts of a
request are its claims and within the limit, and a request that becomes verified is submitted by its
worker in time. -/
structure LifeCycle (fc : ForgeConfig) (events : List AiEvent) : Prop where
  decided : ∀ before after, events = before ++ after → ∀ id item,
    (before.foldl (aiStep fc) .empty).requests.find? id = some item →
      item.status.terminal = true → ∃ item',
        (events.foldl (aiStep fc) .empty).requests.find? id = some item' ∧
          item'.decision = item.decision
  attempts : ∀ s ∈ states (aiStep fc) .empty events, ∀ id item, s.requests.find? id = some item →
    item.assignmentAttempts = s.claimed.count id ∧
      item.assignmentAttempts ≤ fc.aiRequestMaxAssignments
  verified : ∀ before event after, events = before ++ event :: after → ∀ id item',
    ((before ++ [event]).foldl (aiStep fc) .empty).requests.find? id = some item' →
      item'.status = .verified →
        (∃ item, (before.foldl (aiStep fc) .empty).requests.find? id = some item ∧
          item.status = .verified) ∨ SubmittedInTime (before.foldl (aiStep fc) .empty) id event

theorem QueueKept.terminal_run {fc : ForgeConfig} (events : List AiEvent) :
    ∀ s : AiQueue, QueueKept fc s → EachStep (aiStep fc) (InOrder fc) s events →
      ∀ id item, s.requests.find? id = some item → item.status.terminal = true →
        (events.foldl (aiStep fc) s).requests.find? id = some item := by
  induction events with
  | nil => exact fun s _ _ id item hitem _ => hitem
  | cons event rest ih =>
    intro s h hrun id item hitem hterminal
    exact ih _ (h.step hrun.1) hrun.2 id item (h.terminal_step hrun.1 hitem hterminal) hterminal

theorem QueueKept.run {fc : ForgeConfig} {s : AiQueue} (h : QueueKept fc s)
    (events : List AiEvent) (hrun : EachStep (aiStep fc) (InOrder fc) s events) :
    ∀ s' ∈ states (aiStep fc) s events, QueueKept fc s' :=
  invariant_of_eachStep (fun _ _ h hevent => QueueKept.step h hevent) events s h hrun

/-- **The life cycle of AI requests**, in every run whose calls are in order. -/
theorem ai_life_cycle_of_run (fc : ForgeConfig) (events : List AiEvent)
    (hrun : EachStep (aiStep fc) (InOrder fc) .empty events) : LifeCycle fc events := by
  refine ⟨?_, fun s hs id item hitem => ?_, ?_⟩
  · rintro before after rfl id item hitem hterminal
    obtain ⟨hbefore, hafter⟩ := eachStep_append.mp hrun
    have hstart := (QueueKept.empty fc).run before hbefore _ (foldl_mem_states _ _ _)
    rw [List.foldl_append]
    exact ⟨item, QueueKept.terminal_run after _ hstart hafter id item hitem hterminal, rfl⟩
  · have hkept := ((QueueKept.empty fc).run events hrun s hs).kept id item hitem
    exact ⟨hkept.attempts, hkept.bounded⟩
  · rintro before event after rfl id item' hitem' hverified
    obtain ⟨hbefore, hafter⟩ := eachStep_append.mp hrun
    have hstart := (QueueKept.empty fc).run before hbefore _ (foldl_mem_states _ _ _)
    rw [List.foldl_append] at hitem'
    exact hstart.verified_step hafter.1 hitem' hverified

/-! ## A local coordinator -/

/-- A coordinator at its default limits, with a text as its own digest. -/
def localForge : ForgeConfig where
  sha256Text text := text
  aiAccessMinStakePi := 10 ^ 8
  aiRequestLeaseSeconds := 120
  aiRequestMaxAssignments := 3
  one_le_leaseSeconds := by decide
  one_le_maxAssignments := by decide

def localAiCreate : AIInferenceCreateRequest where
  requesterWallet := "W"
  stakeSnapshotPi := 10 ^ 8
  prompt := "p"
  requiredCapabilities := []
  modelHint := none
  minParameterCountB := 0
  minContextTokens := 0
  preferredProvider := none
  maxTokens := 256
  storeOutput := true

/-- A worker with a model. -/
def localAiWorker : WorkerState where
  workerId := "ann"
  aiModelProfile := some
    { provider := "local"
      modelName := some "m"
      parameterCountB := 0
      contextTokens := 0
      quantization := none
      capabilities := []
      endpoint := some "http"
      available := true }
  uptimeScore := 0
  reliabilityScore := 0
  aiModelScore := 10 ^ 8

def localRequestId : String := requestId localForge localAiCreate 0

/-- The request is created and claimed. -/
def localAiClaim : List AiEvent :=
  [.create localAiCreate 0, .claimNext [localAiWorker] "ann" 1 1]

/-- Its worker submits a result in time. -/
def localAiRun : List AiEvent := localAiClaim ++ [.submit ⟨localRequestId, "ann", "o", 2⟩ 2]

/-- Another worker submits a result for the verified request. -/
def lateAiRun : List AiEvent := localAiRun ++ [.submit ⟨localRequestId, "bob", "x", 3⟩ 3]

theorem claimed_localAiClaim :
    (((localAiClaim.foldl (aiStep localForge) .empty).requests.find? localRequestId).map
      fun item => (item.status, item.leaseExpiresAt)) = some (.assigned, some 120000001) := by
  decide +kernel

theorem ai_life_cycle_local :
    EachStep (aiStep localForge) (InOrder localForge) .empty localAiRun ∧
      LifeCycle localForge localAiRun := by
  have h : EachStep (aiStep localForge) (InOrder localForge) .empty localAiRun := by
    refine eachStep_concat.mpr ⟨⟨Sql.Table.find?_empty _, trivial, trivial⟩, fun item hitem => ?_⟩
    have hclaimed := claimed_localAiClaim
    rw [hitem] at hclaimed
    obtain ⟨hstatus, hlease⟩ := Prod.mk.inj (Option.some.inj hclaimed)
    refine ⟨by rw [hstatus]; rfl, fun _ lease hlease' hlate => ?_⟩
    rw [hlease] at hlease'
    cases hlease'
    exact absurd hlate (by decide)
  exact ⟨h, ai_life_cycle_of_run localForge localAiRun h⟩

theorem status_localAiRun :
    (((localAiRun.foldl (aiStep localForge) .empty).requests.find? localRequestId).map
      AIInferenceRequest.status) = some .verified := by decide +kernel

theorem status_lateAiRun :
    (((lateAiRun.foldl (aiStep localForge) .empty).requests.find? localRequestId).map
      AIInferenceRequest.status) = some .failed := by decide +kernel

/-- A verified request does not stay so. -/
theorem submit_after_verification :
    ¬ ∀ (fc : ForgeConfig) (events : List AiEvent), LifeCycle fc events := by
  intro hall
  obtain ⟨item, hitem, hstatus⟩ := Option.map_eq_some_iff.mp status_localAiRun
  obtain ⟨item', hitem', hdecision⟩ := (hall localForge lateAiRun).decided localAiRun _ rfl
    localRequestId item hitem (by rw [hstatus]; rfl)
  have hlate := status_lateAiRun
  have hsame : item'.status = item.status := congrArg Prod.fst hdecision
  rw [hitem', Option.map_some, hsame, hstatus] at hlate
  cases hlate

end Picoin.Forge
