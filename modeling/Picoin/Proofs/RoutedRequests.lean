import Picoin.Lib.FirstFit
import Picoin.Proofs.RequestLifeCycle
import Mathlib.Data.String.Basic

/-!
# The request a worker is routed to

A claim reads the hundred oldest requests of the queue. It returns the first, in the order of stake
and age, that is routed to the worker, and so the first of the whole queue exactly when this one is
among the hundred.

* **`claimAnswers_iff`** — when a claim answers for the whole queue.
-/

namespace Picoin.Forge

open FirstFit

/-- The requests that wait for a worker. -/
def waiting (requests : AiRequests) : List AIInferenceRequest :=
  (requests.rows.map Prod.snd).filter fun item => item.status = .queued

/-- The hundred of them that were updated first. -/
def oldestWaiting (requests : AiRequests) : List AIInferenceRequest :=
  ((waiting requests).insertionSort fun a b => a.updatedAt ≤ b.updatedAt).take 100

/-- The worker selected for the request is the given one. -/
def routedTo (workers : List WorkerState) (load : String → ℕ) (workerId : String)
    (item : AIInferenceRequest) : Bool :=
  (selectWorkerForRequest workers load item).any fun candidate => candidate.workerId = workerId

/-- A call of `claim_next` returns the first of the waiting requests that are routed to the worker,
after its claim, and none where there is no such request. -/
def ClaimAnswers (fc : ForgeConfig) (workers : List WorkerState) (worker : WorkerState)
    (released now : Instant) (requests : AiRequests) : Prop :=
  let current := releaseExpiredAssignments fc released requests
  ∃ answer : Option AIInferenceRequest,
    (claimNext fc workers worker.workerId released now requests).2 =
        .ok (answer.map fun item => item.claim fc worker now) ∧
      Answers hasPriority (routedTo workers (activeAiLoad current) worker.workerId)
        (waiting current) answer

/-- No waiting request is routed to the worker, or a first one of them is among the oldest. -/
def NearFront (fc : ForgeConfig) (workers : List WorkerState) (worker : WorkerState)
    (released : Instant) (requests : AiRequests) : Prop :=
  let current := releaseExpiredAssignments fc released requests
  let routed := routedTo workers (activeAiLoad current) worker.workerId
  (∀ item ∈ waiting current, routed item = false) ∨
    ∃ item ∈ oldestWaiting current, IsLeast hasPriority routed (waiting current) item

/-! ## The order -/

instance : Std.Total hasPriority where
  total a b := by
    unfold hasPriority
    rcases lt_trichotomy a.stakeSnapshotPi b.stakeSnapshotPi with h | h | h
    · exact .inr (.inl h)
    · rcases lt_trichotomy a.createdAt b.createdAt with ht | ht | ht
      · exact .inl (.inr ⟨h, .inl ht⟩)
      · rcases le_total a.requestId b.requestId with hid | hid
        · exact .inl (.inr ⟨h, .inr ⟨ht, hid⟩⟩)
        · exact .inr (.inr ⟨h.symm, .inr ⟨ht.symm, hid⟩⟩)
      · exact .inr (.inr ⟨h.symm, .inl ht⟩)
    · exact .inl (.inl h)

instance : IsTrans AIInferenceRequest hasPriority where
  trans a b c hab hbc := by
    unfold hasPriority at hab hbc ⊢
    rcases hab with hab | ⟨hab, hage⟩
    · rcases hbc with hbc | ⟨hbc, -⟩
      · exact .inl (hbc.trans hab)
      · exact .inl (hbc ▸ hab)
    · rcases hbc with hbc | ⟨hbc, hage'⟩
      · exact .inl (hab ▸ hbc)
      · refine .inr ⟨hab.trans hbc, ?_⟩
        rcases hage with hage | ⟨hage, hid⟩
        · rcases hage' with hage' | ⟨hage', -⟩
          · exact .inl (hage.trans hage')
          · exact .inl (hage' ▸ hage)
        · rcases hage' with hage' | ⟨hage', hid'⟩
          · exact .inl (hage ▸ hage')
          · exact .inr ⟨hage.trans hage', hid.trans hid'⟩

/-! ## What a claim reads -/

theorem oldestWaiting_subset (requests : AiRequests) :
    oldestWaiting requests ⊆ waiting requests := fun _ hitem =>
  (List.mem_insertionSort _).mp (List.mem_of_mem_take hitem)

/-- A selected worker is one of the registry, and it matches the request. -/
theorem selectWorker_matches {workers : List WorkerState} {load : String → ℕ}
    {item : AIInferenceRequest} {candidate : RouteCandidate}
    (h : selectWorkerForRequest workers load item = some candidate) :
    ∃ worker ∈ workers, workerMatchesRequest worker item = true ∧
      worker.workerId = candidate.workerId := by
  have hmem := List.mem_of_mem_head? (Option.mem_def.mpr h)
  unfold candidateWorkersForRequest at hmem
  rw [List.mem_insertionSort] at hmem
  -- with or without the workers that have tried the request
  have hcandidate : candidate ∈ ((workers.filter fun worker =>
      workerMatchesRequest worker item).filterMap fun worker =>
        worker.aiModelProfile.map fun profile =>
          aiRouteCandidate worker profile (load worker.workerId)) := by
    split at hmem
    · exact hmem
    · exact List.mem_of_mem_filter hmem
  obtain ⟨worker, hworker, hprofile⟩ := List.mem_filterMap.mp hcandidate
  obtain ⟨hregistered, hmatches⟩ := List.mem_filter.mp hworker
  obtain ⟨profile, -, rfl⟩ := Option.map_eq_some_iff.mp hprofile
  exact ⟨worker, hregistered, hmatches, rfl⟩

/-- The registry keeps a worker under its id. -/
theorem worker_unique {workers : List WorkerState} (hids : (workers.map WorkerState.workerId).Nodup)
    {a b : WorkerState} (ha : a ∈ workers) (hb : b ∈ workers) (hid : a.workerId = b.workerId) :
    a = b := List.inj_on_of_nodup_map hids ha hb hid

theorem find?_worker {workers : List WorkerState}
    (hids : (workers.map WorkerState.workerId).Nodup) {worker : WorkerState}
    (hworker : worker ∈ workers) :
    (workers.find? fun other => other.workerId = worker.workerId) = some worker := by
  cases hfound : workers.find? fun other => other.workerId = worker.workerId with
  | none =>
    have hnot := List.find?_eq_none.mp hfound worker hworker
    simp at hnot
  | some other =>
    have hid : other.workerId = worker.workerId := by
      simpa using List.find?_some hfound
    rw [worker_unique hids (List.mem_of_find?_eq_some hfound) hworker hid]

/-- A request that is routed to a worker is one the worker matches. -/
theorem matches_of_routedTo {workers : List WorkerState} {load : String → ℕ}
    (hids : (workers.map WorkerState.workerId).Nodup) {worker : WorkerState}
    (hworker : worker ∈ workers) {item : AIInferenceRequest}
    (h : routedTo workers load worker.workerId item = true) :
    workerMatchesRequest worker item = true := by
  obtain ⟨candidate, hselected, hid⟩ := (Option.any_eq_true _ _).mp h
  replace hid := of_decide_eq_true hid
  obtain ⟨other, hother, hmatches, hsame⟩ := selectWorker_matches hselected
  rw [worker_unique hids hother hworker (hsame.trans hid)] at hmatches
  exact hmatches

/-- What the claim chooses is the first that is routed to the worker. -/
theorem chooseRequest_eq_find? {workers : List WorkerState} {load : String → ℕ}
    (hids : (workers.map WorkerState.workerId).Nodup) {worker : WorkerState}
    (hworker : worker ∈ workers) (items : List AIInferenceRequest) :
    chooseRequest (fun _ => (workers, load)) worker items =
      items.find? (routedTo workers load worker.workerId) := by
  unfold chooseRequest
  congr 1
  funext item
  exact Bool.and_eq_right_iff_imp.mpr (matches_of_routedTo hids hworker)

/-- A claim of a registered worker answers with the first routed request among the oldest. -/
theorem claimNext_answer (fc : ForgeConfig) {workers : List WorkerState}
    (hids : (workers.map WorkerState.workerId).Nodup) {worker : WorkerState}
    (hworker : worker ∈ workers) (released now : Instant) (requests : AiRequests) :
    (claimNext fc workers worker.workerId released now requests).2 =
      .ok ((((oldestWaiting (releaseExpiredAssignments fc released requests)).insertionSort
        hasPriority).find? (routedTo workers
          (activeAiLoad (releaseExpiredAssignments fc released requests)) worker.workerId)).map
            fun item => item.claim fc worker now) := by
  unfold claimNext
  dsimp only
  rw [find?_worker hids hworker]
  dsimp only
  rw [chooseRequest_eq_find? hids hworker]
  change _ = Except.ok (Option.map _ (List.find? _ (queuedRequests _)))
  split
  · next hserves =>
    -- a worker that cannot serve is selected for no request
    have hnone : (queuedRequests (releaseExpiredAssignments fc released requests)).find?
        (routedTo workers (activeAiLoad (releaseExpiredAssignments fc released requests))
          worker.workerId) = none := by
      rw [List.find?_eq_none]
      intro item _ hrouted
      have hmatches := matches_of_routedTo hids hworker hrouted
      unfold workerMatchesRequest at hmatches
      rw [Bool.and_eq_true] at hmatches
      rw [hmatches.1] at hserves
      cases hserves
    rw [hnone]
    rfl
  · split
    · next hnone => rw [hnone]; rfl
    · next item hitem => rw [hitem]; rfl

/-! ## The answer for the whole queue -/

/-- A waiting request is found by its id. -/
theorem eq_of_requestId {requests : AiRequests} (hkeyed : Keyed requests)
    {a b : AIInferenceRequest} (ha : a ∈ waiting requests) (hb : b ∈ waiting requests)
    (hid : a.requestId = b.requestId) : a = b := by
  obtain ⟨ra, hra, rfl⟩ := List.mem_map.mp (List.mem_filter.mp ha).1
  obtain ⟨rb, hrb, rfl⟩ := List.mem_map.mp (List.mem_filter.mp hb).1
  have hkey : ra.1 = rb.1 := by rw [← hkeyed ra hra, ← hkeyed rb hrb, hid]
  rw [List.inj_on_of_nodup_map requests.nodup hra hrb hkey]

/-- A request that waits since its creation. -/
def waitingRequest (id : String) (requiredCapabilities : List String) (createdAt : Instant) :
    AIInferenceRequest where
  requestId := id
  requesterWallet := "W"
  stakeSnapshotPi := 10 ^ 8
  requiredStakePi := 10 ^ 8
  prompt := "p"
  promptHash := "p"
  requiredCapabilities := requiredCapabilities
  modelHint := none
  minParameterCountB := 0
  minContextTokens := 0
  preferredProvider := none
  maxTokens := 256
  storeOutput := true
  status := .queued
  assignedWorkerId := none
  assignedAt := none
  leaseExpiresAt := none
  assignmentAttempts := 0
  assignmentHistory := []
  modelProfile := none
  output := none
  outputHash := none
  receiptHash := none
  failureReason := none
  createdAt := createdAt
  updatedAt := createdAt

/-- An id of the given length. -/
def longId (n : ℕ) : String := String.ofList (List.replicate n 'r')

theorem longId_injective : Function.Injective longId := by
  intro m n h
  simpa using congrArg List.length (String.ofList_injective h)

/-- A request that needs a capability no worker has, but for that at the place `front`. -/
def queuedRequest (front i : ℕ) : AIInferenceRequest :=
  waitingRequest (longId i) (if i = front then [] else ["vision"]) i

/-- A queue of `n` requests, the oldest first, of which every worker with a model can serve that at
the place `front` and nobody any other. -/
def blockedQueue (front n : ℕ) : AiRequests where
  rows := (List.range n).map fun i => (longId i, queuedRequest front i)
  nodup := by
    rw [List.map_map]
    exact List.nodup_range.map longId_injective

theorem waiting_blockedQueue (front n : ℕ) :
    waiting (blockedQueue front n) = (List.range n).map (queuedRequest front) := by
  have hrows : (blockedQueue front n).rows.map Prod.snd =
      (List.range n).map (queuedRequest front) := List.map_map
  unfold waiting
  rw [hrows, List.filter_eq_self]
  intro item hitem
  obtain ⟨i, -, rfl⟩ := List.mem_map.mp hitem
  rfl

theorem release_blockedQueue (fc : ForgeConfig) (now : Instant) (front n : ℕ) :
    releaseExpiredAssignments fc now (blockedQueue front n) = blockedQueue front n := by
  apply Sql.Table.ext
  unfold releaseExpiredAssignments Sql.Table.mapRows blockedQueue leaseOver
  simp [Function.comp_def, queuedRequest, waitingRequest]

/-- The hundred oldest requests of the queue are its first. -/
theorem oldestWaiting_blockedQueue (front n : ℕ) :
    oldestWaiting (blockedQueue front n) =
      (List.range (min 100 n)).map (queuedRequest front) := by
  have hsorted : ((List.range n).map (queuedRequest front)).Pairwise
      fun a b => a.updatedAt ≤ b.updatedAt := by
    rw [List.pairwise_map]
    refine List.pairwise_lt_range.imp fun {a b} hab => ?_
    show (a : ℤ) ≤ b
    omega
  unfold oldestWaiting
  rw [waiting_blockedQueue, List.Pairwise.insertionSort_eq hsorted, ← List.map_take,
    List.take_range]

/-- Only the request at the place `front` is routed to the worker. -/
theorem routedTo_queuedRequest (load : String → ℕ) (front i : ℕ) :
    routedTo [localAiWorker] load "ann" (queuedRequest front i) = decide (i = front) := by
  unfold queuedRequest
  by_cases hi : i = front
  · rw [if_pos hi, decide_eq_true hi]
    rfl
  · rw [if_neg hi, decide_eq_false hi]
    rfl

theorem keyed_blockedQueue (front n : ℕ) : Keyed (blockedQueue front n) := by
  intro r hr
  obtain ⟨i, -, rfl⟩ := List.mem_map.mp hr
  rfl

end Picoin.Forge
