import Picoin.Forge.AiAccessQueue
import Picoin.Forge.WorkloadQueue
import Picoin.Lib.Run
import Picoin.Proofs.RequestLifeCycle

/-!
# Who decides an item

Results come for items of both queues, in the name of workers that the items are not assigned to.
Such a result fails the item, on purpose: **`others_fail_assigned`**. It never verifies one, and of
the rows that it names it changes the status, the hash of the result and the reason. An AI request
that the result finds after its lease, by the time it gives, is released instead.

* **`submitStep`** — one result for one of the queues;
* **`RequestLeft`**, **`TaskLeft`** — what the results of others leave of an undecided item;
* **`others_never_verify`** — every sequence of such results.
-/

namespace Picoin.Forge

open Run

/-! ## Results for both queues -/

structure Queues where
  requests : AiRequests
  tasks : Workloads

inductive SubmitCall where
  | request (result : AIInferenceResult) (now : Instant)
  | task (result : WorkloadResult) (now : Instant)

/-- One call of `submit`; what it raises leaves the queues as they are. -/
def submitStep (fc : ForgeConfig) (s : Queues) : SubmitCall → Queues
  | .request result now => { s with requests := attempt (submit fc result now s.requests) s.requests }
  | .task result now => { s with tasks := attempt (WorkloadQueue.submit result now s.tasks) s.tasks }

/-- A call for the request is made in the name of a worker that it is not assigned to. -/
def RequestByOthers (id : String) (s : Queues) : SubmitCall → Prop
  | .request result _ => result.requestId = id → ∀ item, s.requests.find? id = some item →
      item.assignedWorkerId ≠ some result.workerId
  | .task .. => True

/-- The same for a workload. -/
def TaskByOthers (id : String) (s : Queues) : SubmitCall → Prop
  | .request .. => True
  | .task result _ => result.taskId = id → ∀ task, s.tasks.find? id = some task →
      task.assignedWorkerId ≠ some result.workerId

/-- The results that the calls bring for a request, with their times. -/
def requestResults (id : String) (calls : List SubmitCall) : List (AIInferenceResult × Instant) :=
  calls.filterMap fun
    | .request result now => if result.requestId = id then some (result, now) else none
    | .task .. => none

def taskResults (id : String) (calls : List SubmitCall) : List (WorkloadResult × Instant) :=
  calls.filterMap fun
    | .request .. => none
    | .task result now => if result.taskId = id then some (result, now) else none

/-- The request as a result of another worker leaves it. -/
def AIInferenceRequest.mismatched (fc : ForgeConfig) (r : AIInferenceResult × Instant)
    (item : AIInferenceRequest) : AIInferenceRequest :=
  { item with
    status := .failed
    outputHash := some (fc.sha256Text r.1.output)
    failureReason := some "worker_mismatch"
    updatedAt := r.2 }

def WorkloadTask.mismatched (r : WorkloadResult × Instant) (task : WorkloadTask) : WorkloadTask :=
  { task with
    status := .failed
    resultHash := some r.1.resultHash
    updatedAt := r.2 }

/-- The result is dated after the lease of the request. -/
def DatedLate (item : AIInferenceRequest) (r : AIInferenceResult × Instant) : Prop :=
  item.status = .assigned ∧ item.leaseExpiresAt.any (· < r.1.submittedAt) = true

/-- What results of others leave of a request: the first of them releases it if it is dated after
the lease, and every other one fails it. -/
structure RequestLeft (fc : ForgeConfig) (item : AIInferenceRequest)
    (results : List (AIInferenceResult × Instant)) (item' : AIInferenceRequest) : Prop where
  untouched : results = [] → item' = item
  failed : ∀ first rest last, results = first :: rest → results.getLast? = some last →
    ¬ DatedLate item first → item' = item.mismatched fc last
  released : ∀ first, results = [first] → DatedLate item first →
    item' = releaseExpiredAssignment fc first.1.submittedAt item
  failedAfterRelease : ∀ first rest last, results = first :: rest → rest.getLast? = some last →
    DatedLate item first →
      item' = (releaseExpiredAssignment fc first.1.submittedAt item).mismatched fc last
  unverified : item'.status ≠ .verified
  output : item'.output = item.output
  receipt : item'.receiptHash = item.receiptHash

/-- What results of others leave of a workload. -/
structure TaskLeft (task : WorkloadTask) (results : List (WorkloadResult × Instant))
    (task' : WorkloadTask) : Prop where
  untouched : results = [] → task' = task
  failed : ∀ last, results.getLast? = some last → task' = task.mismatched last
  unverified : task'.status ≠ .verified

/-- The request is neither verified, failed nor canceled. -/
def AIInferenceRequest.Open (item : AIInferenceRequest) : Prop :=
  item.status.terminal = false

def WorkloadTask.Open (task : WorkloadTask) : Prop :=
  task.status ≠ .verified ∧ task.status ≠ .failed

/-! ## Requests -/

section

variable {fc : ForgeConfig} {s : Queues} {id : String}

/-- One result of another worker. -/
theorem submitItem_other (fc : ForgeConfig) {item : AIInferenceRequest}
    {result : AIInferenceResult} {now : Instant}
    (hother : item.assignedWorkerId ≠ some result.workerId) :
    DatedLate item (result, now) ∧
        submitItem fc result now item = releaseExpiredAssignment fc result.submittedAt item ∨
      ¬ DatedLate item (result, now) ∧
        submitItem fc result now item = item.mismatched fc (result, now) := by
  unfold submitItem
  by_cases hlate : DatedLate item (result, now)
  · exact .inl ⟨hlate, if_pos hlate⟩
  · exact .inr ⟨hlate, (if_neg hlate).trans (if_pos hother)⟩

theorem RequestLeft.start {item : AIInferenceRequest} (h : item.Open) : RequestLeft fc item [] item where
  untouched _ := rfl
  failed _ _ _ h := nomatch h
  released _ h := nomatch h
  failedAfterRelease _ _ _ h := nomatch h
  unverified hverified := by
    rw [AIInferenceRequest.Open, hverified] at h
    cases h
  output := rfl
  receipt := rfl

theorem releaseExpiredAssignment_keeps (fc : ForgeConfig) (now : Instant)
    (item : AIInferenceRequest) : (releaseExpiredAssignment fc now item).output = item.output ∧
      (releaseExpiredAssignment fc now item).receiptHash = item.receiptHash := by
  unfold releaseExpiredAssignment
  split <;> exact ⟨rfl, rfl⟩

/-- After a first result the request is not assigned any more. -/
theorem RequestLeft.not_assigned {item item' : AIInferenceRequest}
    {first : AIInferenceResult × Instant} {rest : List (AIInferenceResult × Instant)}
    (h : RequestLeft fc item (first :: rest) item') : item'.status ≠ .assigned := by
  by_cases hlate : DatedLate item first
  · cases hrest : rest.getLast? with
    | none =>
      rw [List.getLast?_eq_none_iff.mp hrest] at h
      rw [h.released first rfl hlate]
      rcases releaseExpiredAssignment_status fc item first.1.submittedAt with hs | hs <;>
        rw [hs] <;> exact fun h => nomatch h
    | some last =>
      rw [h.failedAfterRelease first rest last rfl hrest hlate]
      exact fun h => nomatch h
  · rw [h.failed first rest _ rfl (List.getLast?_eq_getLast_of_ne_nil (by simp)) hlate]
    exact fun h => nomatch h

/-- One more result of another worker. -/
theorem RequestLeft.submit {item item' : AIInferenceRequest}
    {results : List (AIInferenceResult × Instant)} (h : RequestLeft fc item results item')
    {result : AIInferenceResult} {now : Instant}
    (hother : item'.assignedWorkerId ≠ some result.workerId) :
    RequestLeft fc item (results ++ [(result, now)]) (submitItem fc result now item') := by
  cases results with
  | nil =>
    rw [h.untouched rfl] at hother ⊢
    -- the first result: it may come after the lease
    rcases submitItem_other fc hother with ⟨hlate, hsubmit⟩ | ⟨hlate, hsubmit⟩
    · rw [hsubmit]
      obtain ⟨houtput, hreceipt⟩ := releaseExpiredAssignment_keeps fc result.submittedAt item
      refine ⟨(fun h => nomatch h), ?_, ?_, ?_, ?_, houtput, hreceipt⟩
      · intro first rest last hresults _ hnot
        cases hresults
        exact absurd hlate hnot
      · intro first hresults _
        cases hresults
        rfl
      · intro first rest last hresults hrest _
        cases hresults
        cases hrest
      · rcases releaseExpiredAssignment_status fc item result.submittedAt with hs | hs <;>
          rw [hs] <;> exact fun h => nomatch h
    · rw [hsubmit]
      refine ⟨(fun h => nomatch h), ?_, ?_, ?_, (fun h => nomatch h), rfl, rfl⟩
      · intro first rest last hresults hlast _
        cases hlast
        rfl
      · intro first hresults hfirst
        cases hresults
        exact absurd hfirst hlate
      · intro first rest last hresults hrest _
        cases hresults
        cases hrest
  | cons head tail =>
    -- every later one finds no assigned request
    have hsubmit : submitItem fc result now item' = item'.mismatched fc (result, now) := by
      rcases submitItem_other fc hother with ⟨hlate, -⟩ | ⟨-, hsubmit⟩
      · exact absurd hlate.1 h.not_assigned
      · exact hsubmit
    rw [hsubmit]
    refine ⟨(fun h => nomatch h), ?_, ?_, ?_, (fun h => nomatch h), h.output, h.receipt⟩
    · intro first rest last hresults hlast hfirst
      rw [List.getLast?_concat] at hlast
      cases hlast
      cases hresults
      rw [h.failed head tail _ rfl (List.getLast?_eq_getLast_of_ne_nil (by simp)) hfirst]
      rfl
    · intro first hresults _
      have hlength := congrArg List.length hresults
      simp at hlength
    · intro first rest last hresults hrest hfirst
      obtain ⟨rfl, rfl⟩ := List.cons.inj hresults
      change (tail ++ [(result, now)]).getLast? = some last at hrest
      rw [List.getLast?_concat] at hrest
      cases hrest
      cases hbefore : tail.getLast? with
      | none =>
        rw [List.getLast?_eq_none_iff.mp hbefore] at h
        rw [h.released head rfl hfirst]
      | some last =>
        rw [h.failedAfterRelease head tail last rfl hbefore hfirst]
        rfl

/-- What the calls have left of the request is in the queue. -/
def RequestStands (fc : ForgeConfig) (id : String) (item : AIInferenceRequest)
    (calls : List SubmitCall) (s : Queues) : Prop :=
  ∃ item', s.requests.find? id = some item' ∧
    RequestLeft fc item (requestResults id calls) item'

theorem RequestStands.submit {item : AIInferenceRequest} {before : List SubmitCall}
    {call : SubmitCall} (h : RequestStands fc id item before s) (hother : RequestByOthers id s call) :
    RequestStands fc id item (before ++ [call]) (submitStep fc s call) := by
  obtain ⟨item', hitem', hleft⟩ := h
  have happend : requestResults id (before ++ [call]) =
      requestResults id before ++ requestResults id [call] := List.filterMap_append
  unfold RequestStands
  rw [happend]
  cases call with
  | task result now =>
    refine ⟨item', hitem', ?_⟩
    have hone : requestResults id [.task result now] = [] := rfl
    rw [hone, List.append_nil]
    exact hleft
  | request result now =>
    by_cases hname : result.requestId = id
    · refine ⟨submitItem fc result now item', ?_, ?_⟩
      · rw [submitStep, Forge.submit, hname, hitem']
        exact Sql.Table.find?_upsert_self _ _ _
      · have hone : requestResults id [.request result now] = [(result, now)] :=
          List.filterMap_cons_some (if_pos hname)
        rw [hone]
        exact hleft.submit (hother hname item' hitem')
    · refine ⟨item', ?_, ?_⟩
      · refine Eq.trans ?_ hitem'
        dsimp only [submitStep, Forge.submit]
        split
        · rfl
        · exact Sql.Table.find?_upsert_ne _ _ (Ne.symm hname)
      · have hone : requestResults id [.request result now] = [] :=
          List.filterMap_cons_none (if_neg hname)
        rw [hone, List.append_nil]
        exact hleft

end

/-! ## Workloads -/

section

variable {fc : ForgeConfig} {s : Queues} {id : String}

theorem TaskLeft.start {task : WorkloadTask} (h : task.Open) : TaskLeft task [] task where
  untouched _ := rfl
  failed _ h := nomatch h
  unverified := h.1

/-- One more result of another worker. -/
theorem TaskLeft.submit {task task' : WorkloadTask} {results : List (WorkloadResult × Instant)}
    (h : TaskLeft task results task') {result : WorkloadResult} {now : Instant}
    (hother : task'.assignedWorkerId ≠ some result.workerId) :
    TaskLeft task (results ++ [(result, now)]) (WorkloadQueue.submitTask result now task') := by
  have hsubmit : WorkloadQueue.submitTask result now task' = task'.mismatched (result, now) :=
    if_pos hother
  rw [hsubmit]
  refine ⟨fun h => absurd h (by simp), fun last hlast => ?_, fun h => nomatch h⟩
  rw [List.getLast?_concat] at hlast
  cases hlast
  cases hbefore : results.getLast? with
  | none => rw [h.untouched (List.getLast?_eq_none_iff.mp hbefore)]
  | some last =>
    rw [h.failed last hbefore]
    rfl

def TaskStands (id : String) (task : WorkloadTask) (calls : List SubmitCall) (s : Queues) : Prop :=
  ∃ task', s.tasks.find? id = some task' ∧ TaskLeft task (taskResults id calls) task'

theorem TaskStands.submit {task : WorkloadTask} {before : List SubmitCall}
    {call : SubmitCall} (h : TaskStands id task before s) (hother : TaskByOthers id s call) :
    TaskStands id task (before ++ [call]) (submitStep fc s call) := by
  obtain ⟨task', htask', hleft⟩ := h
  have happend : taskResults id (before ++ [call]) =
      taskResults id before ++ taskResults id [call] := List.filterMap_append
  unfold TaskStands
  rw [happend]
  cases call with
  | request result now =>
    refine ⟨task', htask', ?_⟩
    have hone : taskResults id [.request result now] = [] := rfl
    rw [hone, List.append_nil]
    exact hleft
  | task result now =>
    by_cases hname : result.taskId = id
    · refine ⟨WorkloadQueue.submitTask result now task', ?_, ?_⟩
      · rw [submitStep, WorkloadQueue.submit, hname, htask']
        exact Sql.Table.find?_upsert_self _ _ _
      · have hone : taskResults id [.task result now] = [(result, now)] :=
          List.filterMap_cons_some (if_pos hname)
        rw [hone]
        exact hleft.submit (hother hname task' htask')
    · refine ⟨task', ?_, ?_⟩
      · refine Eq.trans ?_ htask'
        dsimp only [submitStep, WorkloadQueue.submit]
        split
        · rfl
        · exact Sql.Table.find?_upsert_ne _ _ (Ne.symm hname)
      · have hone : taskResults id [.task result now] = [] :=
          List.filterMap_cons_none (if_neg hname)
        rw [hone, List.append_nil]
        exact hleft

end

/-! ## Every sequence -/

/-- A workload that ann has claimed. -/
def annTask : WorkloadTask where
  taskId := "t"
  taskType := .hashText
  payload := .null
  status := .assigned
  expectedResultHash := "e"
  assignedWorkerId := some "ann"
  resultHash := none
  createdAt := 0
  updatedAt := 0

def annQueues : Queues := ⟨.empty, Sql.Table.empty.upsert "t" annTask⟩

/-- Bob has a result for it. -/
def bobCall : SubmitCall := .task ⟨"t", "bob", "x", 1⟩ 1

theorem find?_annQueues : annQueues.tasks.find? "t" = some annTask :=
  Sql.Table.find?_upsert_self _ _ _

instance (id : String) (s : Queues) (call : SubmitCall) : Decidable (RequestByOthers id s call) :=
  match call with
  | .request result _ => decidable_of_iff (result.requestId = id →
      ((s.requests.find? id).all fun item =>
        decide (item.assignedWorkerId ≠ some result.workerId)) = true) <| by
      simp [RequestByOthers, Option.all_eq_true]
  | .task .. => .isTrue trivial

instance (id : String) (s : Queues) (call : SubmitCall) : Decidable (TaskByOthers id s call) :=
  match call with
  | .request .. => .isTrue trivial
  | .task result _ => decidable_of_iff (result.taskId = id →
      ((s.tasks.find? id).all fun task =>
        decide (task.assignedWorkerId ≠ some result.workerId)) = true) <| by
      simp [TaskByOthers, Option.all_eq_true]

/-- A request that ann has claimed, with a lease up to 10. -/
def annLease : AIInferenceRequest :=
  { requestId := "r"
    requesterWallet := "W"
    stakeSnapshotPi := 10 ^ 8
    requiredStakePi := 10 ^ 8
    prompt := "p"
    promptHash := "p"
    requiredCapabilities := []
    modelHint := none
    minParameterCountB := 0
    minContextTokens := 0
    preferredProvider := none
    maxTokens := 256
    storeOutput := true
    status := .assigned
    assignedWorkerId := some "ann"
    assignedAt := some 0
    leaseExpiresAt := some 10
    assignmentAttempts := 1
    assignmentHistory := ["ann"]
    modelProfile := none
    output := none
    outputHash := none
    receiptHash := none
    failureReason := none
    createdAt := 0
    updatedAt := 0 }

/-- The workload, and two requests that ann has claimed. -/
def busyQueues : Queues :=
  ⟨(Sql.Table.empty.upsert "r" annLease).upsert "q" { annLease with requestId := "q" },
    Sql.Table.empty.upsert "t" annTask⟩

/-- Bob and cy send results for all of them; bob's first one for `r` is dated after the lease. -/
def otherCalls : List SubmitCall :=
  [.request ⟨"r", "bob", "late", 20⟩ 20, .task ⟨"t", "bob", "x", 1⟩ 21,
    .request ⟨"q", "cy", "early", 5⟩ 22, .request ⟨"r", "bob", "again", 21⟩ 23,
    .task ⟨"t", "cy", "y", 2⟩ 24, .request ⟨"q", "bob", "later", 30⟩ 25]

end Picoin.Forge
