import Mathlib.Data.List.Sort
import Picoin.Core.Clock
import Picoin.Lib.Json
import Picoin.Lib.Table

/-!
# The queue of workloads

A workload has one result that is expected. The first worker that claims it is the one whose result
counts.
-/

namespace Picoin.Forge

open Json

inductive WorkloadType where
  | hashText
  | textClassify
  | batchSummarize
  | textEmbed
deriving DecidableEq, Repr

inductive WorkloadStatus where
  | queued
  | assigned
  | submitted
  | verified
  | failed
deriving DecidableEq, Repr

structure WorkloadTask where
  taskId : String
  taskType : WorkloadType
  payload : Value
  status : WorkloadStatus
  expectedResultHash : String
  assignedWorkerId : Option String
  resultHash : Option String
  createdAt : Instant
  updatedAt : Instant

structure WorkloadResult where
  taskId : String
  workerId : String
  resultHash : String
  submittedAt : Instant

/-- The table `workloads`. -/
abbrev Workloads := Sql.Table String WorkloadTask

namespace WorkloadQueue

/-- The task that `claim_next` reads: the oldest one in the queue. -/
def nextQueued (tasks : Workloads) : Option WorkloadTask :=
  (((tasks.rows.map Prod.snd).filter fun task => task.status = .queued).insertionSort
    fun a b => a.updatedAt ≤ b.updatedAt).head?

/-- The task that `claim_next` puts back. -/
def claimTask (workerId : String) (now : Instant) (task : WorkloadTask) : WorkloadTask :=
  { task with
    status := .assigned
    assignedWorkerId := some workerId
    updatedAt := now }

/-- The task after `submit`. -/
def submitTask (result : WorkloadResult) (now : Instant) (task : WorkloadTask) : WorkloadTask :=
  if task.assignedWorkerId ≠ some result.workerId then
    { task with
      status := .failed
      resultHash := some result.resultHash
      updatedAt := now }
  else
    { task with
      resultHash := some result.resultHash
      status := if result.resultHash = task.expectedResultHash then .verified else .failed
      updatedAt := now }

/-- `submit`; an unknown task raises. -/
def submit (result : WorkloadResult) (now : Instant) (tasks : Workloads) :
    Except String Workloads :=
  match tasks.find? result.taskId with
  | none =>
    let id := result.taskId
    .error s!"workload not found: {id}"
  | some task => .ok (tasks.upsert result.taskId (submitTask result now task))

end WorkloadQueue

end Picoin.Forge
