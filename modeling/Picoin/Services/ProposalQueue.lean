import Mathlib.Data.List.Sort
import Mathlib.Tactic.Common

/-!
# The queue of block proposals

`app/services/consensus_queue.py`: proposals arrive over the API at any time, and one worker hands
them to the consensus, the lowest height first. The coroutines interleave at their `await`s only, so
a step is what happens between two of them:

* **`ProposalQueue.submit`** — a request puts its proposal and waits for its future;
* **`ProposalQueue.dispatch`** — the worker drains the queue, keeps the first proposal and puts the
  others back;
* **`ProposalQueue.step`** — one step of the event loop.

The processor is outside: what it returns or raises is part of the step that finishes it. The model
runs from `start` to `stop`.
-/

namespace Picoin

/-- `_QueuedProposal`; its future is kept under the sequence number. -/
structure QueuedProposal (β : Type*) where
  height : ℤ
  sequence : ℕ
  block : β
  proposerNodeId : String
  gossip : Bool
deriving DecidableEq

/-- The order of the dataclass: by height, then by sequence. -/
def QueuedProposal.le {β : Type*} (a b : QueuedProposal β) : Bool :=
  if a.height = b.height then a.sequence ≤ b.sequence else a.height ≤ b.height

/-- The future that a request waits for. -/
inductive ProposalFuture (ρ : Type*) where
  | pending
  | result (value : ρ)
  | exception (message : String)
  | cancelled
deriving DecidableEq

/-- What a future gets from an outcome. -/
def ProposalFuture.of {ρ : Type*} : Except String ρ → ProposalFuture ρ
  | .ok value => .result value
  | .error message => .exception message

/-- A future is set once. -/
def ProposalFuture.set {ρ : Type*} (value : ProposalFuture ρ) : ProposalFuture ρ → ProposalFuture ρ
  | .pending => value
  | done => done

/-- Where `_run` is. -/
inductive QueueWorker (β : Type*) where
  /-- In `get`. -/
  | waiting
  /-- In `sleep`, with the proposal it got. -/
  | coalescing (item : QueuedProposal β)
  | processing (item : QueuedProposal β)
  /-- Ended by an exception. -/
  | failed
deriving DecidableEq

structure ProposalQueue (β ρ : Type*) where
  queue : List (QueuedProposal β)
  unfinishedTasks : ℕ
  nextSequence : ℕ
  worker : QueueWorker β
  futures : List (ProposalFuture ρ)
  /-- The calls of the processor, each with the number of proposals submitted before it. -/
  processed : List (QueuedProposal β × ℕ)
  /-- What the calls returned or raised, under the sequence number. -/
  outcomes : List (ℕ × Except String ρ)

inductive QueueEvent (β ρ : Type*) where
  | submit (block : β) (proposerNodeId : String) (gossip : Bool)
  /-- The request that waits for a future is cancelled. -/
  | cancel (sequence : ℕ)
  /-- The worker goes on: `get` has a proposal, or `sleep` is over. -/
  | wake
  | finish (outcome : Except String ρ)

namespace ProposalQueue

variable {β ρ : Type*}

def start : ProposalQueue β ρ := ⟨[], 0, 0, .waiting, [], [], []⟩

/-- `PriorityQueue.put`. -/
def put (s : ProposalQueue β ρ) (item : QueuedProposal β) : ProposalQueue β ρ :=
  { s with
    queue := s.queue.orderedInsert (fun a b => a.le b = true) item
    unfinishedTasks := s.unfinishedTasks + 1 }

def taskDone (s : ProposalQueue β ρ) : Except String (ProposalQueue β ρ) :=
  if s.unfinishedTasks = 0 then .error "task_done() called too many times"
  else .ok { s with unfinishedTasks := s.unfinishedTasks - 1 }

/-- `submit`, up to the `await` of the future; `height` is `int(block.get("height") or 0)`. -/
def submit (height : β → ℤ) (s : ProposalQueue β ρ) (block : β) (proposerNodeId : String)
    (gossip : Bool) : ProposalQueue β ρ :=
  { s.put ⟨height block, s.nextSequence, block, proposerNodeId, gossip⟩ with
    nextSequence := s.nextSequence + 1
    futures := s.futures ++ [.pending] }

def setFuture (s : ProposalQueue β ρ) (sequence : ℕ) (value : ProposalFuture ρ) :
    ProposalQueue β ρ :=
  { s with futures := s.futures.modify sequence value.set }

/-- The worker after `sleep`: the queue is drained, and the proposals but the first are put back. -/
def dispatch (s : ProposalQueue β ρ) (item : QueuedProposal β) :
    Except String (ProposalQueue β ρ) :=
  match (item :: s.queue).mergeSort QueuedProposal.le with
  | [] => .ok s
  | first :: delayed => do
    let s ← delayed.foldlM (fun s d => do
      let s ← s.taskDone
      return s.put d) { s with queue := [] }
    return { s with
      worker := .processing first
      processed := s.processed ++ [(first, s.nextSequence)] }

/-- The result or the exception, and `task_done`. -/
def finish (s : ProposalQueue β ρ) (item : QueuedProposal β) (outcome : Except String ρ) :
    Except String (ProposalQueue β ρ) := do
  let s ← (s.setFuture item.sequence (.of outcome)).taskDone
  return { s with worker := .waiting, outcomes := s.outcomes ++ [(item.sequence, outcome)] }

/-- The worker ends where an exception is not caught. -/
def orFailed (s : ProposalQueue β ρ) (x : Except String (ProposalQueue β ρ)) : ProposalQueue β ρ :=
  match x with
  | .ok s' => s'
  | .error _ => { s with worker := .failed }

/-- One step of the event loop; `coalesce` says that `coalesce_seconds` is positive. -/
def step (height : β → ℤ) (coalesce : Bool) (s : ProposalQueue β ρ) :
    QueueEvent β ρ → ProposalQueue β ρ
  | .submit block proposerNodeId gossip => s.submit height block proposerNodeId gossip
  | .cancel sequence => s.setFuture sequence .cancelled
  | .wake =>
    match s.worker, s.queue with
    | .waiting, item :: rest =>
      if coalesce then { s with queue := rest, worker := .coalescing item }
      else s.orFailed ({ s with queue := rest }.dispatch item)
    | .coalescing item, _ => s.orFailed (s.dispatch item)
    | _, _ => s
  | .finish outcome =>
    match s.worker with
    | .processing item => s.orFailed (s.finish item outcome)
    | _ => s

end ProposalQueue

end Picoin
