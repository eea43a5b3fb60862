import Mathlib.Data.Finset.Card
import Picoin.Core.Text
import Picoin.Lib.ReentrantLock

/-!
# The write lock of the database

`app/db/database.py`: every connection is a `PicoinConnection`, which takes the process-wide
`_DB_WRITE_LOCK` before its first write statement and gives it back when it commits, rolls back or
closes. The threads of the process interleave between any two steps of these methods, so a method
is a sequence of phases here:

* **`needsWriteLock`** — the statements that take the lock;
* **`WritePhase`** — where a thread is inside a method of a connection;
* **`writeStep`** — one thread goes on by one step.

What sqlite does with a call is not modelled, only which calls reach it, and in which order.
-/

namespace Picoin

def writeSqlPrefixes : List String :=
  ["alter", "begin exclusive", "begin immediate", "create", "delete", "drop", "insert", "replace",
    "update", "vacuum"]

/-- `str.lstrip`. -/
def lstrip (text : String) : String := String.ofList (text.toList.dropWhile isSpace)

def needsWriteLock (sql : String) : Bool :=
  writeSqlPrefixes.any (startsWith (lower (lstrip sql)))

/-- The methods of `PicoinConnection`. -/
inductive ConnectionMethod where
  | execute (sql : String)
  | executemany (sql : String)
  | executescript (sqlScript : String)
  | commit
  | rollback
  | close
  | exit
  deriving DecidableEq

/-- Where a thread is inside a method. -/
inductive WritePhase (κ : Type*) where
  | idle
  /-- Before `_DB_WRITE_LOCK.acquire()` returns. -/
  | waiting (connection : κ) (sql : String)
  /-- The lock is taken, `_picoin_write_lock_acquired` not yet set. -/
  | acquired (connection : κ) (sql : String)
  | executing (connection : κ) (sql : String)
  /-- In `super().__exit__`, before `self.close()`. -/
  | exiting (connection : κ)
  /-- In `super().commit()`, `super().rollback()` or `super().close()`. -/
  | finishing (connection : κ)
  /-- In the `finally` after it. -/
  | finished (connection : κ)
  /-- `_picoin_write_lock_acquired` is cleared, the lock not yet released. -/
  | releasing (connection : κ)
  deriving DecidableEq

/-- A call that reached `sqlite3.Connection`, whether it returned or raised there. -/
inductive BaseCall (κ : Type*) where
  | statement (connection : κ) (sql : String)
  | finish (connection : κ)
  deriving DecidableEq

structure WriteState (τ κ : Type*) where
  lock : ReentrantLock τ
  /-- The connections whose `_picoin_write_lock_acquired` is set. -/
  held : Finset κ
  phase : τ → WritePhase κ
  baseCalls : List (BaseCall κ)
  /-- The connections on which `_DB_WRITE_LOCK.release()` raised. -/
  raised : List κ

/-- What the process does next: a thread calls a method, or goes on inside one. -/
inductive WriteEvent (τ κ : Type*) where
  | call (connection : κ) (method : ConnectionMethod)
  | resume (thread : τ)

namespace WriteState

variable {τ κ : Type*} [DecidableEq τ] [DecidableEq κ]

def start : WriteState τ κ := ⟨.free, ∅, fun _ => .idle, [], []⟩

def setPhase (s : WriteState τ κ) (t : τ) (p : WritePhase κ) : WriteState τ κ :=
  { s with phase := Function.update s.phase t p }

omit [DecidableEq κ] in
@[simp] theorem phase_setPhase_self (s : WriteState τ κ) (t : τ) (p : WritePhase κ) :
    (s.setPhase t p).phase t = p := Function.update_self ..

omit [DecidableEq κ] in
theorem phase_setPhase_of_ne {t u : τ} (h : u ≠ t) (s : WriteState τ κ) (p : WritePhase κ) :
    (s.setPhase t p).phase u = s.phase u := Function.update_of_ne h ..

/-- The method of the base class, `super().execute` and so on. -/
def callBase (s : WriteState τ κ) (b : BaseCall κ) : WriteState τ κ :=
  { s with baseCalls := s.baseCalls ++ [b] }

/-- `_acquire_write_lock_if_needed`, up to the call of `acquire`. -/
def acquireWriteLockIfNeeded (s : WriteState τ κ) (t : τ) (c : κ) (sql : String) :
    WriteState τ κ :=
  if c ∈ s.held ∨ needsWriteLock sql = false then s.setPhase t (.executing c sql)
  else s.setPhase t (.waiting c sql)

def callMethod (s : WriteState τ κ) (t : τ) (c : κ) : ConnectionMethod → WriteState τ κ
  | .execute sql => s.acquireWriteLockIfNeeded t c sql
  | .executemany sql => s.acquireWriteLockIfNeeded t c sql
  | .executescript sqlScript => s.acquireWriteLockIfNeeded t c sqlScript
  | .commit => s.setPhase t (.finishing c)
  | .rollback => s.setPhase t (.finishing c)
  | .close => s.setPhase t (.finishing c)
  | .exit => s.setPhase t (.exiting c)

/-- The next step of a thread inside a method. -/
def resumeMethod (s : WriteState τ κ) (t : τ) : WriteState τ κ :=
  match s.phase t with
  | .idle => s
  | .waiting c sql =>
    match s.lock.acquire t with
    | none => s
    | some lock => { s with lock := lock }.setPhase t (.acquired c sql)
  | .acquired c sql => { s with held := insert c s.held }.setPhase t (.executing c sql)
  | .executing c sql => (s.callBase (.statement c sql)).setPhase t .idle
  | .exiting c => (s.callBase (.finish c)).setPhase t (.finishing c)
  | .finishing c => (s.callBase (.finish c)).setPhase t (.finished c)
  | .finished c =>
    if c ∈ s.held then { s with held := s.held.erase c }.setPhase t (.releasing c)
    else s.setPhase t .idle
  | .releasing c =>
    match s.lock.release t with
    | some lock => { s with lock := lock }.setPhase t .idle
    | none => { s with raised := s.raised ++ [c] }.setPhase t .idle

end WriteState

/-- One step of the process. `user` is the thread that opened a connection: the connections are
local variables, and no other thread sees them. -/
def writeStep {τ κ : Type*} [DecidableEq τ] [DecidableEq κ] (user : κ → τ)
    (s : WriteState τ κ) : WriteEvent τ κ → WriteState τ κ
  | .call c method =>
    match s.phase (user c) with
    | .idle => s.callMethod (user c) c method
    | _ => s
  | .resume t => s.resumeMethod t

end Picoin
