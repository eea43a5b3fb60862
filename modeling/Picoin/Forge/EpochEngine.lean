import Picoin.Forge.Settlement

/-!
# Closing an epoch

A call of `close_epoch` reads the number of the last epoch in one transaction, reads and writes the rows
of the workers in others, writes the settlement to a file that has the number in its name, and puts the
number back in a last transaction. Calls can overlap, and a call can stop after each of its steps.

* **`epochStep`** — a step of a call.
-/

namespace Picoin.Forge.Coordinator

/-- How far a call has come. -/
inductive EpochCall where
  | opened (epochId reward : ℤ)
  | built (settlement : EpochSettlement)
  | written (settlement : EpochSettlement)
  | advanced (settlement : EpochSettlement)

/-- `epoch_state`, the settlement files by their number and the calls under way; with them the
settlements in the order in which they were written, put into `epoch_state` and returned. -/
structure EpochState where
  currentEpoch : ℤ
  files : Sql.Table ℤ EpochSettlement
  calls : Sql.Table ℕ EpochCall
  writes : List EpochSettlement
  advances : List EpochSettlement
  returned : List EpochSettlement

/-- The tables that `init_db` creates. -/
def EpochState.initDb : EpochState := ⟨0, .empty, .empty, [], [], []⟩

/-- A step of a call. What a call has read of the workers depends on all that writes their rows; it can
be any list. -/
inductive EpochEvent where
  | start (call : ℕ) (reward : ℤ)
  | build (call : ℕ) (workers : List WorkerState) (timestamp : String)
  | write (call : ℕ)
  | advance (call : ℕ)
  | finish (call : ℕ)
  | stop (call : ℕ)

/-- The call has come so far. -/
def EpochState.at (s : EpochState) (call : ℕ) (stage : EpochCall) : EpochState :=
  { s with calls := s.calls.upsert call stage }

/-- The call is over. -/
def EpochState.without (s : EpochState) (call : ℕ) : EpochState :=
  { s with calls := s.calls.filterRows fun id _ => id ≠ call }

/-- One step. -/
def epochStep (fc : ForgeConfig) (s : EpochState) : EpochEvent → EpochState
  | .start call reward =>
    match s.calls.find? call with
    | none => s.at call (.opened (s.currentEpoch + 1) reward)
    | some _ => s
  | .build call workers timestamp =>
    match s.calls.find? call with
    -- the number was read when the call began
    | some (.opened epochId reward) =>
      let rewards := calculateEpochRewards (workers.map refreshWorkerScore) reward
      s.at call (.built (buildSettlement fc timestamp epochId reward rewards))
    | _ => s
  | .write call =>
    match s.calls.find? call with
    -- `write_settlement` puts it over a file of the same number
    | some (.built settlement) =>
      { s.at call (.written settlement) with
        files := s.files.upsert settlement.epochId settlement
        writes := s.writes ++ [settlement] }
    | _ => s
  | .advance call =>
    match s.calls.find? call with
    -- `UPDATE epoch_state`, without a condition on the number that is there
    | some (.written settlement) =>
      { s.at call (.advanced settlement) with
        currentEpoch := settlement.epochId
        advances := s.advances ++ [settlement] }
    | _ => s
  | .finish call =>
    match s.calls.find? call with
    | some (.advanced settlement) =>
      { s.without call with returned := s.returned ++ [settlement] }
    | _ => s
  | .stop call => s.without call

end Picoin.Forge.Coordinator
