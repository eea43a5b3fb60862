import Picoin.Lib.Outcome
import Picoin.Pool.Work

/-!
# The shares of the pool

A share stands for work: the worker that holds it has submitted the digits of the chunk, and the
chunk is completed. `shares_verified_of_run` proves this for every interleaving of the requests of
all workers with the pool's own transactions, under the condition that a late submission to a race
is not a guess: the code credits it without looking at its digits (`late_guess_credited`).

* **`Evolves`** is what every transaction keeps of chunks and tasks;
* **`step_shares`** says when a transaction adds a share, and which;
* **`CreditInvariant`** is what holds between the transactions of a run.
-/

namespace Picoin.Pool

open Outcome Run

/-! ## What a transaction keeps -/

/-- The columns of a chunk that are never written again. -/
def ChunkRow.place (chunk : ChunkRow) : String × ℤ × ℤ × ℤ :=
  (chunk.poolTaskId, chunk.rangeStart, chunk.rangeEnd, chunk.units)

/-- The columns of a task that are never written again. -/
def TaskRow.place (task : TaskRow) : ℤ × ℤ × String :=
  (task.rangeStart, task.rangeEnd, task.algorithm)

/-- Chunks stay where they are, and a completed chunk stays completed. -/
def ChunksEvolve (t t' : Sql.Table String ChunkRow) : Prop :=
  ∀ id c, t.find? id = some c → ∃ c', t'.find? id = some c' ∧ c'.place = c.place ∧
    (c.status = .completed → c'.status = .completed)

/-- Tasks stay where they are. -/
def TasksEvolve (t t' : Sql.Table String TaskRow) : Prop :=
  ∀ id row, t.find? id = some row → ∃ row', t'.find? id = some row' ∧ row'.place = row.place

/-- A table of chunks may stay as it is. -/
theorem ChunksEvolve.refl (t : Sql.Table String ChunkRow) : ChunksEvolve t t :=
  fun _ c hc => ⟨c, hc, rfl, fun h => h⟩

/-- So may a table of tasks. -/
theorem TasksEvolve.refl (t : Sql.Table String TaskRow) : TasksEvolve t t :=
  fun _ row hrow => ⟨row, hrow, rfl⟩

/-- A write to all rows that keeps their places and completed ones is allowed. -/
theorem ChunksEvolve.mapRows (t : Sql.Table String ChunkRow) {f : String → ChunkRow → ChunkRow}
    (hplace : ∀ id c, (f id c).place = c.place)
    (hdone : ∀ id c, c.status = .completed → (f id c).status = .completed) :
    ChunksEvolve t (t.mapRows f) := by
  intro id c hc
  refine ⟨f id c, ?_, hplace id c, hdone id c⟩
  rw [Sql.Table.find?_mapRows, hc]
  rfl

/-- So is a write to one row. -/
theorem ChunksEvolve.modify (t : Sql.Table String ChunkRow) (chunkId : String)
    {f : ChunkRow → ChunkRow} (hplace : ∀ c, (f c).place = c.place)
    (hdone : ∀ c, c.status = .completed → (f c).status = .completed) :
    ChunksEvolve t (t.modify chunkId f) :=
  .mapRows t (fun id c => by split; exacts [hplace c, rfl])
    fun id c hc => by split; exacts [hdone c hc, hc]

/-- A write to a task that keeps its place is allowed. -/
theorem TasksEvolve.modify (t : Sql.Table String TaskRow) (poolTaskId : String)
    {f : TaskRow → TaskRow} (hplace : ∀ row, (f row).place = row.place) :
    TasksEvolve t (t.modify poolTaskId f) := by
  intro id row hrow
  rw [Sql.Table.find?_modify]
  by_cases hid : id = poolTaskId
  · exact ⟨f row, by rw [if_pos hid, ← hid, hrow]; rfl, hplace row⟩
  · exact ⟨row, by rw [if_neg hid, hrow], rfl⟩

/-- A new row leaves the other rows. -/
theorem find?_of_insertAll? {κ ρ : Type} [DecidableEq κ] {rows : List (κ × ρ)}
    {t t' : Sql.Table κ ρ} (h : t.insertAll? rows = some t') {k : κ} {x : ρ}
    (hx : t.find? k = some x) : t'.find? k = some x := by
  induction rows generalizing t with
  | nil => cases h; exact hx
  | cons r rest ih =>
    unfold Sql.Table.insertAll? at h
    rw [List.foldlM_cons] at h
    obtain ⟨t₁, hinsert, hrest⟩ := Option.bind_eq_some_iff.mp h
    obtain ⟨hnone, rfl⟩ := Sql.Table.insert?_eq_some_iff.mp hinsert
    refine ih hrest ?_
    rw [Sql.Table.find?_upsert_ne _ _ (by rintro rfl; rw [hnone] at hx; cases hx)]
    exact hx

/-- What a transaction keeps of chunks and tasks. -/
structure Evolves (s s' : PoolState) : Prop where
  chunk : ChunksEvolve s.chunks s'.chunks
  task : TasksEvolve s.tasks s'.tasks

/-- A call that writes neither chunks nor tasks lets the pool evolve. -/
theorem Evolves.of_eq {s s' : PoolState} (hchunks : s'.chunks = s.chunks)
    (htasks : s'.tasks = s.tasks) : Evolves s s' :=
  ⟨hchunks ▸ .refl _, htasks ▸ .refl _⟩

/-- A pool may stay as it is. -/
theorem Evolves.refl (s : PoolState) : Evolves s s := .of_eq rfl rfl

/-- Calls that follow each other let it evolve. -/
theorem Evolves.trans {s s' s'' : PoolState} (h : Evolves s s') (h' : Evolves s' s'') :
    Evolves s s'' where
  chunk id c hc := by
    obtain ⟨c₁, hc₁, hplace₁, hdone₁⟩ := h.chunk id c hc
    obtain ⟨c₂, hc₂, hplace₂, hdone₂⟩ := h'.chunk id c₁ hc₁
    exact ⟨c₂, hc₂, hplace₂.trans hplace₁, fun hc => hdone₂ (hdone₁ hc)⟩
  task id t ht := by
    obtain ⟨t₁, ht₁, hplace₁⟩ := h.task id t ht
    obtain ⟨t₂, ht₂, hplace₂⟩ := h'.task id t₁ ht₁
    exact ⟨t₂, ht₂, hplace₂.trans hplace₁⟩

/-! ## Shares -/

/-- A share without the flag that is set when its task is finalized. -/
def ShareRow.work (share : ShareRow) : ShareRow := { share with credited := false }

/-- The work that a share id stands for. -/
def PoolState.work (s : PoolState) (shareId : String) : Option ShareRow :=
  (s.shares.find? shareId).map ShareRow.work

/-- The work of a share is read off the table of shares. -/
theorem work_of_shares {s s' : PoolState} (h : s'.shares = s.shares) (shareId : String) :
    s'.work shareId = s.work shareId := by
  rw [PoolState.work, PoolState.work, h]

/-- The share that a call earns. -/
def SubmitCall.share (call : SubmitCall) (units : ℤ) (now : Instant) : ShareRow :=
  ⟨call.workerId, call.chunk.poolTaskId, call.chunkId, units, false, now⟩

/-- A share is stored under a new id, and nothing else is written but its row. -/
theorem insertShare_eq_ok {s s' : PoolState} {shareId : String} {call : SubmitCall} {units : ℤ}
    {now : Instant} (h : insertShare s shareId call units now = .ok s') :
    s.work shareId = none ∧ s'.chunks = s.chunks ∧ s'.tasks = s.tasks ∧ s'.calls = s.calls ∧
      ∀ id, s'.work id = if id = shareId then some (call.share units now) else s.work id := by
  unfold insertShare at h
  split at h
  · cases h
  · next shares hinsert =>
    cases h
    obtain ⟨hnone, hrows⟩ := Sql.Table.insert?_eq_some_iff.mp hinsert
    have hfind : ∀ id, shares.find? id =
        if id = shareId then some (call.share units now) else s.shares.find? id := by
      intro id
      rw [hrows]
      exact Sql.Table.find?_upsert _ _ _ _
    refine ⟨by rw [PoolState.work, hnone]; rfl, rfl, rfl, rfl, fun id => ?_⟩
    rw [PoolState.work, hfind]
    split <;> rfl

/-! ## Calls -/

/-- What a call has read is still so, as far as it cannot change. -/
structure Fits (s : PoolState) (call : SubmitCall) : Prop where
  chunk : ∃ c, s.chunks.find? call.chunkId = some c ∧ c.place = call.chunk.place ∧
    (call.chunk.status = .completed → c.status = .completed)
  task : ∃ t, s.tasks.find? call.chunk.poolTaskId = some t ∧ t.place = call.task.place

/-- A call goes on fitting its chunk while the pool evolves. -/
theorem Fits.evolve {s s' : PoolState} {call : SubmitCall} (h : Fits s call) (he : Evolves s s') :
    Fits s' call where
  chunk := by
    obtain ⟨c, hc, hplace, hdone⟩ := h.chunk
    obtain ⟨c', hc', hplace', hdone'⟩ := he.chunk _ c hc
    exact ⟨c', hc', hplace'.trans hplace, fun h => hdone' (hdone h)⟩
  task := by
    obtain ⟨t, ht, hplace⟩ := h.task
    obtain ⟨t', ht', hplace'⟩ := he.task _ t ht
    exact ⟨t', ht', hplace'.trans hplace⟩

/-- The event is the first transaction of the call. -/
def Issues (pc : PoolConfig) : PoolEvent → SubmitCall → Prop
  | .submitWork workerId chunkId segment computeMs, call =>
    call.workerId = strip workerId ∧ call.chunkId = strip chunkId ∧
      call.segment = pc.caseMap.upper (strip segment) ∧ call.computeMs = computeMs
  | _, _ => False

/-- A transaction that adds no share; the calls that it adds are `issued`. -/
structure KeepsShares (issued : SubmitCall → Prop) (s s' : PoolState) : Prop where
  evolves : Evolves s s'
  work : ∀ shareId, s'.work shareId = s.work shareId
  calls : ∀ call ∈ s'.calls, call ∈ s.calls ∨ (Fits s call ∧ issued call)

variable {issued : SubmitCall → Prop}

/-- A call that stores no share and no call keeps the shares. -/
theorem KeepsShares.of_evolves {s s' : PoolState} (he : Evolves s s') (hshares : s'.shares = s.shares)
    (hcalls : s'.calls = s.calls) : KeepsShares issued s s' :=
  ⟨he, work_of_shares hshares, fun _ hcall => .inl (hcalls ▸ hcall)⟩

/-- A pool that stays keeps the shares. -/
theorem KeepsShares.refl (s : PoolState) : KeepsShares issued s s := .of_evolves (.refl s) rfl rfl

/-- The registration of a worker keeps the shares. -/
theorem registerWorker_keeps {pc : PoolConfig} {s s' : PoolState} {workerId : String}
    {name payoutAddress : Option String} {now : Instant}
    (h : registerWorker pc s workerId name payoutAddress now = .ok s') :
    KeepsShares issued s s' := by
  unfold registerWorker at h
  dsimp only at h
  split at h
  · cases h
  · obtain ⟨payout, -, h⟩ := bind_eq_ok.mp h
    split at h
    · cases h
    · cases h
      exact .of_evolves (.of_eq rfl rfl) rfl rfl

/-- An assignment leaves a chunk in its place. -/
@[simp] theorem place_assignTo (workerId : String) (now : Instant) (chunk : ChunkRow) :
    (chunk.assignTo workerId now).place = chunk.place := by
  unfold ChunkRow.assignTo
  split <;> rfl

/-- It leaves a completed chunk completed. -/
theorem status_assignTo {workerId : String} {now : Instant} {chunk : ChunkRow}
    (h : chunk.status = .completed) : (chunk.assignTo workerId now).status = .completed := by
  rw [ChunkRow.assignTo, if_pos h, h]

/-- A claim of work keeps the shares. -/
theorem claimWork_keeps {pc : PoolConfig} {s s' : PoolState} {workerId : String} {choice : ℕ}
    {now : Instant} (h : claimWork pc s workerId choice now = .ok s') : KeepsShares issued s s' := by
  unfold claimWork at h
  dsimp only at h
  split at h
  · cases h
  · obtain ⟨s₁, hs₁, h⟩ := bind_eq_ok.mp h
    -- the worker's row is the only one written before the chunk
    have hsame : s₁.chunks = s.chunks ∧ s₁.tasks = s.tasks ∧ s₁.shares = s.shares ∧
        s₁.calls = s.calls := by
      unfold registerClaimant at hs₁
      split at hs₁ <;> split at hs₁ <;> cases hs₁ <;> exact ⟨rfl, rfl, rfl, rfl⟩
    obtain ⟨hchunks, htasks, hshares, hcalls⟩ := hsame
    have hseen : Evolves s (s₁.seen (strip workerId) now) := .of_eq hchunks htasks
    split at h
    · cases h
      exact .of_evolves hseen hshares hcalls
    · cases h
      exact .of_evolves (hseen.trans ⟨.modify _ _ (place_assignTo _ _) fun _ => status_assignTo,
        .refl _⟩) hshares hcalls

/-- The start of a submission keeps them, and issues its call. -/
theorem beginSubmit_keeps {pc : PoolConfig} {s s' : PoolState} {workerId chunkId segment : String}
    {computeMs : ℤ} (h : beginSubmit pc s workerId chunkId segment computeMs = .ok s') :
    KeepsShares (Issues pc (.submitWork workerId chunkId segment computeMs)) s s' := by
  unfold beginSubmit at h
  dsimp only at h
  split at h
  · cases h
  · next chunk hchunk =>
    split at h
    · cases h
    · next task htask =>
      cases h
      refine ⟨.of_eq rfl rfl, work_of_shares rfl, fun call hcall => ?_⟩
      rcases List.mem_append.mp hcall with hold | hnew
      · exact .inl hold
      · rw [List.mem_singleton.mp hnew]
        exact .inr ⟨⟨⟨chunk, hchunk, rfl, fun h => h⟩, ⟨task, htask, rfl⟩⟩, rfl, rfl, rfl, rfl⟩

/-- The expiry of assignments keeps them. -/
theorem expireStaleAssignments_keeps (pc : PoolConfig) (s : PoolState) (now : Instant) :
    KeepsShares issued s (expireStaleAssignments pc s now) := by
  refine .of_evolves ⟨?_, .refl _⟩ rfl rfl
  apply ChunksEvolve.mapRows
  · intro _ c
    split <;> rfl
  · intro _ c hc
    rw [if_neg (by simp [hc])]
    exact hc

/-- A refused segment keeps them. -/
theorem rejectSegment_keeps (s : PoolState) (call : SubmitCall) :
    KeepsShares issued s (rejectSegment s call) := by
  refine .of_evolves ⟨?_, .refl _⟩ rfl rfl
  apply ChunksEvolve.modify
  · intro c
    split <;> rfl
  · intro c hc
    rw [if_pos hc]
    exact hc

/-- A new task of the pool keeps them. -/
theorem ensureActiveTask_keeps {pc : PoolConfig} {s s' : PoolState} {task : MainnetTask}
    {poolTaskId : String} {chunkIds : ℕ → String} {now : Instant}
    (h : ensureActiveTask pc s task poolTaskId chunkIds now = .ok s') : KeepsShares issued s s' := by
  unfold ensureActiveTask at h
  dsimp only at h
  split at h
  · cases h
    exact .refl s
  · obtain ⟨chunks, -, h⟩ := bind_eq_ok.mp h
    split at h
    · cases h
      exact .refl s
    · split at h
      · cases h
        exact .refl s
      · next tasks htasks =>
        split at h
        · cases h
        · next rows hrows =>
          cases h
          obtain ⟨hnone, rfl⟩ := Sql.Table.insert?_eq_some_iff.mp htasks
          refine .of_evolves ⟨fun id c hc => ?_, fun id t ht => ⟨t, ?_, rfl⟩⟩ rfl rfl
          · exact ⟨c, find?_of_insertAll? hrows hc, rfl, fun h => h⟩
          · rw [Sql.Table.find?_upsert_ne _ _ (by rintro rfl; rw [hnone] at ht; cases ht)]
            exact ht

/-- The start of a finalization keeps them. -/
theorem beginFinalize_keeps (s : PoolState) (poolTaskId : String) :
    KeepsShares issued s (beginFinalize s poolTaskId) := by
  unfold beginFinalize
  split
  · split
    · refine .of_evolves ⟨.refl _, ?_⟩ rfl rfl
      apply TasksEvolve.modify
      intro _
      rfl
    · exact .refl s
  · exact .refl s

/-- So does its end. -/
theorem endFinalize_keeps (s : PoolState) (poolTaskId : String) (result : FinalizeResult)
    (now : Instant) : KeepsShares issued s (endFinalize s poolTaskId result now) := by
  unfold endFinalize
  split
  · refine ⟨⟨.refl _, ?_⟩, fun shareId => ?_, fun _ hcall => .inl hcall⟩
    · apply TasksEvolve.modify
      intro _
      rfl
    · apply Sql.Table.map_find?_mapRows
      intro _ share
      split <;> rfl
  · exact .refl s

/-! ## Where shares come from -/

/-- What is true of a completed submission that passes the verification. -/
theorem expected_of_complete {pc : PoolConfig} (hverify : pc.verifyChunks = true)
    {call : SubmitCall} (h : submitPlan pc call = .complete) :
    call.expected pc = some call.segment := by
  unfold submitPlan at h
  rw [hverify] at h
  simp only [if_true] at h
  split at h
  · cases h
  · split at h
    · split at h
      · split at h <;> cases h
      · cases h
    · split at h
      · cases h
      · split at h
        · cases h
        · next expected hexpected =>
          split at h
          · next heq => rw [hexpected, heq]
          · cases h

/-- A late credit is only planned for a race. -/
theorem race_of_creditLate {pc : PoolConfig} {call : SubmitCall} {units : ℤ}
    (h : submitPlan pc call = .creditLate units) :
    isFullTaskRaceRow pc call.chunk call.task = true := by
  unfold submitPlan at h
  split at h
  · cases h
  · split at h
    · split at h
      · next hrace =>
        rw [Bool.and_eq_true] at hrace
        exact hrace.1
      · cases h
    · split at h
      · cases h
      · split at h
        · split at h
          · cases h
          · split at h <;> cases h
        · cases h

/-- A transaction that adds the share of a call: it completes the chunk, or it credits a late
submission. -/
structure Earns (pc : PoolConfig) (s s' : PoolState) (call : SubmitCall) (shareId : String)
    (units : ℤ) (now : Instant) : Prop where
  evolves : Evolves s s'
  calls : ∀ c ∈ s'.calls, c ∈ s.calls
  fresh : s.work shareId = none
  work : ∀ id, s'.work id = if id = shareId then some (call.share units now) else s.work id
  how : (submitPlan pc call = .complete ∧ units = call.chunk.length ∧
      chunkOpen s call.chunkId = true ∧
      ∀ c, s'.chunks.find? call.chunkId = some c → c.status = .completed) ∨
    (submitPlan pc call = .creditLate units ∧ raceOpen s call.chunkId = true ∧
      hasShare s call = false)

/-- A submission that completes its chunk keeps the shares, or earns one for the call. -/
theorem completeChunk_earns {pc : PoolConfig} {s : PoolState} {call : SubmitCall}
    {shareId : String} {now : Instant} {r : PoolState × SubmitResult}
    (hplan : submitPlan pc call = .complete) (h : completeChunk s call shareId now = .ok r) :
    KeepsShares issued s r.1 ∨ Earns pc s r.1 call shareId call.chunk.length now := by
  unfold completeChunk at h
  split at h
  · cases h
    exact .inl (.refl s)
  · next hopen =>
    split at h
    · cases h
    · obtain ⟨s₁, hinsert, h⟩ := bind_eq_ok.mp h
      cases h
      obtain ⟨hfresh, hchunks, htasks, hcalls, hwork⟩ := insertShare_eq_ok hinsert
      refine .inr ⟨⟨?_, ?_⟩, ?_, hfresh, hwork,
        .inl ⟨hplan, rfl, by simpa using hopen, fun c hc => ?_⟩⟩
      · change ChunksEvolve s.chunks s₁.chunks
        rw [hchunks]
        apply ChunksEvolve.modify
        · intro _
          rfl
        · intro _ _
          rfl
      · change TasksEvolve s.tasks s₁.tasks
        rw [htasks]
        exact .refl _
      · intro c hc
        exact hcalls ▸ hc
      · change s₁.chunks.find? call.chunkId = some c at hc
        rw [hchunks, Sql.Table.find?_modify, if_pos rfl] at hc
        obtain ⟨_, -, rfl⟩ := Option.map_eq_some_iff.mp hc
        rfl

/-- So does a late one of a race. -/
theorem creditLateShare_earns {pc : PoolConfig} {s : PoolState} {call : SubmitCall} {units : ℤ}
    {shareId : String} {now : Instant} {r : PoolState × SubmitResult}
    (hplan : submitPlan pc call = .creditLate units)
    (h : creditLateShare s call units shareId now = .ok r) :
    KeepsShares issued s r.1 ∨ Earns pc s r.1 call shareId units now := by
  unfold creditLateShare at h
  split at h
  · cases h
    exact .inl (.refl s)
  · next hopen =>
    split at h
    · cases h
      exact .inl (.refl s)
    · next hshare =>
      obtain ⟨s₁, hinsert, h⟩ := bind_eq_ok.mp h
      cases h
      obtain ⟨hfresh, hchunks, htasks, hcalls, hwork⟩ := insertShare_eq_ok hinsert
      exact .inr ⟨.of_eq hchunks htasks, fun c hc => hcalls ▸ hc, hfresh, hwork,
        .inr ⟨hplan, by simpa using hopen, by simpa using hshare⟩⟩

/-- The end of a submission keeps the shares, or earns one for the call. -/
theorem resumeSubmit_cases {pc : PoolConfig} {s : PoolState} {call : SubmitCall}
    {shareId : String} {now : Instant} {r : PoolState × SubmitResult}
    (h : resumeSubmit pc s call shareId now = .ok r) :
    KeepsShares issued s r.1 ∨ ∃ units, Earns pc s r.1 call shareId units now := by
  unfold resumeSubmit at h
  split at h
  · cases h
  · cases h
    exact .inl (.refl s)
  · cases h
    exact .inl (rejectSegment_keeps s call)
  · next hplan => exact (completeChunk_earns hplan h).imp_right fun h => ⟨_, h⟩
  · next units hplan => exact (creditLateShare_earns hplan h).imp_right fun h => ⟨units, h⟩

/-- A call that raises is rolled back. -/
theorem attempt_keeps {x : Except PoolError PoolState} {s : PoolState}
    (h : ∀ s', x = .ok s' → KeepsShares issued s s') : KeepsShares issued s (attempt x s) :=
  attempt_of (.refl s) h

/-- A transaction adds no share, or it is the second one of a call, and adds the call's share. -/
theorem step_shares (pc : PoolConfig) (s : PoolState) (event : PoolEvent) :
    KeepsShares (Issues pc event) s (step pc s event) ∨ ∃ index shareId now call units,
      event = .resumeSubmit index shareId now ∧ s.calls[index]? = some call ∧
        Earns pc s (step pc s event) call shareId units now := by
  cases event with
  | registerWorker workerId name payoutAddress now =>
    exact .inl (attempt_keeps fun _ => registerWorker_keeps)
  | claimWork workerId choice now => exact .inl (attempt_keeps fun _ => claimWork_keeps)
  | submitWork workerId chunkId segment computeMs =>
    exact .inl (attempt_keeps fun _ => beginSubmit_keeps)
  | expireStaleAssignments now => exact .inl (expireStaleAssignments_keeps pc s now)
  | ensureActiveTask task poolTaskId chunkIds now =>
    exact .inl (attempt_keeps fun _ => ensureActiveTask_keeps)
  | beginFinalize poolTaskId => exact .inl (beginFinalize_keeps s poolTaskId)
  | endFinalize poolTaskId result now => exact .inl (endFinalize_keeps s poolTaskId result now)
  | resumeSubmit index shareId now =>
    cases hcall : s.calls[index]? with
    | none =>
      left
      rw [step, resumeCall, hcall]
      exact .refl s
    | some call =>
      -- the call is taken off the list first
      let s₁ : PoolState := { s with calls := s.calls.eraseIdx index }
      have hstart : KeepsShares (Issues pc (.resumeSubmit index shareId now)) s s₁ :=
        ⟨.of_eq rfl rfl, work_of_shares rfl, fun _ h => .inl (List.mem_of_mem_eraseIdx h)⟩
      have hstep : step pc s (.resumeSubmit index shareId now) =
          attempt ((resumeSubmit pc s₁ call shareId now).map Prod.fst) s₁ := by
        rw [step, resumeCall, hcall]
      rw [hstep]
      cases hresult : resumeSubmit pc s₁ call shareId now with
      | error e => exact .inl hstart
      | ok r =>
        have hcases : KeepsShares (Issues pc (.resumeSubmit index shareId now)) s₁ r.1 ∨
            ∃ units, Earns pc s₁ r.1 call shareId units now := resumeSubmit_cases hresult
        rcases hcases with hkeeps | ⟨units, hearns⟩
        · left
          refine ⟨⟨hkeeps.evolves.chunk, hkeeps.evolves.task⟩, hkeeps.work, fun c hc => ?_⟩
          rcases hkeeps.calls c hc with hmem | hfits
          · exact .inl (List.mem_of_mem_eraseIdx hmem)
          · exact .inr ⟨⟨hfits.1.chunk, hfits.1.task⟩, hfits.2⟩
        · right
          exact ⟨index, shareId, now, call, units, rfl, hcall, ⟨hearns.evolves.chunk,
            hearns.evolves.task⟩, fun c hc => List.mem_of_mem_eraseIdx (hearns.calls c hc),
            hearns.fresh, hearns.work, hearns.how⟩

/-! ## The invariant -/

/-- A chunk is raced for as a whole task or not, at every time alike. -/
theorem isFullTaskRaceRow_congr {pc : PoolConfig} {chunk chunk' : ChunkRow} {task task' : TaskRow}
    (hchunk : chunk'.place = chunk.place) (htask : task'.place = task.place) :
    isFullTaskRaceRow pc chunk' task' = isFullTaskRaceRow pc chunk task := by
  simp only [ChunkRow.place, TaskRow.place, Prod.mk.injEq] at hchunk htask
  simp only [isFullTaskRaceRow, hchunk, htask]

/-- The length of a chunk is that of its place. -/
theorem length_congr {chunk chunk' : ChunkRow} (h : chunk'.place = chunk.place) :
    chunk'.length = chunk.length := by
  simp only [ChunkRow.place, Prod.mk.injEq] at h
  simp only [ChunkRow.length, h]

/-- All workers race for the chunk. -/
def Raced (pc : PoolConfig) (s : PoolState) (chunkId : String) : Prop :=
  ∃ chunk task, s.chunks.find? chunkId = some chunk ∧
    s.tasks.find? chunk.poolTaskId = some task ∧ isFullTaskRaceRow pc chunk task = true

/-- The share is of a completed chunk, and of all its units where there is no race. -/
structure Backed (pc : PoolConfig) (s : PoolState) (share : ShareRow) : Prop where
  chunk : ∃ c, s.chunks.find? share.chunkId = some c ∧ c.status = .completed ∧
    c.poolTaskId = share.poolTaskId ∧ ∃ t, s.tasks.find? c.poolTaskId = some t ∧
      (isFullTaskRaceRow pc c t = false → share.units = c.length)

/-- What holds between the transactions of a run. -/
structure CreditInvariant (pc : PoolConfig) (s : PoolState) : Prop where
  calls : ∀ call ∈ s.calls, Fits s call
  backed : ∀ id share, s.work id = some share → Backed pc s share
  oncePerWorker : ∀ id id' share share', s.work id = some share → s.work id' = some share' →
    share.chunkId = share'.chunkId → share.workerId = share'.workerId → id = id'
  once : ∀ id id' share share', s.work id = some share → s.work id' = some share' →
    share.chunkId = share'.chunkId → ¬Raced pc s share.chunkId → id = id'

/-- A share stays backed while the pool evolves. -/
theorem Backed.evolve {pc : PoolConfig} {s s' : PoolState} {share : ShareRow}
    (h : Backed pc s share) (he : Evolves s s') : Backed pc s' share := by
  obtain ⟨c, hc, hdone, htask, t, ht, hunits⟩ := h.chunk
  obtain ⟨c', hc', hplace, hdone'⟩ := he.chunk _ c hc
  have hsame : c'.poolTaskId = c.poolTaskId := congrArg Prod.fst hplace
  obtain ⟨t', ht', htplace⟩ := he.task _ t ht
  refine ⟨c', hc', hdone' hdone, hsame.trans htask, t', hsame ▸ ht', fun hrace => ?_⟩
  rw [isFullTaskRaceRow_congr hplace htplace] at hrace
  rw [hunits hrace, length_congr hplace]

/-- A race stays one. -/
theorem Raced.evolve {pc : PoolConfig} {s s' : PoolState} {chunkId : String}
    (h : Raced pc s chunkId) (he : Evolves s s') : Raced pc s' chunkId := by
  obtain ⟨c, t, hc, ht, hrace⟩ := h
  obtain ⟨c', hc', hplace, -⟩ := he.chunk _ c hc
  obtain ⟨t', ht', htplace⟩ := he.task _ t ht
  have hsame : c'.poolTaskId = c.poolTaskId := congrArg Prod.fst hplace
  exact ⟨c', t', hc', hsame ▸ ht', (isFullTaskRaceRow_congr hplace htplace).trans hrace⟩

/-- It holds of an empty pool. -/
theorem CreditInvariant.empty (pc : PoolConfig) : CreditInvariant pc .empty where
  calls _ h := nomatch h
  backed _ _ h := nomatch h
  oncePerWorker _ _ _ _ h := nomatch h
  once _ _ _ _ h := nomatch h

/-- Calls that keep the shares preserve it. -/
theorem CreditInvariant.keep {pc : PoolConfig} {s s' : PoolState} (h : CreditInvariant pc s)
    (hk : KeepsShares issued s s') : CreditInvariant pc s' where
  calls call hcall := (hk.calls call hcall).elim (fun hmem => (h.calls call hmem).evolve hk.evolves)
    fun hfits => hfits.1.evolve hk.evolves
  backed id share hid := (h.backed id share (hk.work id ▸ hid)).evolve hk.evolves
  oncePerWorker id id' share share' hid hid' :=
    h.oncePerWorker id id' share share' (hk.work id ▸ hid) (hk.work id' ▸ hid')
  once id id' share share' hid hid' hchunk hrace :=
    h.once id id' share share' (hk.work id ▸ hid) (hk.work id' ▸ hid') hchunk
      fun hraced => hrace (hraced.evolve hk.evolves)

/-- No share of a chunk that is open. -/
theorem CreditInvariant.no_share_of_open {pc : PoolConfig} {s : PoolState}
    (h : CreditInvariant pc s) {chunkId : String} (hopen : chunkOpen s chunkId = true) {id : String}
    {share : ShareRow} (hid : s.work id = some share) : share.chunkId ≠ chunkId := by
  rintro rfl
  obtain ⟨c, hc, hdone, -⟩ := (h.backed id share hid).chunk
  rw [chunkOpen, hc] at hopen
  simp [hdone] at hopen

/-- The worker of a call has no share of its chunk, if the code finds none. -/
theorem CreditInvariant.no_share_of_worker {pc : PoolConfig} {s : PoolState}
    (h : CreditInvariant pc s) {call : SubmitCall} (hfits : Fits s call)
    (hnone : hasShare s call = false) {id : String} {share : ShareRow}
    (hid : s.work id = some share) (hchunk : share.chunkId = call.chunkId) :
    share.workerId ≠ call.workerId := by
  intro hworker
  obtain ⟨c, hc, -, htask, -⟩ := (h.backed id share hid).chunk
  obtain ⟨c', hc', hplace, -⟩ := hfits.chunk
  rw [hchunk, hc'] at hc
  cases hc
  have hsame : share.poolTaskId = call.chunk.poolTaskId :=
    htask.symm.trans (congrArg Prod.fst hplace)
  obtain ⟨row, hrow, rfl⟩ := Option.map_eq_some_iff.mp hid
  have hmem := Sql.Table.find?_eq_some_iff.mp hrow
  refine Bool.eq_false_iff.mp hnone (List.any_eq_true.mpr ⟨_, hmem, ?_⟩)
  simpa [ShareRow.work] using ⟨⟨hsame, hchunk⟩, hworker⟩

/-- The new share is backed. -/
theorem Earns.backed {pc : PoolConfig} {s s' : PoolState} {call : SubmitCall} {shareId : String}
    {units : ℤ} {now : Instant} (h : Earns pc s s' call shareId units now) (hfits : Fits s call) :
    Backed pc s' (call.share units now) := by
  obtain ⟨c, hc, hplace, hdone⟩ := (hfits.evolve h.evolves).chunk
  obtain ⟨t, ht, htplace⟩ := (hfits.evolve h.evolves).task
  have hsame : c.poolTaskId = call.chunk.poolTaskId := congrArg Prod.fst hplace
  rcases h.how with ⟨-, hunits, -, hcompleted⟩ | ⟨hplan, hopen, -⟩
  · exact ⟨c, hc, hcompleted c hc, hsame, t, hsame ▸ ht, fun _ => by
      rw [length_congr hplace]
      exact hunits⟩
  · refine ⟨c, hc, ?_, hsame, t, hsame ▸ ht, fun hrace => ?_⟩
    · obtain ⟨c₀, hc₀, -, -⟩ := hfits.chunk
      rw [raceOpen, hc₀] at hopen
      have hstatus : c₀.status = .completed := by
        simp only [Option.any_some, Bool.and_eq_true, decide_eq_true_eq] at hopen
        exact hopen.1
      obtain ⟨c₁, hc₁, -, hkept⟩ := h.evolves.chunk _ c₀ hc₀
      rw [hc] at hc₁
      cases hc₁
      exact hkept hstatus
    · rw [isFullTaskRaceRow_congr hplace htplace, race_of_creditLate hplan] at hrace
      cases hrace

/-- A share that is earned preserves it. -/
theorem CreditInvariant.earn {pc : PoolConfig} {s s' : PoolState} {call : SubmitCall}
    {shareId : String} {units : ℤ} {now : Instant} (h : CreditInvariant pc s)
    (he : Earns pc s s' call shareId units now) (hcall : call ∈ s.calls) :
    CreditInvariant pc s' := by
  have hfits := h.calls call hcall
  -- a share of the new state is the new one or an old one
  have hcases : ∀ id share, s'.work id = some share →
      (id = shareId ∧ share = call.share units now) ∨ s.work id = some share := by
    intro id share hid
    rw [he.work] at hid
    split at hid
    · next heq => exact .inl ⟨heq, by cases hid; rfl⟩
    · exact .inr hid
  -- an old share of the chunk is of another worker, and there is none outside a race
  have hother : ∀ id share, s.work id = some share → share.chunkId = call.chunkId →
      share.workerId ≠ call.workerId ∧ Raced pc s' call.chunkId := by
    intro id share hid hchunk
    rcases he.how with ⟨-, -, hopen, -⟩ | ⟨hplan, -, hnone⟩
    · exact absurd hchunk (h.no_share_of_open hopen hid)
    · refine ⟨h.no_share_of_worker hfits hnone hid hchunk, ?_⟩
      obtain ⟨c, hc, hplace, -⟩ := (hfits.evolve he.evolves).chunk
      obtain ⟨t, ht, htplace⟩ := (hfits.evolve he.evolves).task
      have hsame : c.poolTaskId = call.chunk.poolTaskId := congrArg Prod.fst hplace
      exact ⟨c, t, hc, hsame ▸ ht,
        (isFullTaskRaceRow_congr hplace htplace).trans (race_of_creditLate hplan)⟩
  refine ⟨fun c hc => (h.calls c (he.calls c hc)).evolve he.evolves, fun id share hid => ?_,
    fun id id' share share' hid hid' hchunk hworker => ?_,
    fun id id' share share' hid hid' hchunk hrace => ?_⟩
  · rcases hcases id share hid with ⟨-, rfl⟩ | hold
    · exact he.backed hfits
    · exact (h.backed id share hold).evolve he.evolves
  · rcases hcases id share hid with ⟨rfl, rfl⟩ | hold <;>
      rcases hcases id' share' hid' with ⟨rfl, rfl⟩ | hold'
    · rfl
    · exact absurd hworker.symm (hother id' share' hold' hchunk.symm).1
    · exact absurd hworker (hother id share hold hchunk).1
    · exact h.oncePerWorker id id' share share' hold hold' hchunk hworker
  · rcases hcases id share hid with ⟨rfl, rfl⟩ | hold <;>
      rcases hcases id' share' hid' with ⟨rfl, rfl⟩ | hold'
    · rfl
    · exact absurd (hother id' share' hold' hchunk.symm).2 hrace
    · exact absurd (hchunk ▸ (hother id share hold hchunk).2) hrace
    · exact h.once id id' share share' hold hold' hchunk fun hraced => hrace (hraced.evolve he.evolves)

/-! ## Runs -/

/-- The state that a run of the pool reaches. -/
def run (pc : PoolConfig) (events : List PoolEvent) : PoolState :=
  events.foldl (step pc) .empty

/-- The digits of a chunk. -/
def chunkDigits (pc : PoolConfig) (s : PoolState) (chunkId : String) : Option String := do
  let chunk ← s.chunks.find? chunkId
  let task ← s.tasks.find? chunk.poolTaskId
  (pc.calculatePiSegment chunk.rangeStart chunk.rangeEnd task.algorithm).map pc.caseMap.upper

/-- A call of `submit_work` of the share's worker created the share: it was issued before, and its
segment has the digits of the chunk. -/
structure CreatedBy (pc : PoolConfig) (events : List PoolEvent) (shareId : String)
    (share : ShareRow) (before : List PoolEvent) (index : ℕ) (now : Instant) (call : SubmitCall) :
    Prop where
  splits : ∃ after, events = before ++ .resumeSubmit index shareId now :: after
  open' : (run pc before).calls[index]? = some call
  issued : ∃ event ∈ before, Issues pc event call
  fresh : (run pc before).work shareId = none
  created : ((run pc (before ++ [.resumeSubmit index shareId now])).work shareId).isSome
  worker : call.workerId = share.workerId
  chunk : call.chunkId = share.chunkId
  digits : chunkDigits pc (run pc events) share.chunkId = some call.segment

/-- Every share of a run stands for verified work, and no work counts twice. -/
structure CreditVerified (pc : PoolConfig) (events : List PoolEvent) : Prop where
  created : ∀ shareId share, (run pc events).shares.find? shareId = some share →
    ∃ before index now call, CreatedBy pc events shareId share before index now call
  oncePerWorker : ∀ id id' share share', (run pc events).shares.find? id = some share →
    (run pc events).shares.find? id' = some share' → share.chunkId = share'.chunkId →
      share.workerId = share'.workerId → id = id'
  once : ∀ id id' share share', (run pc events).shares.find? id = some share →
    (run pc events).shares.find? id' = some share' → share.chunkId = share'.chunkId →
      ¬Raced pc (run pc events) share.chunkId → id = id'
  units : ∀ id share chunk, (run pc events).shares.find? id = some share →
    (run pc events).chunks.find? share.chunkId = some chunk →
      ¬Raced pc (run pc events) share.chunkId → share.units = chunk.length

/-- The late submission is about to be credited, and its digits are not those of the chunk. -/
def lateGuess (pc : PoolConfig) (s : PoolState) (call : SubmitCall) : Bool :=
  match submitPlan pc call with
  | .creditLate _ =>
    raceOpen s call.chunkId && !hasShare s call && call.expected pc ≠ some call.segment
  | _ => false

/-- No late submission to a race is a guess. -/
def NoLateGuess (pc : PoolConfig) (s : PoolState) : PoolEvent → Prop
  | .resumeSubmit index _ _ => (s.calls[index]?).any (lateGuess pc s) = false
  | _ => True

instance (pc : PoolConfig) (s : PoolState) : ∀ event, Decidable (NoLateGuess pc s event)
  | .resumeSubmit index _ _ =>
    inferInstanceAs (Decidable ((s.calls[index]?).any (lateGuess pc s) = false))
  | .registerWorker .. | .claimWork .. | .submitWork .. | .expireStaleAssignments ..
  | .ensureActiveTask .. | .beginFinalize .. | .endFinalize .. => .isTrue trivial

/-- The digits of a chunk are those that its call expects. -/
theorem chunkDigits_of_fits {pc : PoolConfig} {s : PoolState} {call : SubmitCall}
    (h : Fits s call) : chunkDigits pc s call.chunkId = call.expected pc := by
  obtain ⟨c, hc, hplace, -⟩ := h.chunk
  obtain ⟨t, ht, htplace⟩ := h.task
  have hsame : c.poolTaskId = call.chunk.poolTaskId := congrArg Prod.fst hplace
  simp only [ChunkRow.place, TaskRow.place, Prod.mk.injEq] at hplace htplace
  rw [chunkDigits, hc, SubmitCall.expected]
  simp only [Option.bind_eq_bind, Option.bind_some]
  rw [hsame, ht]
  simp only [Option.bind_some, hplace, htplace]

/-- They stay the same while the pool evolves. -/
theorem chunkDigits_evolve {pc : PoolConfig} {s s' : PoolState} (he : Evolves s s')
    {chunkId : String} {digits : String} (h : chunkDigits pc s chunkId = some digits) :
    chunkDigits pc s' chunkId = some digits := by
  rw [chunkDigits] at h ⊢
  obtain ⟨c, hc, h⟩ := Option.bind_eq_some_iff.mp h
  obtain ⟨t, ht, h⟩ := Option.bind_eq_some_iff.mp h
  obtain ⟨c', hc', hplace, -⟩ := he.chunk _ c hc
  obtain ⟨t', ht', htplace⟩ := he.task _ t ht
  have hsame : c'.poolTaskId = c.poolTaskId := congrArg Prod.fst hplace
  simp only [ChunkRow.place, TaskRow.place, Prod.mk.injEq] at hplace htplace
  rw [hc']
  simp only [Option.bind_eq_bind, Option.bind_some]
  rw [hsame, ht']
  simpa only [Option.bind_some, hplace, htplace] using h

/-- Every event lets the pool evolve. -/
theorem Evolves.step (pc : PoolConfig) (s : PoolState) (event : PoolEvent) :
    Evolves s (step pc s event) := by
  rcases step_shares pc s event with hkeeps | ⟨_, _, _, _, _, -, -, hearns⟩
  · exact hkeeps.evolves
  · exact hearns.evolves

/-- What is known of a run and its last state. -/
structure History (pc : PoolConfig) (events : List PoolEvent) (s : PoolState) : Prop where
  invariant : CreditInvariant pc s
  issued : ∀ call ∈ s.calls, ∃ event ∈ events, Issues pc event call
  created : ∀ shareId share, s.work shareId = some share →
    ∃ before index now call, CreatedBy pc events shareId share before index now call

/-- A longer run is one step more. -/
theorem run_concat (pc : PoolConfig) (events : List PoolEvent) (event : PoolEvent) :
    run pc (events ++ [event]) = step pc (run pc events) event := by
  rw [run, run, List.foldl_append]
  rfl

/-- A created share stays one when the run goes on. -/
theorem CreatedBy.concat {pc : PoolConfig} {events : List PoolEvent} {shareId : String}
    {share : ShareRow} {before : List PoolEvent} {index : ℕ} {now : Instant} {call : SubmitCall}
    (h : CreatedBy pc events shareId share before index now call) (event : PoolEvent) :
    CreatedBy pc (events ++ [event]) shareId share before index now call := by
  obtain ⟨after, hafter⟩ := h.splits
  refine { h with splits := ⟨after ++ [event], ?_⟩, digits := ?_ }
  · rw [hafter, List.append_assoc]
    rfl
  · rw [run_concat]
    exact chunkDigits_evolve (.step pc _ event) h.digits

/-- The digits of a call that adds a share are those of its chunk. -/
theorem Earns.expected {pc : PoolConfig} (hverify : pc.verifyChunks = true) {s s' : PoolState}
    {call : SubmitCall} {index : ℕ} {shareId : String} {units : ℤ} {now : Instant}
    (h : Earns pc s s' call shareId units now) (hcall : s.calls[index]? = some call)
    (hguess : NoLateGuess pc s (.resumeSubmit index shareId now)) :
    call.expected pc = some call.segment := by
  rcases h.how with ⟨hplan, -, -, -⟩ | ⟨hplan, hopen, hnone⟩
  · exact expected_of_complete hverify hplan
  · rw [NoLateGuess, hcall, Option.any_some, lateGuess, hplan] at hguess
    simpa [hopen, hnone] using hguess

/-- One more event keeps the history. -/
theorem History.step {pc : PoolConfig} (hverify : pc.verifyChunks = true) {events : List PoolEvent}
    {event : PoolEvent} (h : History pc events (run pc events))
    (hguess : NoLateGuess pc (run pc events) event) :
    History pc (events ++ [event]) (step pc (run pc events) event) := by
  have hissued : ∀ call ∈ (run pc events).calls, ∃ e ∈ events ++ [event], Issues pc e call := by
    intro call hcall
    obtain ⟨e, he, hissues⟩ := h.issued call hcall
    exact ⟨e, List.mem_append_left _ he, hissues⟩
  rcases step_shares pc (run pc events) event with hkeeps | ⟨index, shareId, now, call, units, rfl,
    hcall, hearns⟩
  · refine ⟨h.invariant.keep hkeeps, fun call hcall => ?_, fun shareId share hid => ?_⟩
    · rcases hkeeps.calls call hcall with hold | ⟨-, hnew⟩
      · exact hissued call hold
      · exact ⟨event, List.mem_append_right _ (List.mem_singleton_self _), hnew⟩
    · obtain ⟨before, index, now, call, hcreated⟩ := h.created shareId share (hkeeps.work _ ▸ hid)
      exact ⟨before, index, now, call, hcreated.concat event⟩
  · have hmem : call ∈ (run pc events).calls := List.mem_of_getElem? hcall
    refine ⟨h.invariant.earn hearns hmem, fun c hc => hissued c (hearns.calls c hc),
      fun id share hid => ?_⟩
    by_cases hnew : id = shareId
    · subst hnew
      rw [hearns.work, if_pos rfl] at hid
      cases hid
      refine ⟨events, index, now, call, ⟨[], rfl⟩, hcall, h.issued call hmem, hearns.fresh, ?_, rfl,
        rfl, ?_⟩
      · rw [run_concat, hearns.work, if_pos rfl]
        rfl
      · rw [run_concat]
        exact (chunkDigits_of_fits ((h.invariant.calls call hmem).evolve hearns.evolves)).trans
          (hearns.expected hverify hcall hguess)
    · rw [hearns.work, if_neg hnew] at hid
      obtain ⟨before, i, t, c, hcreated⟩ := h.created id share hid
      exact ⟨before, i, t, c, hcreated.concat _⟩

/-- Every run without a late guess has its history. -/
theorem history_of_run {pc : PoolConfig} (hverify : pc.verifyChunks = true)
    {events : List PoolEvent} (hguess : EachStep (step pc) (NoLateGuess pc) .empty events) :
    History pc events (run pc events) := by
  have hstart : History pc [] .empty :=
    ⟨.empty pc, fun _ h => (nomatch h), fun _ _ h => nomatch h⟩
  exact history_of_eachStep hstart (fun _ _ => History.step hverify) events hguess

/-- A row of the table of shares is the work of its share. -/
theorem work_of_find? {s : PoolState} {shareId : String} {share : ShareRow}
    (h : s.shares.find? shareId = some share) : s.work shareId = some share.work := by
  rw [PoolState.work, h]
  rfl

/-- **Pool credit needs verified work**, in every run where no late submission to a race is a
guess. -/
theorem shares_verified_of_run (pc : PoolConfig) (hverify : pc.verifyChunks = true)
    (events : List PoolEvent) (hguess : EachStep (step pc) (NoLateGuess pc) .empty events) :
    CreditVerified pc events := by
  have h := history_of_run hverify hguess
  refine ⟨fun shareId share hid => ?_, fun id id' share share' hid hid' hchunk hworker => ?_,
    fun id id' share share' hid hid' hchunk hrace => ?_, fun id share chunk hid hchunk hrace => ?_⟩
  · obtain ⟨before, index, now, call, hcreated⟩ := h.created shareId _ (work_of_find? hid)
    exact ⟨before, index, now, call, { hcreated with }⟩
  · exact h.invariant.oncePerWorker id id' share.work share'.work (work_of_find? hid)
      (work_of_find? hid') hchunk hworker
  · exact h.invariant.once id id' share.work share'.work (work_of_find? hid) (work_of_find? hid')
      hchunk hrace
  · obtain ⟨c, hc, -, -, t, ht, hunits⟩ := (h.invariant.backed id _ (work_of_find? hid)).chunk
    have hsame : chunk = c := Option.some.inj (hchunk.symm.trans hc)
    subst hsame
    refine hunits (Bool.eq_false_iff.mpr fun hraced => hrace ⟨chunk, t, hchunk, ht, hraced⟩)

/-! ## A race -/

/-- Two workers race; the second one submits these digits after the first has won. -/
def localRace (lateDigits : String) : List PoolEvent :=
  [.ensureActiveTask ⟨"task_1", 1, 2, "decimal", .null⟩ "pooltask_1" (fun _ => "chunk_1") 0,
    .registerWorker "ann" none none 0,
    .registerWorker "bob" none none 0,
    .claimWork "ann" 0 0,
    .submitWork "ann" "chunk_1" "14" 10,
    .resumeSubmit 0 "share_1" 1,
    .submitWork "bob" "chunk_1" lateDigits 10,
    .resumeSubmit 0 "share_2" 2]

/-- A race whose late digits are the right ones. -/
theorem shares_verified_local :
    EachStep (step localPool) (NoLateGuess localPool) .empty (localRace "14") ∧
      CreditVerified localPool (localRace "14") :=
  have h : EachStep (step localPool) (NoLateGuess localPool) .empty (localRace "14") := by
    decide +kernel
  ⟨h, shares_verified_of_run localPool rfl (localRace "14") h⟩

/-- A worker that guesses gets its share of the race. -/
theorem late_guess_credited :
    ¬ ∀ pc : PoolConfig, pc.verifyChunks = true → ∀ events, CreditVerified pc events := by
  intro hall
  have h := hall localPool rfl (localRace "99")
  have hshare : ∃ share, (run localPool (localRace "99")).shares.find? "share_2" = some share ∧
      share.workerId = "bob" ∧ share.chunkId = "chunk_1" := by
    refine ⟨⟨"bob", "pooltask_1", "chunk_1", 2, false, 2⟩, ?_, rfl, rfl⟩
    rfl
  obtain ⟨share, hshare, hbob, hchunk⟩ := hshare
  obtain ⟨before, index, now, call, hcreated⟩ := h.created "share_2" share hshare
  have hdigits : call.segment = "14" := by
    have hchunkDigits : chunkDigits localPool (run localPool (localRace "99")) "chunk_1" =
        some "14" := by decide +kernel
    have hcall := hcreated.digits
    rw [hchunk, hchunkDigits] at hcall
    exact (Option.some.inj hcall).symm
  -- the only submission of the worker has other digits
  have hguess : ∀ event ∈ localRace "99", Issues localPool event call →
      call.workerId = "ann" ∨ call.segment = "99" := by
    intro event hevent hissues
    simp only [localRace, List.mem_cons, List.not_mem_nil, or_false] at hevent
    rcases hevent with rfl | rfl | rfl | rfl | rfl | rfl | rfl | rfl
    all_goals first | exact hissues.elim | skip
    · exact .inl (hissues.1.trans (by decide +kernel))
    · exact .inr (hissues.2.2.1.trans (by decide +kernel))
  obtain ⟨event, hmem, hissues⟩ := hcreated.issued
  obtain ⟨after, hafter⟩ := hcreated.splits
  have hin : event ∈ localRace "99" := by
    rw [hafter]
    exact List.mem_append_left _ hmem
  rcases hguess event hin hissues with hann | hother
  · rw [hcreated.worker, hbob] at hann
    exact absurd hann (by decide)
  · rw [hdigits] at hother
    exact absurd hother (by decide)

end Picoin.Pool
