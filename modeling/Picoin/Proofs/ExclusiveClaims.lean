import Picoin.Forge.Claims
import Picoin.Lib.Run
import Picoin.Proofs.RequestLifeCycle

/-!
# Claims are exclusive

A claim reads the queue in one transaction and puts the whole item back in another, and nothing ties
the two together. Two workers that read the same item both put it, and both have it:
**`both_claim`**.

Where a claim is put over an item that is still queued, and a release over the item as it was read,
an item goes to a second worker only after the first lease was over and released, and never after it
was canceled.

* **`TaskInOrder`**, **`RequestInOrder`** — the condition of a transaction;
* **`TasksHeld`**, **`RequestsHeld`** — the invariants of the two queues;
* **`claims_exclusive_of_run`** — every interleaving.
-/

namespace Picoin.Forge

open Run

/-! ## What the claims should keep -/

/-- No two workers have the same task. -/
def TasksExclusive (returned : List (String × String)) : Prop :=
  ∀ id w₁ w₂, (id, w₁) ∈ returned → (id, w₂) ∈ returned → w₁ = w₂

/-- The request was released no earlier than the end of its lease. -/
def ReleasedIn (written : List AiRecord) (id : String) (lease : Instant) : Prop :=
  ∃ now, .released id now ∈ written ∧ lease ≤ now

structure RequestsExclusive (written : List AiRecord) : Prop where
  released : ∀ before between after id w₁ w₂ l₁ l₂,
    written = before ++ .claimed id w₁ l₁ :: (between ++ .claimed id w₂ l₂ :: after) → w₁ ≠ w₂ →
      ReleasedIn between id l₁
  canceled : ∀ before after id, written = before ++ .canceled id :: after →
    ∀ w l, .claimed id w l ∉ after

/-- A task is put while its row is queued. -/
def TaskInOrder (s : WorkloadClaims) : WorkloadCall → Prop
  | .read .. => True
  | .put call _ => ∀ claim, s.calls.find? call = some claim →
      ∃ row, s.tasks.find? claim.task.taskId = some row ∧ row.status = .queued

/-- A claim is put while the row is queued, and a release while the row is as it was read. -/
def RequestInOrder (s : AiClaims) : AiTransaction → Prop
  | .putReleased call => ∀ item rest now,
      s.calls.find? call = some (.release (item :: rest) now) →
        s.requests.find? item.requestId = some item
  | .putClaimed call views _ => ∀ worker items item,
      s.calls.find? call = some (.claim worker items) →
        chooseRequest views worker items = some item →
          ∃ row, s.requests.find? item.requestId = some row ∧ row.status = .queued
  | _ => True

/-- The condition can be checked along a run. -/
instance decidableTaskInOrder (s : WorkloadClaims) : ∀ call, Decidable (TaskInOrder s call)
  | .read .. => .isTrue trivial
  | .put call _ =>
    decidable_of_iff ((s.calls.find? call).all fun claim =>
        (s.tasks.find? claim.task.taskId).any fun row => row.status = .queued) <| by
      simp only [Option.all_eq_true, Option.any_eq_true, decide_eq_true_eq, TaskInOrder]

instance decidableRequestInOrder (s : AiClaims) :
    ∀ transaction, Decidable (RequestInOrder s transaction)
  | .readExpired .. => .isTrue trivial
  | .putReleased call =>
    match hcall : s.calls.find? call with
    | some (.release (item :: _) _) =>
      decidable_of_iff (s.requests.find? item.requestId = some item)
        ⟨fun h other rest now hother => by
          rw [hcall] at hother
          cases hother
          exact h, fun h => h _ _ _ hcall⟩
    | none | some (.release [] _) | some (.claim ..) | some (.cancel _) =>
      .isTrue fun other rest now hother => by
        rw [hcall] at hother
        cases hother
  | .readQueued .. => .isTrue trivial
  | .putClaimed call views _ =>
    match hcall : s.calls.find? call with
    | some (.claim worker items) =>
      decidable_of_iff ((chooseRequest views worker items).all fun item =>
          (s.requests.find? item.requestId).any fun row => row.status = .queued) <| by
        simp only [Option.all_eq_true, Option.any_eq_true, decide_eq_true_eq]
        constructor
        · intro h other otherItems item hother hchoose
          rw [hcall] at hother
          cases hother
          exact h item hchoose
        · exact fun h item hchoose => h worker items item hcall hchoose
    | none | some (.release ..) | some (.cancel _) =>
      .isTrue fun other otherItems item hother _ => by
        rw [hcall] at hother
        cases hother
  | .readCanceled .. => .isTrue trivial
  | .putCanceled .. => .isTrue trivial

/-! ## Tasks -/

/-- A task that was returned is no longer queued, and was returned to one worker. -/
structure TasksHeld (s : WorkloadClaims) : Prop where
  assigned : ∀ id w, (id, w) ∈ s.returned → ∃ row, s.tasks.find? id = some row ∧
    row.status = .assigned
  exclusive : TasksExclusive s.returned

theorem TasksHeld.step {s : WorkloadClaims} (h : TasksHeld s) {call : WorkloadCall}
    (horder : TaskInOrder s call) : TasksHeld (workloadStep s call) := by
  cases call with
  | read call workerId =>
    rw [workloadStep]
    split
    · exact h
    · exact ⟨h.assigned, h.exclusive⟩
  | put call now =>
    rw [workloadStep]
    split
    · exact h
    · next claim hclaim =>
      obtain ⟨row, hrow, hqueued⟩ := horder claim hclaim
      -- the row is queued, so nobody has been given it
      have hfresh : ∀ w, (claim.task.taskId, w) ∉ s.returned := by
        intro w hw
        obtain ⟨row', hrow', hassigned⟩ := h.assigned _ w hw
        rw [hrow] at hrow'
        cases hrow'
        rw [hqueued] at hassigned
        cases hassigned
      refine ⟨fun id w hw => ?_, fun id w₁ w₂ h₁ h₂ => ?_⟩
      · dsimp only
        rw [Sql.Table.find?_upsert]
        split
        · exact ⟨_, rfl, rfl⟩
        · next hne =>
          rcases List.mem_append.mp hw with hw | hw
          · exact h.assigned id w hw
          · cases List.mem_singleton.mp hw
            exact absurd rfl hne
      · rcases List.mem_append.mp h₁ with h₁ | h₁ <;> rcases List.mem_append.mp h₂ with h₂ | h₂
        · exact h.exclusive id w₁ w₂ h₁ h₂
        · cases List.mem_singleton.mp h₂
          exact absurd h₁ (hfresh w₁)
        · cases List.mem_singleton.mp h₁
          exact absurd h₂ (hfresh w₂)
        · cases List.mem_singleton.mp h₁
          cases List.mem_singleton.mp h₂
          rfl

/-! ## Requests -/

/-- The request is not in the queue, and where it is assigned, it is under this lease. -/
def UnderLease (requests : AiRequests) (id : String) (lease : Instant) : Prop :=
  ∃ item, requests.find? id = some item ∧ item.status ≠ .queued ∧
    (item.status = .assigned → item.leaseExpiresAt = some lease)

def IsCanceled (requests : AiRequests) (id : String) : Prop :=
  ∃ item, requests.find? id = some item ∧ item.status = .canceled

structure RequestsHeld (s : AiClaims) : Prop where
  named : ∀ id item, s.requests.find? id = some item → item.requestId = id
  expired : ∀ call items now, s.calls.find? call = some (.release items now) →
    ∀ item ∈ items, leaseOver now item = true
  held : ∀ before after id w lease, s.written = before ++ .claimed id w lease :: after →
    ReleasedIn after id lease ∨ UnderLease s.requests id lease
  canceled : ∀ id, .canceled id ∈ s.written → IsCanceled s.requests id
  exclusive : RequestsExclusive s.written

section

variable {s : AiClaims}

/-- Where an entry stands in a log with one more entry. -/
theorem append_singleton_eq {α : Type} {xs before after : List α} {x y : α}
    (h : xs ++ [x] = before ++ y :: after) :
    (after = [] ∧ xs = before ∧ x = y) ∨
      ∃ rest, after = rest ++ [x] ∧ xs = before ++ y :: rest := by
  induction after using List.reverseRecOn with
  | nil =>
    obtain ⟨hxs, hx⟩ := List.append_inj' h rfl
    exact .inl ⟨rfl, hxs, (List.singleton_inj.mp hx)⟩
  | append_singleton rest z _ =>
    rw [← List.cons_append, ← List.append_assoc] at h
    obtain ⟨hxs, hx⟩ := List.append_inj' h rfl
    rw [List.singleton_inj.mp hx]
    exact .inr ⟨rest, rfl, hxs⟩

theorem ReleasedIn.append {written : List AiRecord} {id : String} {lease : Instant}
    (h : ReleasedIn written id lease) (more : List AiRecord) :
    ReleasedIn (written ++ more) id lease := by
  obtain ⟨now, hmem, hlease⟩ := h
  exact ⟨now, List.mem_append_left _ hmem, hlease⟩

/-- A transaction that writes one entry. It takes a request from under its lease only by a release
in time, and claims a queued one. -/
theorem RequestsHeld.write (h : RequestsHeld s) {requests : AiRequests}
    {calls : Sql.Table ℕ AiCall} {entry : AiRecord}
    (hnamed : ∀ id item, requests.find? id = some item → item.requestId = id)
    (hexpired : ∀ call items now, calls.find? call = some (.release items now) →
      ∀ item ∈ items, leaseOver now item = true)
    (hlease : ∀ id lease, UnderLease s.requests id lease →
      UnderLease requests id lease ∨ ∃ now, entry = .released id now ∧ lease ≤ now)
    (hkept : ∀ id, IsCanceled s.requests id → IsCanceled requests id)
    (hcanceled : ∀ id, entry = .canceled id → IsCanceled requests id)
    (hclaimed : ∀ id w lease, entry = .claimed id w lease → UnderLease requests id lease ∧
      ∃ row, s.requests.find? id = some row ∧ row.status = .queued) :
    RequestsHeld ⟨requests, calls, s.written ++ [entry]⟩ where
  named := hnamed
  expired := hexpired
  held before after id w lease hlog := by
    -- the claim is the new entry, or it was there before
    rcases append_singleton_eq hlog with ⟨-, -, hentry⟩ | ⟨rest, rfl, hold⟩
    · exact .inr (hclaimed id w lease hentry).1
    · rcases h.held before rest id w lease hold with hreleased | hunder
      · exact .inl (hreleased.append _)
      · rcases hlease id lease hunder with hunder | ⟨now, rfl, htime⟩
        · exact .inr hunder
        · exact .inl ⟨now, List.mem_append_right _ (List.mem_singleton_self _), htime⟩
  canceled id hmem := by
    rcases List.mem_append.mp hmem with hmem | hmem
    · exact hkept id (h.canceled id hmem)
    · exact hcanceled id (List.mem_singleton.mp hmem).symm
  exclusive := by
    refine ⟨fun before between after id w₁ w₂ l₁ l₂ hlog hne => ?_, fun before after id hlog w l => ?_⟩
    · have hlog' : s.written ++ [entry] =
          (before ++ .claimed id w₁ l₁ :: between) ++ .claimed id w₂ l₂ :: after := by
        rw [List.append_assoc]
        exact hlog
      rcases append_singleton_eq hlog' with ⟨-, hold, hentry⟩ | ⟨rest, -, hold⟩
      -- the second claim takes a queued request, so the first has been released
      · obtain ⟨row, hrow, hqueued⟩ := (hclaimed id w₂ l₂ hentry).2
        rcases h.held before between id w₁ l₁ hold with hreleased | ⟨item, hitem, hstatus, -⟩
        · exact hreleased
        · rw [hrow] at hitem
          cases hitem
          exact absurd hqueued hstatus
      · refine h.exclusive.released before between rest id w₁ w₂ l₁ l₂ ?_ hne
        rw [hold, List.append_assoc, List.cons_append]
    · rcases append_singleton_eq hlog with ⟨hafter, -, -⟩ | ⟨rest, hafter, hold⟩
      · rw [hafter]
        exact List.not_mem_nil
      · rw [hafter]
        intro hmem
        rcases List.mem_append.mp hmem with hmem | hmem
        · exact h.exclusive.canceled before rest id hold w l hmem
        · obtain ⟨row, hrow, hqueued⟩ := (hclaimed id w l (List.mem_singleton.mp hmem).symm).2
          obtain ⟨item, hitem, hstatus⟩ := h.canceled id (hold ▸ by simp)
          rw [hrow] at hitem
          cases hitem
          rw [hqueued] at hstatus
          cases hstatus

/-- A transaction that reads, or ends its call without a write. -/
theorem RequestsHeld.read (h : RequestsHeld s) {calls : Sql.Table ℕ AiCall}
    (hexpired : ∀ call items now, calls.find? call = some (.release items now) →
      ∀ item ∈ items, leaseOver now item = true) : RequestsHeld { s with calls } :=
  ⟨h.named, hexpired, h.held, h.canceled, h.exclusive⟩

/-- A call that ends is no longer under way. -/
theorem RequestsHeld.end_call (h : RequestsHeld s) (call : ℕ) :
    ∀ call' items now, (s.calls.filterRows fun id _ => id ≠ call).find? call' =
      some (.release items now) → ∀ item ∈ items, leaseOver now item = true := by
  intro call' items now hcall
  have hmem := List.mem_of_mem_filter (Sql.Table.find?_eq_some_iff.mp hcall)
  exact h.expired call' items now (Sql.Table.find?_eq_some_iff.mpr hmem)

/-- A call that begins with nothing to release, or with requests whose leases are over. -/
theorem RequestsHeld.begin_call (h : RequestsHeld s) (call : ℕ) {left : AiCall}
    (hleft : ∀ items now, left = .release items now → ∀ item ∈ items, leaseOver now item = true) :
    ∀ call' items now, (s.calls.insertNew call left).find? call' = some (.release items now) →
      ∀ item ∈ items, leaseOver now item = true := by
  intro call' items now hcall
  rw [Sql.Table.find?_insertNew] at hcall
  split at hcall
  · cases hrow : s.calls.find? call with
    | none =>
      rw [hrow, Option.getD_none] at hcall
      exact hleft items now (Option.some.inj hcall)
    | some left' =>
      rw [hrow, Option.getD_some] at hcall
      exact h.expired call items now (hrow.trans hcall)
  · exact h.expired call' items now hcall

/-- A row that keeps its name. -/
theorem RequestsHeld.named_upsert (h : RequestsHeld s) (item : AIInferenceRequest) :
    ∀ id item', (s.requests.upsert item.requestId item).find? id = some item' →
      item'.requestId = id := by
  intro id item' hitem'
  rw [Sql.Table.find?_upsert] at hitem'
  split at hitem'
  · next heq =>
    cases hitem'
    exact heq.symm
  · exact h.named id item' hitem'

/-- The other rows stay under their leases, and canceled. -/
theorem UnderLease.upsert_ne {requests : AiRequests} {id id' : String} {lease : Instant}
    (h : UnderLease requests id lease) (hne : id ≠ id') (item : AIInferenceRequest) :
    UnderLease (requests.upsert id' item) id lease := by
  obtain ⟨row, hrow, hstatus⟩ := h
  exact ⟨row, (Sql.Table.find?_upsert_ne _ _ hne).trans hrow, hstatus⟩

theorem IsCanceled.upsert {requests : AiRequests} {id id' : String} (h : IsCanceled requests id)
    {item : AIInferenceRequest} (hsame : id = id' → item.status = .canceled) :
    IsCanceled (requests.upsert id' item) id := by
  obtain ⟨row, hrow, hstatus⟩ := h
  by_cases heq : id = id'
  · rw [← heq]
    exact ⟨item, Sql.Table.find?_upsert_self _ _ _, hsame heq⟩
  · exact ⟨row, (Sql.Table.find?_upsert_ne _ _ heq).trans hrow, hstatus⟩

/-- An expired assignment is put back into the queue. -/
theorem RequestsHeld.putReleased (h : RequestsHeld s) {fc : ForgeConfig}
    {calls : Sql.Table ℕ AiCall} {item : AIInferenceRequest} {now : Instant}
    (hexpired : ∀ call items now, calls.find? call = some (.release items now) →
      ∀ item ∈ items, leaseOver now item = true)
    (hrow : s.requests.find? item.requestId = some item) (hover : leaseOver now item = true) :
    RequestsHeld ⟨s.requests.upsert item.requestId (releaseExpiredAssignment fc now item), calls,
      s.written ++ [.released item.requestId now]⟩ := by
  obtain ⟨hassigned, hlease⟩ := (Bool.and_eq_true _ _).mp hover
  have hassigned := of_decide_eq_true hassigned
  have hname : (releaseExpiredAssignment fc now item).requestId = item.requestId := by
    unfold releaseExpiredAssignment
    split
    · rfl
    · rfl
  refine h.write ?_ hexpired (fun id lease hunder => ?_) (fun id hcanceled => ?_)
    (fun _ h => (nomatch h)) (fun _ _ _ h => nomatch h)
  · rw [← hname]
    exact h.named_upsert _
  · by_cases heq : id = item.requestId
    · obtain ⟨row, hrow', -, hleased⟩ := hunder
      rw [heq, hrow] at hrow'
      cases hrow'
      rw [hleased hassigned] at hlease
      exact .inr ⟨now, by rw [heq], of_decide_eq_true hlease⟩
    · exact .inl (hunder.upsert_ne heq _)
  · refine hcanceled.upsert fun heq => ?_
    obtain ⟨row, hrow', hstatus⟩ := hcanceled
    rw [heq, hrow] at hrow'
    cases hrow'
    rw [hassigned] at hstatus
    cases hstatus

/-- A request of the queue is claimed. -/
theorem RequestsHeld.putClaimed (h : RequestsHeld s) {fc : ForgeConfig}
    {calls : Sql.Table ℕ AiCall} {worker : WorkerState} {item row : AIInferenceRequest}
    {now : Instant}
    (hexpired : ∀ call items now, calls.find? call = some (.release items now) →
      ∀ item ∈ items, leaseOver now item = true)
    (hrow : s.requests.find? item.requestId = some row) (hqueued : row.status = .queued) :
    RequestsHeld ⟨s.requests.upsert item.requestId (item.claim fc worker now), calls,
      s.written ++ [.claimed item.requestId worker.workerId
        (now + seconds fc.aiRequestLeaseSeconds)]⟩ := by
  refine h.write (h.named_upsert (item.claim fc worker now)) hexpired (fun id lease hunder => ?_)
    (fun id hcanceled => ?_) (fun _ h => (nomatch h)) (fun id w lease hentry => ?_)
  · refine .inl (hunder.upsert_ne (fun heq => ?_) _)
    obtain ⟨row', hrow', hstatus, -⟩ := hunder
    rw [heq, hrow] at hrow'
    cases hrow'
    exact hstatus hqueued
  · refine hcanceled.upsert fun heq => ?_
    obtain ⟨row', hrow', hstatus⟩ := hcanceled
    rw [heq, hrow] at hrow'
    cases hrow'
    rw [hqueued] at hstatus
    cases hstatus
  · cases hentry
    exact ⟨⟨_, Sql.Table.find?_upsert_self _ _ _, fun h => (nomatch h), fun _ => rfl⟩,
      row, hrow, hqueued⟩

/-- A request is canceled, whatever its row is. -/
theorem RequestsHeld.putCanceled (h : RequestsHeld s) {calls : Sql.Table ℕ AiCall}
    {item canceled : AIInferenceRequest}
    (hexpired : ∀ call items now, calls.find? call = some (.release items now) →
      ∀ item ∈ items, leaseOver now item = true)
    (hname : canceled.requestId = item.requestId) (hstatus : canceled.status = .canceled) :
    RequestsHeld ⟨s.requests.upsert item.requestId canceled, calls,
      s.written ++ [.canceled item.requestId]⟩ := by
  refine h.write ?_ hexpired (fun id lease hunder => ?_)
    (fun id hold => hold.upsert fun _ => hstatus) (fun id hentry => ?_)
    (fun _ _ _ h => nomatch h)
  · rw [← hname]
    exact h.named_upsert _
  · by_cases heq : id = item.requestId
    · rw [heq]
      refine .inl ⟨canceled, Sql.Table.find?_upsert_self _ _ _, ?_, fun h => ?_⟩
      · rw [hstatus]
        exact fun h => nomatch h
      · rw [hstatus] at h
        cases h
    · exact .inl (hunder.upsert_ne heq _)
  · cases hentry
    exact ⟨canceled, Sql.Table.find?_upsert_self _ _ _, hstatus⟩

/-- Every transaction in order keeps the requests. -/
theorem RequestsHeld.step (h : RequestsHeld s) {fc : ForgeConfig} {transaction : AiTransaction}
    (horder : RequestInOrder s transaction) : RequestsHeld (aiClaimStep fc s transaction) := by
  cases transaction with
  -- a call starts with the requests whose lease is over
  | readExpired call now =>
    refine h.read (h.begin_call call fun items now' hleft item hitem => ?_)
    cases hleft
    exact (List.mem_filter.mp hitem).2
  | putReleased call =>
    rw [aiClaimStep]
    split
    · next item rest now hcall =>
      have hitems := h.expired call _ now hcall
      refine h.putReleased (fun call' items now' hcall' => ?_) (horder item rest now hcall)
        (hitems item List.mem_cons_self)
      rw [Sql.Table.find?_upsert] at hcall'
      split at hcall'
      · cases hcall'
        exact fun item hitem => hitems item (List.mem_cons_of_mem _ hitem)
      · exact h.expired call' items now' hcall'
    · exact h
  | readQueued call worker =>
    rw [aiClaimStep]
    split
    · exact h.read (h.begin_call call fun _ _ hleft => by cases hleft)
    · exact h
  -- the row is queued when it is written, by the order of the steps
  | putClaimed call views now =>
    rw [aiClaimStep]
    split
    · next worker items hcall =>
      split
      · exact h.read (h.end_call call)
      · next item hitem =>
        obtain ⟨row, hrow, hqueued⟩ := horder worker items item hcall hitem
        exact h.putClaimed (h.end_call call) hrow hqueued
    · exact h
  | readCanceled call requestId =>
    rw [aiClaimStep]
    split
    · exact h
    · exact h.read (h.begin_call call fun _ _ hleft => by cases hleft)
  -- a row that is not written again is left as it was read
  | putCanceled call now =>
    rw [aiClaimStep]
    split
    · next item hcall =>
      split
      · exact h.read (h.end_call call)
      · next canceled hcanceled =>
        split
        · next hstatus =>
          rcases cancelItem_cases hcanceled with rfl | ⟨-, -, hname, -⟩
          · exact absurd hstatus.1 hstatus.2
          · exact h.putCanceled (h.end_call call) hname hstatus.1
        · exact h.read (h.end_call call)
    · exact h

end

/-! ## Every interleaving -/

/-- **Claims are exclusive** in both queues, in every interleaving whose writes are in order. -/
theorem claims_exclusive_of_run (fc : ForgeConfig) :
    (∀ (tasks : Workloads) (run : List WorkloadCall),
      EachStep workloadStep TaskInOrder ⟨tasks, .empty, []⟩ run →
        TasksExclusive (run.foldl workloadStep ⟨tasks, .empty, []⟩).returned) ∧
    ∀ (requests : AiRequests) (run : List AiTransaction),
      (∀ id item, requests.find? id = some item → item.requestId = id) →
      EachStep (aiClaimStep fc) RequestInOrder ⟨requests, .empty, []⟩ run →
        RequestsExclusive (run.foldl (aiClaimStep fc) ⟨requests, .empty, []⟩).written := by
  refine ⟨fun tasks run hrun => ?_, fun requests run hnamed hrun => ?_⟩
  · have hstart : TasksHeld ⟨tasks, .empty, []⟩ :=
      ⟨fun _ _ h => (nomatch h), fun _ _ _ h => nomatch h⟩
    exact (invariant_of_eachStep (fun _ _ h hcall => h.step hcall) run _ hstart hrun _
      (foldl_mem_states _ _ _)).exclusive
  · have hnone : ∀ {before after : List AiRecord} {entry : AiRecord},
        [] ≠ before ++ entry :: after := by simp
    have hstart : RequestsHeld ⟨requests, .empty, []⟩ :=
      ⟨hnamed, fun _ _ _ h => (nomatch h), fun _ _ _ _ _ h => absurd h hnone,
        fun _ h => (nomatch h), fun _ _ _ _ _ _ _ _ h => absurd h hnone,
        fun _ _ _ h => absurd h hnone⟩
    exact (invariant_of_eachStep (fun _ _ h htransaction => h.step htransaction) run _ hstart hrun _
      (foldl_mem_states _ _ _)).exclusive

/-! ## Local claims -/

/-- A workload that waits. -/
def waitingTask : WorkloadTask where
  taskId := "t"
  taskType := .hashText
  payload := .null
  status := .queued
  expectedResultHash := "e"
  assignedWorkerId := none
  resultHash := none
  createdAt := 0
  updatedAt := 0

def waitingTasks : Workloads := Sql.Table.empty.upsert "t" waitingTask

/-- Another one. -/
def twoWaitingTasks : Workloads :=
  waitingTasks.upsert "u" { waitingTask with taskId := "u", createdAt := 1 }

/-- Two workers claim one after the other. -/
def taskClaims : List WorkloadCall := [.read 0 "ann", .put 0 1, .read 1 "bob", .put 1 2]

def waitingRequests : AiRequests := (aiStep localForge .empty (.create localAiCreate 0)).requests

/-- The request is claimed, released after its lease, claimed by another worker and
cancelled; the other worker asks in vain before. -/
def requestClaims : List AiTransaction :=
  let claims (call : ℕ) (worker : WorkerState) (now : Instant) : List AiTransaction :=
    [.readQueued call worker, .putClaimed call (fun _ => ([worker], fun _ => 0)) now]
  claims 0 localAiWorker 1 ++
    claims 1 { localAiWorker with workerId := "bob" } 2 ++
    [.readExpired 2 (seconds 200), .putReleased 2] ++
    claims 3 { localAiWorker with workerId := "bob" } (seconds 200) ++
    [.readCanceled 4 localRequestId, .putCanceled 4 (seconds 201)]

theorem waitingRequests_named (id : String) (item : AIInferenceRequest)
    (h : waitingRequests.find? id = some item) : item.requestId = id := by
  have hcreate : InOrder localForge .empty (.create localAiCreate 0) := Sql.Table.find?_empty _
  exact (((QueueKept.empty localForge).step hcreate).kept id item h).named

theorem claims_exclusive_local :
    (taskClaims.foldl workloadStep ⟨twoWaitingTasks, .empty, []⟩).returned =
        [("t", "ann"), ("u", "bob")] ∧
      TasksExclusive (taskClaims.foldl workloadStep ⟨twoWaitingTasks, .empty, []⟩).returned ∧
      (requestClaims.foldl (aiClaimStep localForge) ⟨waitingRequests, .empty, []⟩).written.length =
        4 ∧
      RequestsExclusive (requestClaims.foldl (aiClaimStep localForge)
        ⟨waitingRequests, .empty, []⟩).written :=
  ⟨by decide +kernel,
    (claims_exclusive_of_run localForge).1 twoWaitingTasks taskClaims (by decide +kernel),
    by decide +kernel,
    (claims_exclusive_of_run localForge).2 waitingRequests requestClaims waitingRequests_named
      (by decide +kernel)⟩

/-- Two workers read the task before either puts it. -/
def twoTaskClaims : List WorkloadCall := [.read 0 "ann", .read 1 "bob", .put 0 1, .put 1 2]

/-- Both have the task. -/
theorem both_claim : ¬ ∀ (tasks : Workloads) (run : List WorkloadCall),
    TasksExclusive (run.foldl workloadStep ⟨tasks, .empty, []⟩).returned := by
  intro hall
  have hreturned : (twoTaskClaims.foldl workloadStep ⟨waitingTasks, .empty, []⟩).returned =
      [("t", "ann"), ("t", "bob")] := by decide +kernel
  have h := hall waitingTasks twoTaskClaims "t" "ann" "bob"
  rw [hreturned] at h
  exact absurd (h (by decide) (by decide)) (by decide)

end Picoin.Forge
