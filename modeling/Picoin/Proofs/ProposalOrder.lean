import Mathlib.Data.List.Induction
import Picoin.Services.ProposalQueue

/-!
# The order of the processed proposals

Proposals are submitted and requests are cancelled while the worker coalesces, drains the queue and
waits for the consensus. Whatever the order of these steps:

* **`ProposalQueue.dispatch_eq`** — the worker takes the first of what waits, and the rest waits on;
* **`QueueInv`** — every submitted proposal waits or has been processed, in the order of the queue;
* **`proposals_processed_in_order`** — every run of the event loop.
-/

namespace Picoin

variable {β ρ : Type*}

namespace QueuedProposal

theorem le_iff {a b : QueuedProposal β} :
    a.le b = true ↔ a.height < b.height ∨ a.height = b.height ∧ a.sequence ≤ b.sequence := by
  unfold le
  split
  · next h => simp [h]
  · next h =>
    rw [decide_eq_true_iff]
    constructor
    · intro hle
      exact .inl (lt_of_le_of_ne hle h)
    · rintro (hlt | ⟨heq, -⟩)
      · exact hlt.le
      · exact absurd heq h

theorem le_trans' (a b c : QueuedProposal β) (hab : a.le b = true) (hbc : b.le c = true) :
    a.le c = true := by
  rw [le_iff] at *
  omega

theorem le_total' (a b : QueuedProposal β) : (a.le b || b.le a) = true := by
  rw [Bool.or_eq_true, le_iff, le_iff]
  omega

end QueuedProposal

namespace ProposalQueue

variable {s : ProposalQueue β ρ}

/-- The proposals that have not been handed to the processor. -/
def waiting (s : ProposalQueue β ρ) : List (QueuedProposal β) :=
  match s.worker with
  | .coalescing item => item :: s.queue
  | _ => s.queue

/-- The proposal that the processor has. -/
def current (s : ProposalQueue β ρ) : List (QueuedProposal β) :=
  match s.worker with
  | .processing item => [item]
  | _ => []

theorem redeliver {u : ℕ} (hu : 0 < u) (delayed q : List (QueuedProposal β))
    (hs : s.unfinishedTasks = u) : ∃ q' : List (QueuedProposal β), q'.Perm (delayed ++ q) ∧
      delayed.foldlM (fun s d => do
        let s ← s.taskDone
        return s.put d) { s with queue := q } = .ok { s with queue := q' } := by
  induction delayed generalizing q with
  | nil => exact ⟨q, List.Perm.refl q, rfl⟩
  | cons d rest ih =>
    obtain ⟨q', hperm, hrest⟩ := ih (q.orderedInsert (fun a b => a.le b = true) d)
    refine ⟨q', hperm.trans ?_, ?_⟩
    · exact ((List.perm_orderedInsert _ d q).append_left rest).trans List.perm_middle
    · have hfirst : ({ s with queue := q } : ProposalQueue β ρ).taskDone =
          .ok { s with queue := q, unfinishedTasks := u - 1 } := by
        unfold taskDone
        rw [if_neg (by simp only [hs]; omega)]
        simp only [hs]
      rw [List.foldlM_cons, hfirst]
      have hput : ({ s with queue := q, unfinishedTasks := u - 1 } : ProposalQueue β ρ).put d =
          { s with queue := q.orderedInsert (fun a b => a.le b = true) d } := by
        unfold put
        have htasks : u - 1 + 1 = s.unfinishedTasks := by omega
        simp only [htasks]
      change List.foldlM _ (({ s with queue := q, unfinishedTasks := u - 1 } :
        ProposalQueue β ρ).put d) rest = _
      rw [hput]
      exact hrest

/-- The worker takes the first of the waiting proposals, and puts the others back. -/
theorem dispatch_eq (item : QueuedProposal β) (hs : 0 < s.unfinishedTasks) :
    ∃ first q', (first :: q').Perm (item :: s.queue) ∧ (∀ w ∈ q', first.le w = true) ∧
      s.dispatch item = .ok { s with
        queue := q'
        worker := .processing first
        processed := s.processed ++ [(first, s.nextSequence)] } := by
  have hperm := List.mergeSort_perm (item :: s.queue) QueuedProposal.le
  have hsorted := List.pairwise_mergeSort QueuedProposal.le_trans' QueuedProposal.le_total'
    (item :: s.queue)
  unfold dispatch
  cases hpending : (item :: s.queue).mergeSort QueuedProposal.le with
  | nil =>
    rw [hpending] at hperm
    exact absurd hperm (List.not_perm_nil_cons _ _)
  | cons first delayed =>
    rw [hpending] at hperm hsorted
    obtain ⟨q', hq', hdelayed⟩ := redeliver hs delayed [] rfl
    rw [List.append_nil] at hq'
    refine ⟨first, q', (hq'.cons first).trans hperm, fun w hw => ?_, ?_⟩
    · exact List.rel_of_pairwise_cons hsorted (hq'.mem_iff.mp hw)
    · dsimp only
      rw [hdelayed]
      rfl

/-- The processor's outcome goes to the future, and the worker waits again. -/
theorem finish_eq (item : QueuedProposal β) (outcome : Except String ρ)
    (hs : 0 < s.unfinishedTasks) : s.finish item outcome =
      .ok { s.setFuture item.sequence (.of outcome) with
        unfinishedTasks := s.unfinishedTasks - 1
        worker := .waiting
        outcomes := s.outcomes ++ [(item.sequence, outcome)] } := by
  have hpositive : ¬(s.setFuture item.sequence (.of outcome)).unfinishedTasks = 0 := hs.ne'
  unfold finish taskDone
  rw [if_neg hpositive]
  rfl

end ProposalQueue

/-! ## The invariant -/

open ProposalQueue

/-- The proposals of the submissions, in their order. -/
def submittedProposals (height : β → ℤ) (events : List (QueueEvent β ρ)) :
    List (QueuedProposal β) :=
  (events.filterMap fun
    | .submit block proposerNodeId gossip => some (block, proposerNodeId, gossip)
    | _ => none).mapIdx fun i p => ⟨height p.1, i, p.1, p.2.1, p.2.2⟩

structure QueueInv (height : β → ℤ) (events : List (QueueEvent β ρ)) (s : ProposalQueue β ρ) :
    Prop where
  count : (submittedProposals height events).length = s.nextSequence
  perm : (s.processed.map Prod.fst ++ s.waiting).Perm (submittedProposals height events)
  worker : s.worker ≠ .failed
  tasks : s.unfinishedTasks = s.waiting.length + s.current.length
  bound : ∀ p ∈ s.processed, p.2 ≤ s.nextSequence
  order : s.processed.Pairwise fun p q => q.1.sequence < p.2 → p.1.le q.1 = true
  ahead : ∀ p ∈ s.processed, ∀ w ∈ s.waiting, w.sequence < p.2 → p.1.le w = true
  outcomes : s.processed.map (fun p => p.1.sequence) =
    s.outcomes.map Prod.fst ++ s.current.map QueuedProposal.sequence
  futures : s.futures.length = s.nextSequence
  answered : ∀ o ∈ s.outcomes, s.futures[o.1]? = some (.of o.2) ∨
    s.futures[o.1]? = some .cancelled
  unanswered : ∀ n < s.nextSequence, n ∉ s.outcomes.map Prod.fst →
    s.futures[n]? = some .pending ∨ s.futures[n]? = some .cancelled
  cancelled : ∀ n : ℕ, s.futures[n]? = some .cancelled → QueueEvent.cancel n ∈ events

variable {height : β → ℤ} {events : List (QueueEvent β ρ)} {s : ProposalQueue β ρ}

theorem submitted_submit (block : β) (proposerNodeId : String) (gossip : Bool) :
    submittedProposals height (events ++ [.submit block proposerNodeId gossip]) =
      submittedProposals height events ++ [⟨height block,
        (submittedProposals height events).length, block, proposerNodeId, gossip⟩] := by
  unfold submittedProposals
  rw [List.filterMap_append, List.mapIdx_append]
  simp

theorem queueInv_start : QueueInv height [] (start : ProposalQueue β ρ) where
  count := rfl
  perm := List.Perm.refl _
  worker := nofun
  tasks := rfl
  bound _ hp := nomatch hp
  order := List.Pairwise.nil
  ahead _ hp := nomatch hp
  outcomes := rfl
  futures := rfl
  answered _ ho := nomatch ho
  unanswered _ hn := absurd hn (Nat.not_lt_zero _)
  cancelled n hn := by simp [start] at hn

theorem getElem?_setFuture (n m : ℕ) (value : ProposalFuture ρ) :
    (s.setFuture n value).futures[m]? =
      if n = m then (s.futures[m]?).map value.set else s.futures[m]? := by
  unfold setFuture
  rw [List.getElem?_modify]
  split <;> simp

/-- A future that is done stays. -/
theorem getElem?_setFuture_of_ne {n m : ℕ} {value done : ProposalFuture ρ}
    (h : s.futures[m]? = some done) (hdone : done ≠ .pending) :
    (s.setFuture n value).futures[m]? = some done := by
  rw [getElem?_setFuture, h]
  split
  · cases done with
    | pending => exact absurd rfl hdone
    | _ => rfl
  · rfl

theorem of_ne_pending (outcome : Except String ρ) : ProposalFuture.of outcome ≠ .pending := by
  cases outcome <;> exact nofun

theorem map_sequence_submitted : (submittedProposals height events).map QueuedProposal.sequence =
    List.range (submittedProposals height events).length :=
  List.ext_getElem (by simp) fun i _ _ => by simp [submittedProposals]

namespace QueueInv

/-- An event that submits nothing. -/
theorem concat (h : QueueInv height events s) {e : QueueEvent β ρ}
    (he : submittedProposals height (events ++ [e]) = submittedProposals height events) :
    QueueInv height (events ++ [e]) s :=
  { h with
    count := he ▸ h.count
    perm := he ▸ h.perm
    cancelled := fun n hn => List.mem_append_left _ (h.cancelled n hn) }

/-- No two proposals have one sequence number. -/
theorem nodup_sequences (h : QueueInv height events s) :
    ((s.processed.map Prod.fst ++ s.waiting).map QueuedProposal.sequence).Nodup := by
  rw [(h.perm.map _).nodup_iff, map_sequence_submitted]
  exact List.nodup_range

theorem submit (h : QueueInv height events s) (block : β) (proposerNodeId : String)
    (gossip : Bool) : QueueInv height (events ++ [.submit block proposerNodeId gossip])
      (s.submit height block proposerNodeId gossip) := by
  obtain ⟨item, hitem⟩ : ∃ item : QueuedProposal β,
    item = ⟨height block, s.nextSequence, block, proposerNodeId, gossip⟩ := ⟨_, rfl⟩
  -- what waits is what waited and the new proposal
  have hwaiting :
      (s.submit height block proposerNodeId gossip).waiting.Perm (item :: s.waiting) := by
    have hput := List.perm_orderedInsert (fun a b : QueuedProposal β => a.le b = true) item s.queue
    unfold waiting ProposalQueue.submit put
    rw [← hitem]
    cases s.worker with
    | coalescing held => exact (hput.cons held).trans (List.Perm.swap _ _ _)
    | _ => exact hput
  have hsubmitted : submittedProposals height (events ++ [.submit block proposerNodeId gossip]) =
      submittedProposals height events ++ [item] := by rw [submitted_submit, h.count, hitem]
  have hfutures : (s.submit height block proposerNodeId gossip).futures = s.futures ++ [.pending] :=
    rfl
  constructor
  case count => rw [hsubmitted, List.length_append, h.count]; rfl
  case perm =>
    rw [hsubmitted]
    exact (hwaiting.append_left _).trans (List.perm_middle.trans
      ((h.perm.cons item).trans (List.perm_append_singleton item _).symm))
  case worker => exact h.worker
  case tasks =>
    have htasks := h.tasks
    rw [hwaiting.length_eq, List.length_cons]
    change s.unfinishedTasks + 1 = s.waiting.length + 1 + s.current.length
    omega
  case bound => exact fun p hp => (h.bound p hp).trans (Nat.le_succ _)
  case order => exact h.order
  case ahead =>
    intro p hp w hw hlt
    rcases List.mem_cons.mp (hwaiting.mem_iff.mp hw) with rfl | hold
    · -- the new proposal is behind every call so far
      have hbound := h.bound p hp
      rw [hitem] at hlt
      exact absurd hlt (not_lt.mpr hbound)
    · exact h.ahead p hp w hold hlt
  case outcomes => exact h.outcomes
  case futures =>
    rw [hfutures, List.length_append, h.futures]
    rfl
  case answered =>
    intro o ho
    have hlt : o.1 < s.futures.length := by
      rcases h.answered o ho with hanswer | hcancel
      · exact (List.getElem?_eq_some_iff.mp hanswer).1
      · exact (List.getElem?_eq_some_iff.mp hcancel).1
    rw [hfutures, List.getElem?_append_left hlt]
    exact h.answered o ho
  -- the new future is pending, the others are as they were
  case unanswered =>
    intro n hn hnone
    rw [hfutures]
    rcases Nat.lt_succ_iff_lt_or_eq.mp hn with hlt | rfl
    · rw [List.getElem?_append_left (h.futures ▸ hlt)]
      exact h.unanswered n hlt hnone
    · left
      rw [← h.futures]
      simp
  case cancelled =>
    intro n hn
    rw [hfutures] at hn
    refine List.mem_append_left _ (h.cancelled n ?_)
    by_cases hlt : n < s.futures.length
    · rwa [List.getElem?_append_left hlt] at hn
    · rw [List.getElem?_append_right (not_lt.mp hlt)] at hn
      cases hzero : n - s.futures.length with
      | zero => simp [hzero] at hn
      | succ k => simp [hzero] at hn

theorem cancel (h : QueueInv height events s) (n : ℕ) :
    QueueInv height (events ++ [.cancel n]) (s.setFuture n .cancelled) := by
  have hsame : submittedProposals height (events ++ [.cancel n]) =
      submittedProposals height events := by
    unfold submittedProposals
    rw [List.filterMap_append]
    simp
  have hold := h.concat hsame
  constructor
  case count => exact hold.count
  case perm => exact hold.perm
  case worker => exact hold.worker
  case tasks => exact hold.tasks
  case bound => exact hold.bound
  case order => exact hold.order
  case ahead => exact hold.ahead
  case outcomes => exact hold.outcomes
  case futures => exact (List.length_modify _ _ _).trans hold.futures
  case answered =>
    intro o ho
    rcases hold.answered o ho with hanswer | hcancel
    · exact .inl (getElem?_setFuture_of_ne hanswer (of_ne_pending o.2))
    · exact .inr (getElem?_setFuture_of_ne hcancel nofun)
  -- a pending future is cancelled, any other stays
  case unanswered =>
    intro m hm hnone
    rcases hold.unanswered m hm hnone with hpending | hcancel
    · rw [getElem?_setFuture, hpending]
      split
      · exact .inr rfl
      · exact .inl rfl
    · exact .inr (getElem?_setFuture_of_ne hcancel nofun)
  case cancelled =>
    intro m hm
    by_cases hn : n = m
    · rw [hn]
      exact List.mem_append_right _ (List.mem_singleton_self _)
    · rw [getElem?_setFuture, if_neg hn] at hm
      exact hold.cancelled m hm

/-- The worker gets a proposal and sleeps. -/
theorem coalesce (h : QueueInv height events s) {item : QueuedProposal β}
    {rest : List (QueuedProposal β)} (hworker : s.worker = .waiting)
    (hqueue : s.queue = item :: rest) :
    QueueInv height events { s with queue := rest, worker := .coalescing item } := by
  let held : ProposalQueue β ρ := { s with queue := rest, worker := .coalescing item }
  have hwaiting : held.waiting = s.waiting := by
    unfold waiting
    rw [hworker, hqueue]
  have hcurrent : held.current = s.current := by
    unfold current
    rw [hworker]
  have hperm := h.perm
  have htasks := h.tasks
  have hahead := h.ahead
  have houtcomes := h.outcomes
  rw [← hwaiting] at hperm htasks hahead
  rw [← hcurrent] at htasks houtcomes
  exact { h with
    perm := hperm
    worker := nofun
    tasks := htasks
    ahead := hahead
    outcomes := houtcomes }

/-- The worker hands over the first of what waits. -/
theorem dispatch (h : QueueInv height events s) {item : QueuedProposal β}
    {rest : List (QueuedProposal β)} (hwaiting : s.waiting = item :: rest)
    (hcurrent : s.current = []) :
    QueueInv height events (s.orFailed ({ s with queue := rest }.dispatch item)) := by
  have htasks := h.tasks
  rw [hwaiting, hcurrent] at htasks
  -- the held proposal and the queue, with the first of both in hand
  obtain ⟨first, q', hperm, hfirst, heq⟩ := dispatch_eq (s := { s with queue := rest }) item
    (show 0 < s.unfinishedTasks by rw [htasks]; exact Nat.succ_pos _)
  have hmem : ∀ w, w ∈ first :: q' → w ∈ s.waiting := by
    intro w hw
    rw [hwaiting]
    exact hperm.mem_iff.mp hw
  rw [heq]
  constructor
  case count => exact h.count
  case perm =>
    have hsplit : (s.processed ++ [(first, s.nextSequence)]).map Prod.fst ++ q' =
        s.processed.map Prod.fst ++ first :: q' := by simp
    change ((s.processed ++ [(first, s.nextSequence)]).map Prod.fst ++ q').Perm _
    rw [hsplit]
    refine (hperm.append_left _).trans ?_
    rw [← hwaiting]
    exact h.perm
  case worker => exact nofun
  case tasks =>
    have hlength := hperm.length_eq
    simp only [List.length_cons] at hlength htasks
    change s.unfinishedTasks = q'.length + 1
    rw [htasks]
    simp only [List.length_nil]
    omega
  case bound =>
    intro p hp
    rcases List.mem_append.mp hp with hold | hnew
    · exact h.bound p hold
    · rw [List.mem_singleton.mp hnew]
      exact le_refl s.nextSequence
  case order =>
    refine List.pairwise_append.mpr ⟨h.order, List.pairwise_singleton _ _, fun p hp q hq hlt => ?_⟩
    rw [List.mem_singleton.mp hq] at hlt ⊢
    exact h.ahead p hp first (hmem first List.mem_cons_self) hlt
  -- what stays in the queue is not before the one in hand
  case ahead =>
    intro p hp w hw hlt
    rcases List.mem_append.mp hp with hold | hnew
    · exact h.ahead p hold w (hmem w (List.mem_cons_of_mem _ hw)) hlt
    · rw [List.mem_singleton.mp hnew]
      exact hfirst w hw
  case outcomes =>
    have houtcomes := h.outcomes
    rw [hcurrent] at houtcomes
    change (s.processed ++ [(first, s.nextSequence)]).map (fun p => p.1.sequence) =
      s.outcomes.map Prod.fst ++ [first.sequence]
    rw [List.map_append, houtcomes]
    simp
  case futures => exact h.futures
  case answered => exact h.answered
  case unanswered => exact h.unanswered
  case cancelled => exact h.cancelled

/-- The proposal in the processor's hands has been submitted. -/
theorem lt_nextSequence_of_current (h : QueueInv height events s) {item : QueuedProposal β}
    (hcurrent : s.current = [item]) : item.sequence < s.nextSequence := by
  have houtcomes := h.outcomes
  rw [hcurrent] at houtcomes
  have hprocessed : item.sequence ∈ s.processed.map fun p => p.1.sequence :=
    houtcomes ▸ List.mem_append_right _ (List.mem_singleton_self _)
  obtain ⟨p, hp, heq⟩ := List.mem_map.mp hprocessed
  have hsub := h.perm.mem_iff.mp (List.mem_append_left _ (List.mem_map_of_mem hp))
  have hrange := List.mem_map_of_mem (f := QueuedProposal.sequence) hsub
  rw [map_sequence_submitted, List.mem_range, h.count] at hrange
  exact heq ▸ hrange

/-- It has not been answered before. -/
theorem not_answered_of_current (h : QueueInv height events s) {item : QueuedProposal β}
    (hcurrent : s.current = [item]) : item.sequence ∉ s.outcomes.map Prod.fst := by
  have houtcomes := h.outcomes
  rw [hcurrent] at houtcomes
  have hnodup := h.nodup_sequences
  rw [List.map_append, List.map_map] at hnodup
  have hprocessed : (s.processed.map fun p => p.1.sequence).Nodup :=
    (List.nodup_append.mp hnodup).1
  rw [houtcomes] at hprocessed
  intro hold
  exact (List.nodup_append.mp hprocessed).2.2 _ hold _ (List.mem_singleton_self _) rfl

/-- The processor returns or raises. -/
theorem finish (h : QueueInv height events s) {item : QueuedProposal β}
    (hworker : s.worker = .processing item) (outcome : Except String ρ) :
    QueueInv height events (s.orFailed (s.finish item outcome)) := by
  have hcurrent : s.current = [item] := by unfold current; rw [hworker]
  have hwaiting : s.waiting = s.queue := by unfold waiting; rw [hworker]
  have htasks := h.tasks
  rw [hcurrent, hwaiting] at htasks
  have houtcomes := h.outcomes
  rw [hcurrent] at houtcomes
  rw [finish_eq item outcome (by simp only [List.length_singleton] at htasks; omega)]
  constructor
  case count => exact h.count
  case perm =>
    have hperm := h.perm
    rw [hwaiting] at hperm
    exact hperm
  case worker => exact nofun
  case tasks =>
    change s.unfinishedTasks - 1 = s.queue.length + 0
    simp only [List.length_singleton] at htasks
    omega
  case bound => exact h.bound
  case order => exact h.order
  case ahead =>
    have hahead := h.ahead
    rw [hwaiting] at hahead
    exact hahead
  case outcomes =>
    change s.processed.map (fun p => p.1.sequence) =
      (s.outcomes ++ [(item.sequence, outcome)]).map Prod.fst ++ []
    rw [houtcomes]
    simp
  case futures => exact (List.length_modify _ _ _).trans h.futures
  case answered =>
    intro o ho
    rcases List.mem_append.mp ho with hold | hlast
    · rcases h.answered o hold with hanswer | hcancel
      · exact .inl (getElem?_setFuture_of_ne hanswer (of_ne_pending o.2))
      · exact .inr (getElem?_setFuture_of_ne hcancel nofun)
    · rw [List.mem_singleton.mp hlast]
      -- the proposal has not been answered before
      rcases h.unanswered item.sequence (h.lt_nextSequence_of_current hcurrent)
        (h.not_answered_of_current hcurrent) with hpending | hcancel
      · left
        change (s.setFuture item.sequence (.of outcome)).futures[item.sequence]? = _
        rw [getElem?_setFuture, if_pos rfl, hpending]
        rfl
      · exact .inr (getElem?_setFuture_of_ne hcancel nofun)
  case unanswered =>
    intro n hn hnone
    have hsplit : n ∉ s.outcomes.map Prod.fst ∧ item.sequence ≠ n := by
      change n ∉ (s.outcomes ++ [(item.sequence, outcome)]).map Prod.fst at hnone
      rw [List.map_append, List.mem_append, not_or] at hnone
      exact ⟨hnone.1, fun heq => hnone.2 (by simp [heq])⟩
    have hsame : (s.setFuture item.sequence (.of outcome)).futures[n]? = s.futures[n]? := by
      rw [getElem?_setFuture, if_neg hsplit.2]
    change (s.setFuture item.sequence (.of outcome)).futures[n]? = _ ∨
      (s.setFuture item.sequence (.of outcome)).futures[n]? = _
    rw [hsame]
    exact h.unanswered n hn hsplit.1
  case cancelled =>
    intro n hn
    change (s.setFuture item.sequence (.of outcome)).futures[n]? = _ at hn
    rw [getElem?_setFuture] at hn
    split at hn
    · obtain ⟨old, hold, hset⟩ := Option.map_eq_some_iff.mp hn
      cases old with
      | pending => cases outcome <;> exact nomatch hset
      | cancelled => exact h.cancelled n hold
      | result value => exact nomatch hset
      | exception message => exact nomatch hset
    · exact h.cancelled n hn

/-- Every step of the event loop. -/
theorem step (h : QueueInv height events s) (coalesce : Bool) (e : QueueEvent β ρ) :
    QueueInv height (events ++ [e]) (s.step height coalesce e) := by
  have hskip (hsame : submittedProposals height (events ++ [e]) =
      submittedProposals height events) := h.concat hsame
  cases e with
  | submit block proposerNodeId gossip => exact h.submit block proposerNodeId gossip
  | cancel n => exact h.cancel n
  -- a waiting worker takes the first proposal, a sleeping one hands its own over
  | wake =>
    have hold := hskip (by unfold submittedProposals; rw [List.filterMap_append]; simp)
    unfold ProposalQueue.step
    cases hworker : s.worker with
    | waiting =>
      cases hqueue : s.queue with
      | nil => exact hold
      | cons item rest =>
        have hwaiting : s.waiting = item :: rest := by
          unfold waiting
          rw [hworker]
          exact hqueue
        have hcurrent : s.current = [] := by unfold current; rw [hworker]
        cases coalesce with
        | false =>
          have hdispatch := hold.dispatch hwaiting hcurrent
          rw [hworker] at hdispatch
          exact hdispatch
        | true => exact hold.coalesce hworker hqueue
    | coalescing item =>
      have hwaiting : s.waiting = item :: s.queue := by unfold waiting; rw [hworker]
      have hcurrent : s.current = [] := by unfold current; rw [hworker]
      exact hold.dispatch hwaiting hcurrent
    | processing item => exact hold
    | failed => exact hold
  | finish outcome =>
    have hold := hskip (by unfold submittedProposals; rw [List.filterMap_append]; simp)
    unfold ProposalQueue.step
    cases hworker : s.worker with
    | processing item => exact hold.finish hworker outcome
    | _ => exact hold

end QueueInv

theorem QueueInv.run (h : QueueInv height events s) (coalesce : Bool)
    (more : List (QueueEvent β ρ)) :
    QueueInv height (events ++ more) (more.foldl (ProposalQueue.step height coalesce) s) := by
  induction more using List.reverseRecOn with
  | nil => rwa [List.append_nil]
  | append_singleton more e ih =>
    rw [List.foldl_append, ← List.append_assoc]
    exact ih.step coalesce e

theorem queueInv_run (height : β → ℤ) (coalesce : Bool) (events : List (QueueEvent β ρ)) :
    QueueInv height events (events.foldl (ProposalQueue.step height coalesce) start) :=
  queueInv_start.run coalesce events

/-! ## A burst of proposals -/

/-- The steps of the worker for one proposal. -/
def workerRound (coalesce : Bool) (outcome : Except String ρ) : List (QueueEvent β ρ) :=
  (if coalesce then [.wake, .wake] else [.wake]) ++ [.finish outcome]

/-- One round processes the first of the queue. -/
theorem workerRound_eq (h : QueueInv height events s) (coalesce : Bool)
    (hworker : s.worker = .waiting) (hqueue : s.queue ≠ []) (outcome : Except String ρ) :
    ∃ first q' s', (first :: q').Perm s.queue ∧ (∀ w ∈ q', first.le w = true) ∧
      (workerRound coalesce outcome).foldl (ProposalQueue.step height coalesce) s = s' ∧
      s'.queue = q' ∧ s'.worker = .waiting ∧
      s'.processed = s.processed ++ [(first, s.nextSequence)] := by
  obtain ⟨item, rest, hcons⟩ := List.exists_cons_of_ne_nil hqueue
  have htasks : 0 < s.unfinishedTasks := by
    have hwaiting : s.waiting = item :: rest := by
      unfold waiting
      rw [hworker]
      exact hcons
    rw [h.tasks, hwaiting, List.length_cons]
    omega
  -- the state in which the worker drains the queue
  let drain (worker : QueueWorker β) : ProposalQueue β ρ := { s with queue := rest, worker }
  obtain ⟨first, q', hperm, hfirst, heq⟩ := dispatch_eq
    (s := drain (if coalesce then .coalescing item else .waiting)) item htasks
  let handed : ProposalQueue β ρ := { s with
    queue := q'
    worker := .processing first
    processed := s.processed ++ [(first, s.nextSequence)] }
  have hhanded : (if coalesce then [QueueEvent.wake, .wake] else [.wake]).foldl
      (ProposalQueue.step height coalesce) s = handed := by
    cases coalesce with
    | false =>
      have hwake : s.step height false .wake = s.orFailed ((drain .waiting).dispatch item) := by
        unfold ProposalQueue.step
        rw [hworker, hcons]
        rfl
      change s.step height false .wake = handed
      rw [hwake]
      exact congrArg s.orFailed heq
    | true =>
      have hwake : s.step height true .wake = drain (.coalescing item) := by
        unfold ProposalQueue.step
        rw [hworker, hcons]
        rfl
      change (s.step height true .wake).step height true .wake = handed
      rw [hwake]
      exact congrArg (drain (.coalescing item)).orFailed heq
  refine ⟨first, q', _, hcons ▸ hperm, hfirst, rfl, ?_⟩
  unfold workerRound
  rw [List.foldl_append, hhanded, List.foldl_cons, List.foldl_nil]
  have hfinish : handed.step height coalesce (.finish outcome) =
      handed.orFailed (handed.finish first outcome) := rfl
  rw [hfinish, finish_eq (s := handed) first outcome htasks]
  exact ⟨rfl, rfl, rfl⟩

/-- The order decides between proposals of different sequence numbers. -/
theorem mergeSort_eq_cons {l q : List (QueuedProposal β)} {first : QueuedProposal β}
    (hdistinct : (l.map QueuedProposal.sequence).Nodup) (hperm : (first :: q).Perm l)
    (hfirst : ∀ w ∈ q, first.le w = true) :
    l.mergeSort QueuedProposal.le = first :: q.mergeSort QueuedProposal.le := by
  have hsorted := List.pairwise_mergeSort (α := QueuedProposal β) QueuedProposal.le_trans'
    QueuedProposal.le_total'
  have hq := List.mergeSort_perm q QueuedProposal.le
  have hl := List.mergeSort_perm l QueuedProposal.le
  refine List.Perm.eq_of_pairwise (fun a b ha hb hab hba => ?_) (hsorted l)
    (List.pairwise_cons.mpr ⟨fun w hw => hfirst w (hq.mem_iff.mp hw), hsorted q⟩)
    (hl.trans (hperm.symm.trans (hq.symm.cons first)))
  refine List.inj_on_of_nodup_map hdistinct (hl.mem_iff.mp ha)
    (hperm.mem_iff.mp ((hq.cons first).mem_iff.mp hb)) ?_
  rw [QueuedProposal.le_iff] at hab hba
  omega

/-- Without new submissions, the queue is processed in its order. -/
theorem burst_sorted (h : QueueInv height events s) (coalesce : Bool)
    (hworker : s.worker = .waiting) (outcomes : List (Except String ρ))
    (hlength : outcomes.length = s.queue.length) :
    ∃ s', (outcomes.flatMap (workerRound coalesce)).foldl
        (ProposalQueue.step height coalesce) s = s' ∧ s'.queue = [] ∧ s'.worker = .waiting ∧
      s'.processed.map Prod.fst =
        s.processed.map Prod.fst ++ s.queue.mergeSort QueuedProposal.le := by
  -- by induction on the rounds: each one takes the first of what is queued
  induction outcomes generalizing s events with
  | nil =>
    have hempty : s.queue = [] := List.length_eq_zero_iff.mp hlength.symm
    exact ⟨s, rfl, hempty, hworker, by rw [hempty]; simp⟩
  | cons outcome rest ih =>
    have hqueue : s.queue ≠ [] := by
      intro hempty
      rw [hempty] at hlength
      cases hlength
    obtain ⟨first, q', s₁, hperm, hfirst, hround, hq', hworker₁, hprocessed⟩ :=
      workerRound_eq h coalesce hworker hqueue outcome
    have hrun : QueueInv height (events ++ workerRound coalesce outcome) s₁ :=
      hround ▸ h.run coalesce (workerRound coalesce outcome)
    have hlength₁ : rest.length = s₁.queue.length := by
      have hcount := hperm.length_eq
      rw [hq']
      simp only [List.length_cons] at hcount hlength
      omega
    obtain ⟨s', hrest, hempty, hworker', hsorted⟩ := ih hrun hworker₁ hlength₁
    -- distinct sequence numbers make the sorted order unique
    have hdistinct : (s.queue.map QueuedProposal.sequence).Nodup := by
      have hnodup := h.nodup_sequences
      have hwaiting : s.waiting = s.queue := by unfold waiting; rw [hworker]
      rw [List.map_append, hwaiting] at hnodup
      exact (List.nodup_append.mp hnodup).2.1
    refine ⟨s', ?_, hempty, hworker', ?_⟩
    · rw [List.flatMap_cons, List.foldl_append, hround]
      exact hrest
    · rw [hsorted, hprocessed, hq', mergeSort_eq_cons hdistinct hperm hfirst]
      simp

/-- A future that is set has the outcome of its own proposal, or its request is cancelled. -/
theorem QueueInv.of_set {height : β → ℤ} {events : List (QueueEvent β ρ)} {s : ProposalQueue β ρ}
    (h : QueueInv height events s) {n : ℕ} {future : ProposalFuture ρ}
    (hfuture : s.futures[n]? = some future) (hset : future ≠ .pending) :
    (∃ outcome, (n, outcome) ∈ s.outcomes ∧ future = .of outcome) ∨
      future = .cancelled ∧ QueueEvent.cancel n ∈ events := by
  have hlt : n < s.nextSequence := by
    rw [← h.futures]
    exact (List.getElem?_eq_some_iff.mp hfuture).1
  by_cases hanswered : n ∈ s.outcomes.map Prod.fst
  · obtain ⟨⟨_, outcome⟩, ho, rfl⟩ := List.mem_map.mp hanswered
    rcases h.answered _ ho with hof | hcancelled
    · exact .inl ⟨outcome, ho, Option.some.inj (hfuture.symm.trans hof)⟩
    · exact .inr ⟨Option.some.inj (hfuture.symm.trans hcancelled), h.cancelled _ hcancelled⟩
  · rcases h.unanswered n hlt hanswered with hpending | hcancelled
    · exact absurd (Option.some.inj (hfuture.symm.trans hpending)) hset
    · exact .inr ⟨Option.some.inj (hfuture.symm.trans hcancelled), h.cancelled n hcancelled⟩

/-- Every interleaving of submissions, cancellations and the worker: each submitted proposal waits
or has been handed to the consensus, once; of two that were handed over, the one that came first was
lower in height, or equal and submitted earlier, unless the other was not yet submitted; the futures
have the outcomes of their own proposals and of no others, in every case but a cancellation; the
worker never fails; and when no more are submitted, the waiting proposals are processed in the order of the queue. -/
theorem proposals_processed_in_order (height : β → ℤ) (coalesce : Bool)
    (events : List (QueueEvent β ρ)) :
    let s := events.foldl (ProposalQueue.step height coalesce) start
    (s.processed.map Prod.fst ++ s.waiting).Perm (submittedProposals height events) ∧
    (s.processed.Pairwise fun p q => q.1.sequence < p.2 → p.1.le q.1 = true) ∧
    (∀ o ∈ s.outcomes, s.futures[o.1]? = some (.of o.2) ∨
      s.futures[o.1]? = some .cancelled ∧ QueueEvent.cancel o.1 ∈ events) ∧
    (∀ (n : ℕ) (future : ProposalFuture ρ), s.futures[n]? = some future → future ≠ .pending →
      (∃ outcome, (n, outcome) ∈ s.outcomes ∧ future = .of outcome) ∨
        future = .cancelled ∧ QueueEvent.cancel n ∈ events) ∧
    s.processed.map (fun p => p.1.sequence) =
      s.outcomes.map Prod.fst ++ s.current.map QueuedProposal.sequence ∧
    s.worker ≠ .failed ∧
    ∀ outcomes : List (Except String ρ), s.worker = .waiting →
      outcomes.length = s.queue.length →
      ∃ s', (outcomes.flatMap (workerRound coalesce)).foldl (ProposalQueue.step height coalesce) s =
          s' ∧ s'.queue = [] ∧ s'.processed.map Prod.fst =
            s.processed.map Prod.fst ++ s.queue.mergeSort QueuedProposal.le := by
  intro s
  have h : QueueInv height events s := queueInv_run height coalesce events
  refine ⟨h.perm, h.order, fun o ho => ?_, fun n future hfuture hset => h.of_set hfuture hset,
    h.outcomes, h.worker, fun outcomes hworker hlength => ?_⟩
  · exact (h.answered o ho).imp_right fun hcancel => ⟨hcancel, h.cancelled o.1 hcancel⟩
  · obtain ⟨s', hrun, hempty, -, hsorted⟩ := burst_sorted h coalesce hworker outcomes hlength
    exact ⟨s', hrun, hempty, hsorted⟩

end Picoin
