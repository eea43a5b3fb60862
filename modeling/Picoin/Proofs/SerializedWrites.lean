import Picoin.Db.WriteLock

/-!
# Write sections do not interleave

A connection has an open write section from its first write statement to its next commit, rollback
or close. What the lock and the flags of the connections say is determined by the calls that reached
sqlite, thread by thread:

* **`ThreadInv`** — one thread: its share of the lock, its flags, its open sections and its phase
  agree;
* **`ThreadInv.frame`** — the other threads do not see a step;
* **`writeInv_step`** — the thread that takes the step, phase by phase;
* **`write_sections_serialized`** — every interleaving.
-/

namespace Picoin

open WriteState

variable {τ κ : Type*} [DecidableEq τ] [DecidableEq κ]

/-- What a call does to the open write sections. -/
def openSection (sections : Finset κ) : BaseCall κ → Finset κ
  | .statement c sql => if needsWriteLock sql then insert c sections else sections
  | .finish c => sections.erase c

/-- The connections with a write statement after which nothing has finished them. -/
def openWrites (calls : List (BaseCall κ)) : Finset κ := calls.foldl openSection ∅

/-- A statement that writes opens a write of its connection. -/
theorem mem_openWrites_statement {calls : List (BaseCall κ)} {c c' : κ} {sql : String} :
    c' ∈ openWrites (calls ++ [.statement c sql]) ↔
      c' ∈ openWrites calls ∨ c' = c ∧ needsWriteLock sql = true := by
  unfold openWrites
  rw [List.foldl_append]
  simp only [List.foldl_cons, List.foldl_nil, openSection]
  generalize needsWriteLock sql = write
  cases write with
  | false => simp
  | true => simp [or_comm]

/-- The end of a transaction closes it. -/
theorem openWrites_finish (calls : List (BaseCall κ)) (c : κ) :
    openWrites (calls ++ [.finish c]) = (openWrites calls).erase c := by
  unfold openWrites
  rw [List.foldl_append]
  simp only [List.foldl_cons, List.foldl_nil, openSection]

/-- A write statement runs while all open write sections are of its own thread. -/
def WritesSerialized (user : κ → τ) (calls : List (BaseCall κ)) : Prop :=
  ∀ pre c sql post, calls = pre ++ .statement c sql :: post → needsWriteLock sql = true →
    ∀ c' ∈ openWrites pre, user c' = user c

omit [DecidableEq τ] in
/-- Calls stay serialized if the next write finds no other one open. -/
theorem WritesSerialized.concat {user : κ → τ} {calls : List (BaseCall κ)} {b : BaseCall κ}
    (h : WritesSerialized user calls)
    (hb : ∀ c sql, b = .statement c sql → needsWriteLock sql = true →
      ∀ c' ∈ openWrites calls, user c' = user c) :
    WritesSerialized user (calls ++ [b]) := by
  intro pre c sql post hsplit hsql
  rcases post.eq_nil_or_concat with rfl | ⟨rest, last, rfl⟩
  · -- the statement is the new call
    obtain ⟨rfl, hlast⟩ := List.append_inj' hsplit rfl
    exact hb c sql (List.cons.inj hlast).1 hsql
  · have hassoc : calls ++ [b] = (pre ++ .statement c sql :: rest) ++ [last] := by
      rw [hsplit]
      simp
    obtain ⟨hcalls, -⟩ := List.append_inj' hassoc rfl
    exact h pre c sql rest hcalls hsql

/-! ## One thread -/

/-- Between the lock and the flag: the lock is taken, and no flag says so. -/
def WritePhase.unflagged : WritePhase κ → ℕ
  | .acquired _ _ => 1
  | .releasing _ => 1
  | _ => 0

/-- The flag is set although sqlite has no open write section, or will soon have none. -/
def WritePhase.ahead : WritePhase κ → κ → Prop
  | .executing c sql, c' => c = c' ∧ needsWriteLock sql = true
  | .finishing c, c' => c = c'
  | .finished c, c' => c = c'
  | _, _ => False

/-- What a thread knows of its connection inside a method. -/
def PhaseInv (user : κ → τ) (s : WriteState τ κ) (t : τ) : WritePhase κ → Prop
  | .idle => True
  | .waiting c sql => user c = t ∧ c ∉ s.held ∧ needsWriteLock sql = true
  | .acquired c sql => user c = t ∧ c ∉ s.held ∧ needsWriteLock sql = true
  | .executing c sql => user c = t ∧ (needsWriteLock sql = true → c ∈ s.held)
  | .exiting c => user c = t
  | .finishing c => user c = t
  | .finished c => user c = t ∧ c ∉ openWrites s.baseCalls
  | .releasing c => user c = t ∧ c ∉ s.held

/-- How many flags are set on connections of a thread. -/
def flags (user : κ → τ) (held : Finset κ) (t : τ) : ℕ := (held.filter fun c => user c = t).card

structure ThreadInv (user : κ → τ) (s : WriteState τ κ) (t : τ) : Prop where
  holds : s.lock.holds t = flags user s.held t + (s.phase t).unflagged
  phase : PhaseInv user s t (s.phase t)
  open_held : ∀ c, user c = t → c ∈ openWrites s.baseCalls → c ∈ s.held
  held_open : ∀ c, user c = t → c ∈ s.held → c ∈ openWrites s.baseCalls ∨ (s.phase t).ahead c

/-- A step changes nothing that a thread reads. -/
structure SameFor (user : κ → τ) (u : τ) (s s' : WriteState τ κ) : Prop where
  holds : s'.lock.holds u = s.lock.holds u
  phase : s'.phase u = s.phase u
  held : ∀ c, user c = u → (c ∈ s'.held ↔ c ∈ s.held)
  sections : ∀ c, user c = u → (c ∈ openWrites s'.baseCalls ↔ c ∈ openWrites s.baseCalls)

variable {user : κ → τ} {s s' : WriteState τ κ} {t u : τ} {c : κ}

omit [DecidableEq κ] in
/-- The flags of a thread are those of its connections. -/
theorem flags_congr {held held' : Finset κ} (h : ∀ c, user c = t → (c ∈ held' ↔ c ∈ held)) :
    flags user held' t = flags user held t := by
  unfold flags
  congr 1
  ext c
  simp only [Finset.mem_filter]
  exact and_congr_left fun hc => h c hc

/-- A connection that gets the lock adds a flag. -/
theorem flags_insert (huser : user c = t) (hc : c ∉ s.held) :
    flags user (insert c s.held) t = flags user s.held t + 1 := by
  unfold flags
  rw [Finset.filter_insert, if_pos huser, Finset.card_insert_of_notMem]
  simp [hc]

/-- One that gives it back takes a flag away. -/
theorem flags_erase (huser : user c = t) (hc : c ∈ s.held) :
    flags user (s.held.erase c) t + 1 = flags user s.held t := by
  unfold flags
  rw [Finset.filter_erase]
  exact Finset.card_erase_add_one (Finset.mem_filter.mpr ⟨hc, huser⟩)

omit [DecidableEq κ] in
/-- A thread with a flagged connection has a flag. -/
theorem flags_pos (huser : user c = t) (hc : c ∈ s.held) : 0 < flags user s.held t :=
  Finset.card_pos.mpr ⟨c, Finset.mem_filter.mpr ⟨hc, huser⟩⟩

namespace ThreadInv

/-- A step of another thread preserves it. -/
theorem frame (h : ThreadInv user s u) (hsame : SameFor user u s s') : ThreadInv user s' u where
  holds := by rw [hsame.holds, hsame.phase, flags_congr hsame.held, h.holds]
  phase := by
    have hphase := h.phase
    rw [hsame.phase]
    cases hp : s.phase u <;> rw [hp] at hphase
    case idle => trivial
    case waiting c sql =>
      exact ⟨hphase.1, fun hc => hphase.2.1 ((hsame.held c hphase.1).mp hc), hphase.2.2⟩
    case acquired c sql =>
      exact ⟨hphase.1, fun hc => hphase.2.1 ((hsame.held c hphase.1).mp hc), hphase.2.2⟩
    case executing c sql =>
      exact ⟨hphase.1, fun hsql => (hsame.held c hphase.1).mpr (hphase.2 hsql)⟩
    case exiting c => exact hphase
    case finishing c => exact hphase
    case finished c => exact ⟨hphase.1, fun hc => hphase.2 ((hsame.sections c hphase.1).mp hc)⟩
    case releasing c => exact ⟨hphase.1, fun hc => hphase.2 ((hsame.held c hphase.1).mp hc)⟩
  open_held c hc hopen := (hsame.held c hc).mpr (h.open_held c hc ((hsame.sections c hc).mp hopen))
  held_open c hc hheld := by
    rw [hsame.phase, hsame.sections c hc]
    exact h.held_open c hc ((hsame.held c hc).mp hheld)

/-- An open write section holds the lock. -/
theorem holds_pos (h : ThreadInv user s t) (huser : user c = t)
    (hopen : c ∈ openWrites s.baseCalls) : 0 < s.lock.holds t := by
  have hflags := flags_pos huser (h.open_held c huser hopen)
  have hholds := h.holds
  omega

end ThreadInv

namespace SameFor

/-- Steps that change nothing for a thread follow each other. -/
theorem trans {s₁ : WriteState τ κ} (h : SameFor user u s s₁) (h' : SameFor user u s₁ s') :
    SameFor user u s s' where
  holds := h'.holds.trans h.holds
  phase := h'.phase.trans h.phase
  held c hc := (h'.held c hc).trans (h.held c hc)
  sections c hc := (h'.sections c hc).trans (h.sections c hc)

/-- The phase of another thread is none of its own. -/
theorem of_setPhase (hu : u ≠ t) (s : WriteState τ κ) (p : WritePhase κ) :
    SameFor user u s (s.setPhase t p) :=
  ⟨rfl, phase_setPhase_of_ne hu s p, fun _ _ => Iff.rfl, fun _ _ => Iff.rfl⟩

/-- A lock that it holds as often is the same for it. -/
theorem of_lock {lock : ReentrantLock τ} (h : lock.holds u = s.lock.holds u) :
    SameFor user u s { s with lock := lock } :=
  ⟨h, rfl, fun _ _ => Iff.rfl, fun _ _ => Iff.rfl⟩

/-- So are flags that agree on its connections. -/
theorem of_held {held : Finset κ} (h : ∀ c, user c = u → (c ∈ held ↔ c ∈ s.held)) :
    SameFor user u s { s with held := held } :=
  ⟨rfl, rfl, h, fun _ _ => Iff.rfl⟩

/-- The statement of another thread changes nothing for it. -/
theorem of_statement (hc : user c ≠ u) (sql : String) :
    SameFor user u s (s.callBase (.statement c sql)) := by
  refine ⟨rfl, rfl, fun _ _ => Iff.rfl, fun c' hc' => ?_⟩
  have hne : c' ≠ c := fun heq => hc (heq ▸ hc')
  unfold WriteState.callBase
  rw [mem_openWrites_statement]
  simp [hne]

/-- Nor does the end of its transaction. -/
theorem of_finish (hc : user c ≠ u) : SameFor user u s (s.callBase (.finish c)) := by
  refine ⟨rfl, rfl, fun _ _ => Iff.rfl, fun c' hc' => ?_⟩
  have hne : c' ≠ c := fun heq => hc (heq ▸ hc')
  unfold WriteState.callBase
  rw [openWrites_finish]
  simp [hne]

end SameFor

structure WriteInv (user : κ → τ) (s : WriteState τ κ) : Prop where
  threads : ∀ t, ThreadInv user s t
  serialized : WritesSerialized user s.baseCalls
  raised : s.raised = []

/-! ## The steps -/

/-- It holds before the first call. -/
theorem writeInv_start : WriteInv user (start : WriteState τ κ) where
  threads _ := ⟨rfl, trivial, fun _ _ h => h, fun _ _ h => absurd h (Finset.notMem_empty _)⟩
  serialized pre c sql post hsplit := by
    have hlen := congrArg List.length hsplit
    simp [start] at hlen
  raised := rfl

namespace WriteInv

/-- A step of thread `t`: the others see nothing of it. -/
theorem of_step (h : WriteInv user s) (t : τ) (hsame : ∀ u, u ≠ t → SameFor user u s s')
    (ht : ThreadInv user s' t) (hserial : WritesSerialized user s'.baseCalls)
    (hraised : s'.raised = s.raised) : WriteInv user s' where
  threads u := by
    by_cases hu : u = t
    · rw [hu]
      exact ht
    · exact (h.threads u).frame (hsame u hu)
  serialized := hserial
  raised := hraised.trans h.raised

/-- A thread enters a phase, and does nothing else. -/
theorem setPhase (h : WriteInv user s) {p : WritePhase κ}
    (hunflagged : p.unflagged = (s.phase t).unflagged) (hphase : PhaseInv user s t p)
    (hahead : ∀ c ∈ s.held, (s.phase t).ahead c → c ∈ openWrites s.baseCalls ∨ p.ahead c) :
    WriteInv user (s.setPhase t p) := by
  have hold := h.threads t
  refine h.of_step t (fun u hu => .of_setPhase hu s p) ?_ h.serialized rfl
  constructor
  case holds => rw [phase_setPhase_self, hunflagged]; exact hold.holds
  case phase => rw [phase_setPhase_self]; cases p <;> exact hphase
  case open_held => exact hold.open_held
  case held_open =>
    intro c hc hheld
    rw [phase_setPhase_self]
    rcases hold.held_open c hc hheld with hopen | hpending
    · exact .inl hopen
    · exact hahead c hheld hpending

/-- A call of a method preserves it. -/
theorem callMethod (h : WriteInv user s) (hidle : s.phase (user c) = .idle)
    (method : ConnectionMethod) : WriteInv user (s.callMethod (user c) c method) := by
  have hahead : ∀ p : WritePhase κ, ∀ c' ∈ s.held, (s.phase (user c)).ahead c' →
      c' ∈ openWrites s.baseCalls ∨ p.ahead c' := by
    intro p c' _ hpending
    rw [hidle] at hpending
    exact hpending.elim
  have hacquire : ∀ sql, WriteInv user (s.acquireWriteLockIfNeeded (user c) c sql) := by
    intro sql
    unfold WriteState.acquireWriteLockIfNeeded
    split
    case isTrue hskip =>
      refine h.setPhase (by rw [hidle]; rfl) ⟨rfl, fun hsql => ?_⟩ (hahead _)
      rcases hskip with hheld | hread
      · exact hheld
      · exact absurd (hread.symm.trans hsql) Bool.false_ne_true
    case isFalse hneed =>
      obtain ⟨hheld, hsql⟩ := not_or.mp hneed
      exact h.setPhase (by rw [hidle]; rfl) ⟨rfl, hheld, by simpa using hsql⟩ (hahead _)
  cases method
  case execute sql => exact hacquire sql
  case executemany sql => exact hacquire sql
  case executescript sqlScript => exact hacquire sqlScript
  case exit => exact h.setPhase (by rw [hidle]; rfl) rfl (hahead _)
  all_goals exact h.setPhase (by rw [hidle]; rfl) rfl (hahead _)

/-- The lock is taken. -/
theorem acquire (h : WriteInv user s) {sql : String} {lock : ReentrantLock τ}
    (hp : s.phase t = .waiting c sql) (hlock : s.lock.acquire t = some lock) :
    WriteInv user ({ s with lock := lock }.setPhase t (.acquired c sql)) := by
  have hold := h.threads t
  have hholds := hold.holds
  have hphase := hold.phase
  rw [hp] at hholds hphase
  have hadd := ReentrantLock.acquire_eq_some hlock
  refine h.of_step t (fun u hu => ?_) ?_ h.serialized rfl
  · refine (SameFor.of_lock ?_).trans (.of_setPhase hu _ _)
    rw [hadd u, if_neg hu.symm, Nat.add_zero]
  · constructor
    case holds =>
      rw [phase_setPhase_self]
      change lock.holds t = flags user s.held t + 1
      rw [hadd t, if_pos rfl, hholds]
      rfl
    case phase => rw [phase_setPhase_self]; exact hphase
    case open_held => exact hold.open_held
    case held_open =>
      intro c' hc' hheld
      rcases hold.held_open c' hc' hheld with hopen | hpending
      · exact .inl hopen
      · rw [hp] at hpending
        exact hpending.elim

/-- The flag is set. -/
theorem setFlag (h : WriteInv user s) {sql : String} (hp : s.phase t = .acquired c sql) :
    WriteInv user ({ s with held := insert c s.held }.setPhase t (.executing c sql)) := by
  have hold := h.threads t
  have hholds := hold.holds
  have hphase := hold.phase
  rw [hp] at hholds hphase
  obtain ⟨huser, hheld, hsql⟩ := hphase
  refine h.of_step t (fun u hu => ?_) ?_ h.serialized rfl
  · refine (SameFor.of_held fun c' hc' => ?_).trans (.of_setPhase hu _ _)
    have hne : c' ≠ c := fun heq => hu (by rw [← hc', heq, huser])
    simp [hne]
  · constructor
    case holds =>
      rw [phase_setPhase_self]
      change s.lock.holds t = flags user (insert c s.held) t + 0
      rw [flags_insert huser hheld, hholds]
      rfl
    case phase => rw [phase_setPhase_self]; exact ⟨huser, fun _ => Finset.mem_insert_self c _⟩
    case open_held => exact fun c' hc' hopen => Finset.mem_insert_of_mem (hold.open_held c' hc' hopen)
    case held_open =>
      intro c' hc' hmem
      rw [phase_setPhase_self]
      rcases Finset.mem_insert.mp hmem with rfl | hmem
      · exact .inr ⟨rfl, hsql⟩
      · rcases hold.held_open c' hc' hmem with hopen | hpending
        · exact .inl hopen
        · rw [hp] at hpending
          exact hpending.elim

/-- The statement reaches sqlite. -/
theorem execute (h : WriteInv user s) {sql : String} (hp : s.phase t = .executing c sql) :
    WriteInv user ((s.callBase (.statement c sql)).setPhase t .idle) := by
  have hold := h.threads t
  have hholds := hold.holds
  have hphase := hold.phase
  rw [hp] at hholds hphase
  obtain ⟨huser, hheld⟩ := hphase
  refine h.of_step t (fun u hu => ?_) ?_ ?_ rfl
  · exact (SameFor.of_statement (huser ▸ hu.symm) sql).trans (.of_setPhase hu _ _)
  · constructor
    case holds => rw [phase_setPhase_self]; exact hholds
    case phase => rw [phase_setPhase_self]; trivial
    case open_held =>
      intro c' hc' hopen
      rcases mem_openWrites_statement.mp hopen with hopen | ⟨rfl, hsql⟩
      · exact hold.open_held c' hc' hopen
      · exact hheld hsql
    case held_open =>
      intro c' hc' hmem
      refine .inl (mem_openWrites_statement.mpr ?_)
      rcases hold.held_open c' hc' hmem with hopen | hpending
      · exact .inl hopen
      · rw [hp] at hpending
        exact .inr ⟨hpending.1.symm, hpending.2⟩
  · refine h.serialized.concat fun c' sql' heq hsql c₁ hopen => ?_
    obtain ⟨rfl, rfl⟩ := BaseCall.statement.inj heq
    -- both connections hold the lock
    refine ReentrantLock.exclusive ((h.threads (user c₁)).holds_pos rfl hopen) ?_
    have hflags := flags_pos huser (hheld hsql)
    rw [huser, hholds]
    omega

/-- The commit, the rollback or the close of the base class. -/
theorem finish (h : WriteInv user s) {p : WritePhase κ} (huser : user c = t)
    (hp : (s.phase t).unflagged = 0) (hp' : p.unflagged = 0)
    (hahead : ∀ c', (s.phase t).ahead c' → c' = c) (hahead' : p.ahead c)
    (hphase : c ∉ openWrites (s.callBase (.finish c)).baseCalls →
      PhaseInv user (s.callBase (.finish c)) t p) :
    WriteInv user ((s.callBase (.finish c)).setPhase t p) := by
  have hold := h.threads t
  have hholds := hold.holds
  have hsections : openWrites (s.callBase (.finish c)).baseCalls =
      (openWrites s.baseCalls).erase c := openWrites_finish s.baseCalls c
  refine h.of_step t (fun u hu => ?_) ?_ ?_ rfl
  · exact (SameFor.of_finish (huser ▸ hu.symm)).trans (.of_setPhase hu _ _)
  · constructor
    case holds => rw [phase_setPhase_self, hp']; rw [hp] at hholds; exact hholds
    case phase =>
      rw [phase_setPhase_self]
      have hthis := hphase (by rw [hsections]; exact Finset.notMem_erase c _)
      cases p <;> exact hthis
    case open_held =>
      intro c' hc' hopen
      refine hold.open_held c' hc' ?_
      change c' ∈ openWrites (s.callBase (.finish c)).baseCalls at hopen
      rw [hsections] at hopen
      exact Finset.mem_of_mem_erase hopen
    -- the call that finishes leaves the open ones, and is what comes next
    case held_open =>
      intro c' hc' hmem
      rw [phase_setPhase_self]
      change c' ∈ openWrites (s.callBase (.finish c)).baseCalls ∨ _
      rw [hsections]
      by_cases hc : c' = c
      · rw [hc]
        exact .inr hahead'
      · rcases hold.held_open c' hc' hmem with hopen | hpending
        · exact .inl (Finset.mem_erase.mpr ⟨hc, hopen⟩)
        · exact absurd (hahead c' hpending) hc
  · exact h.serialized.concat fun _ _ heq => nomatch heq

/-- The flag is cleared. -/
theorem clearFlag (h : WriteInv user s) (hp : s.phase t = .finished c) (hheld : c ∈ s.held) :
    WriteInv user ({ s with held := s.held.erase c }.setPhase t (.releasing c)) := by
  have hold := h.threads t
  have hholds := hold.holds
  have hphase := hold.phase
  rw [hp] at hholds hphase
  obtain ⟨huser, hclosed⟩ := hphase
  refine h.of_step t (fun u hu => ?_) ?_ h.serialized rfl
  · refine (SameFor.of_held fun c' hc' => ?_).trans (.of_setPhase hu _ _)
    have hne : c' ≠ c := fun heq => hu (by rw [← hc', heq, huser])
    simp [hne]
  · constructor
    case holds =>
      rw [phase_setPhase_self]
      change s.lock.holds t = flags user (s.held.erase c) t + 1
      rw [flags_erase huser hheld, hholds]
      rfl
    case phase => rw [phase_setPhase_self]; exact ⟨huser, Finset.notMem_erase c _⟩
    case open_held =>
      intro c' hc' hopen
      refine Finset.mem_erase.mpr ⟨fun heq => hclosed (heq ▸ hopen), hold.open_held c' hc' hopen⟩
    case held_open =>
      intro c' hc' hmem
      obtain ⟨hne, hmem⟩ := Finset.mem_erase.mp hmem
      rcases hold.held_open c' hc' hmem with hopen | hpending
      · exact .inl hopen
      · rw [hp] at hpending
        exact absurd hpending.symm hne

/-- The lock is given back. -/
theorem release (h : WriteInv user s) {lock : ReentrantLock τ} (hp : s.phase t = .releasing c)
    (hlock : s.lock.release t = some lock) :
    WriteInv user ({ s with lock := lock }.setPhase t .idle) := by
  have hold := h.threads t
  have hholds := hold.holds
  rw [hp] at hholds
  have hsub := ReentrantLock.release_eq_some hlock
  refine h.of_step t (fun u hu => ?_) ?_ h.serialized rfl
  · refine (SameFor.of_lock ?_).trans (.of_setPhase hu _ _)
    rw [hsub u, if_neg hu.symm, Nat.add_zero]
  · constructor
    case holds =>
      rw [phase_setPhase_self]
      have ht := hsub t
      rw [if_pos rfl, hholds] at ht
      exact (Nat.add_right_cancel ht).symm
    case phase => rw [phase_setPhase_self]; trivial
    case open_held => exact hold.open_held
    case held_open =>
      intro c' hc' hmem
      rcases hold.held_open c' hc' hmem with hopen | hpending
      · exact .inl hopen
      · rw [hp] at hpending
        exact hpending.elim

/-- The next step of a method preserves it. -/
theorem resumeMethod (h : WriteInv user s) (t : τ) : WriteInv user (s.resumeMethod t) := by
  have hphase := (h.threads t).phase
  have hholds := (h.threads t).holds
  unfold WriteState.resumeMethod
  cases hp : s.phase t <;> rw [hp] at hphase hholds <;> dsimp only
  case idle => exact h
  case waiting c sql =>
    cases hlock : s.lock.acquire t with
    | none => exact h
    | some lock => exact h.acquire hp hlock
  case acquired c sql => exact h.setFlag hp
  case executing c sql => exact h.execute hp
  case exiting c =>
    exact h.finish hphase (by rw [hp]; rfl) rfl (by rw [hp]; exact fun _ hf => hf.elim) rfl
      fun _ => hphase
  case finishing c =>
    exact h.finish hphase (by rw [hp]; rfl) rfl (by rw [hp]; exact fun _ heq => heq.symm) rfl
      fun hclosed => ⟨hphase, hclosed⟩
  case finished c =>
    split
    case isTrue hheld => exact h.clearFlag hp hheld
    case isFalse hheld =>
      refine h.setPhase (by rw [hp]; rfl) trivial fun c' hheld' hpending => ?_
      rw [hp] at hpending
      exact absurd (show c ∈ s.held from hpending ▸ hheld') hheld
  case releasing c =>
    cases hlock : s.lock.release t with
    | some lock => exact h.release hp hlock
    | none =>
      refine absurd hlock (ReentrantLock.release_ne_none ?_)
      rw [hholds]
      exact Nat.succ_pos _

end WriteInv

/-! ## Every interleaving -/

/-- So does every event. -/
theorem writeInv_step (h : WriteInv user s) (e : WriteEvent τ κ) :
    WriteInv user (writeStep user s e) := by
  cases e with
  | resume t => exact h.resumeMethod t
  | call c method =>
    unfold writeStep
    dsimp only
    split
    case h_1 hidle => exact h.callMethod hidle method
    case h_2 => exact h

/-- It holds after any run. -/
theorem writeInv_run (run : List (WriteEvent τ κ)) :
    WriteInv user (run.foldl (writeStep user) start) := by
  induction run using List.reverseRecOn with
  | nil => exact writeInv_start
  | append_singleton events e ih =>
    rw [List.foldl_append]
    exact writeInv_step ih e

/-- A thread inside a method goes on, unless it waits for the lock. -/
theorem resumeMethod_ne (h : WriteInv user s) (hidle : s.phase t ≠ .idle)
    (hwait : ∀ c sql, s.phase t = .waiting c sql → s.lock.acquire t ≠ none) :
    (s.resumeMethod t).phase t ≠ s.phase t := by
  have hholds := (h.threads t).holds
  unfold WriteState.resumeMethod
  cases hp : s.phase t <;> rw [hp] at hholds <;> dsimp only
  case idle => exact absurd hp hidle
  case waiting c sql =>
    cases hlock : s.lock.acquire t with
    | none => exact absurd hlock (hwait c sql hp)
    | some lock => simp
  case releasing c => cases hlock : s.lock.release t <;> simp
  case finished c => split <;> simp
  all_goals simp

/-- In every interleaving of the threads: a write statement runs while no other thread has an open
write section, the lock is always given back by its holder, a thread waits only for one that can go
on, and outside the methods a thread holds the lock once for each of its open write sections. -/
theorem write_sections_serialized (user : κ → τ) (run : List (WriteEvent τ κ)) :
    let s := run.foldl (writeStep user) start
    WritesSerialized user s.baseCalls ∧
    s.raised = [] ∧
    (∀ t c sql, s.phase t = .waiting c sql → s.resumeMethod t = s →
      ∃ u, u ≠ t ∧ 0 < s.lock.holds u ∧
        ((s.phase u = .idle ∧ ∃ c' ∈ openWrites s.baseCalls, user c' = u) ∨
          (s.resumeMethod u).phase u ≠ s.phase u)) ∧
    ∀ t, s.phase t = .idle →
      s.lock.holds t = ((openWrites s.baseCalls).filter fun c => user c = t).card := by
  intro s
  have h : WriteInv user s := writeInv_run run
  have hidle : ∀ t, s.phase t = .idle →
      s.lock.holds t = ((openWrites s.baseCalls).filter fun c => user c = t).card := by
    intro t hp
    have ht := h.threads t
    rw [ht.holds, hp]
    refine congrArg Finset.card (Finset.ext fun c => ?_)
    simp only [Finset.mem_filter]
    refine and_congr_left fun huser => ⟨fun hheld => ?_, ht.open_held c huser⟩
    have hopen := ht.held_open c huser hheld
    rw [hp] at hopen
    exact hopen.resolve_right id
  refine ⟨h.serialized, h.raised, fun t c sql hp hstuck => ?_, hidle⟩
  have hnone : s.lock.acquire t = none := by
    by_contra hsome
    refine resumeMethod_ne h (by simp [hp]) (fun _ _ _ => hsome) (congrFun (congrArg _ hstuck) t)
  obtain ⟨u, hne, hu⟩ := ReentrantLock.acquire_eq_none_iff.mp hnone
  refine ⟨u, hne, hu, ?_⟩
  by_cases hpu : s.phase u = .idle
  · left
    have hcard := hidle u hpu
    obtain ⟨c', hc'⟩ := Finset.card_pos.mp (hcard ▸ hu)
    exact ⟨hpu, c', Finset.mem_filter.mp hc'⟩
  · right
    refine resumeMethod_ne h hpu fun _ _ _ hblocked => ?_
    -- the holder never waits for the lock
    obtain ⟨v, hvu, hv⟩ := ReentrantLock.acquire_eq_none_iff.mp hblocked
    exact hvu (ReentrantLock.exclusive hv hu)

end Picoin
