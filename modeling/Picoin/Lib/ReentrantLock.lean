import Mathlib.Data.Nat.Init
import Mathlib.Tactic.Common

/-!
# Reentrant locks

A lock that its owner may take again: it is free once it has been released as often as it was
taken. How often a thread holds it (`holds`) determines the lock, and the operations are described
by what they do to this number:

* **`acquire_eq_some`**, **`release_eq_some`** — one more and one less for the caller, nothing for
  another thread;
* **`acquire_eq_none_iff`** — whom a thread waits for;
* **`exclusive`** — two holders are one thread.
-/

universe u

/-- A reentrant lock: free, or held by an owner that has taken it once and `more` times again. -/
inductive ReentrantLock (τ : Type u) where
  | free
  | held (owner : τ) (more : ℕ)
  deriving DecidableEq, Repr

namespace ReentrantLock

variable {τ : Type u} [DecidableEq τ] {l l' : ReentrantLock τ} {t : τ}

/-- Taking the lock; `none` if the thread has to wait. -/
def acquire (l : ReentrantLock τ) (t : τ) : Option (ReentrantLock τ) :=
  match l with
  | free => some (held t 0)
  | held owner more => if owner = t then some (held owner (more + 1)) else none

/-- Giving the lock back; `none` if the thread does not hold it, which is an error. -/
def release (l : ReentrantLock τ) (t : τ) : Option (ReentrantLock τ) :=
  match l with
  | free => none
  | held owner more =>
    if owner = t then
      match more with
      | 0 => some free
      | more + 1 => some (held owner more)
    else none

/-- How often the thread has taken the lock and not given it back. -/
def holds (l : ReentrantLock τ) (t : τ) : ℕ :=
  match l with
  | free => 0
  | held owner more => if owner = t then more + 1 else 0

@[simp] theorem holds_free (t : τ) : (free : ReentrantLock τ).holds t = 0 := rfl

@[simp] theorem holds_owner (owner : τ) (more : ℕ) : (held owner more).holds owner = more + 1 :=
  if_pos rfl

theorem holds_other {owner : τ} (h : owner ≠ t) (more : ℕ) : (held owner more).holds t = 0 :=
  if_neg h

theorem holds_held (owner : τ) (more : ℕ) (t : τ) :
    (held owner more).holds t = if owner = t then more + 1 else 0 := rfl

theorem acquire_owner (owner : τ) (more : ℕ) :
    (held owner more).acquire owner = some (held owner (more + 1)) := if_pos rfl

theorem acquire_other {owner : τ} (h : owner ≠ t) (more : ℕ) : (held owner more).acquire t = none :=
  if_neg h

theorem release_last (owner : τ) : (held owner 0).release owner = some free := if_pos rfl

theorem release_owner (owner : τ) (more : ℕ) :
    (held owner (more + 1)).release owner = some (held owner more) := if_pos rfl

theorem release_other {owner : τ} (h : owner ≠ t) (more : ℕ) : (held owner more).release t = none :=
  if_neg h

theorem exclusive {u : τ} (ht : 0 < l.holds t) (hu : 0 < l.holds u) : t = u := by
  cases l with
  | free => simp at ht
  | held owner more =>
    have howner : ∀ v, 0 < (held owner more).holds v → owner = v := by
      intro v hv
      by_contra hne
      rw [holds_other hne] at hv
      exact absurd hv (Nat.lt_irrefl 0)
    exact (howner t ht).symm.trans (howner u hu)

theorem acquire_eq_some (h : l.acquire t = some l') (u : τ) :
    l'.holds u = l.holds u + if t = u then 1 else 0 := by
  cases l with
  | free =>
    obtain rfl : held t 0 = l' := Option.some.inj h
    simp [holds_held]
  | held owner more =>
    by_cases howner : owner = t
    · subst howner
      rw [acquire_owner] at h
      obtain rfl := Option.some.inj h
      by_cases hu : owner = u <;> simp [holds_held, hu]
    · rw [acquire_other howner] at h
      cases h

/-- A thread waits only for another one. -/
theorem acquire_eq_none_iff : l.acquire t = none ↔ ∃ u, u ≠ t ∧ 0 < l.holds u := by
  cases l with
  | free => simp [acquire]
  | held owner more =>
    by_cases howner : owner = t
    · subst howner
      simp only [acquire_owner, reduceCtorEq, false_iff, not_exists, not_and, Nat.not_lt, Nat.le_zero]
      intro u hu
      exact holds_other hu.symm more
    · simp only [acquire_other howner, true_iff]
      exact ⟨owner, howner, by simp⟩

theorem release_eq_some (h : l.release t = some l') (u : τ) :
    l.holds u = l'.holds u + if t = u then 1 else 0 := by
  cases l with
  | free => cases h
  | held owner more =>
    by_cases howner : owner = t
    · subst howner
      cases more with
      | zero =>
        rw [release_last] at h
        obtain rfl := Option.some.inj h
        simp [holds_held]
      | succ more =>
        rw [release_owner] at h
        obtain rfl := Option.some.inj h
        by_cases hu : owner = u <;> simp [holds_held, hu]
    · rw [release_other howner] at h
      cases h

/-- A holder can give the lock back. -/
theorem release_ne_none (h : 0 < l.holds t) : l.release t ≠ none := by
  cases l with
  | free => simp at h
  | held owner more =>
    by_cases howner : owner = t
    · subst howner
      cases more with
      | zero => simp [release_last]
      | succ more => simp [release_owner]
    · rw [holds_other howner] at h
      exact absurd h (Nat.lt_irrefl 0)

end ReentrantLock
