import Mathlib.Order.Lattice
import Mathlib.Tactic.Common

/-!
# Last writer of the highest rank

A register whose values have ranks; a write replaces the value unless the value has a higher rank.
Among writes of one rank the last one stays, so two writes commute exactly when they have different
ranks, or write the same, or neither takes effect (`write_comm_iff`).
-/

namespace RankedMerge

universe u
variable {σ : Type u} (rank : σ → ℕ)

/-- The register after a write. -/
def write (old new : σ) : σ := if rank old ≤ rank new then new else old

theorem rank_write (old new : σ) : rank (write rank old new) = max (rank old) (rank new) := by
  unfold write
  split
  · next h => rw [max_eq_right h]
  · next h => rw [max_eq_left (Nat.le_of_not_le h)]

/-- The rank never decreases. -/
theorem le_rank_write (old new : σ) : rank old ≤ rank (write rank old new) := by
  rw [rank_write rank old new]
  exact le_max_left _ _

theorem write_of_lt {old new : σ} (h : rank new < rank old) : write rank old new = old :=
  if_neg (Nat.not_le_of_lt h)

theorem write_of_le {old new : σ} (h : rank old ≤ rank new) : write rank old new = new := if_pos h

/-- A repeated write does nothing. -/
theorem write_write (old new : σ) : write rank (write rank old new) new = write rank old new := by
  by_cases h : rank old ≤ rank new
  · rw [write_of_le rank h, write_of_le rank le_rfl]
  · have hlt := Nat.lt_of_not_le h
    rw [write_of_lt rank hlt, write_of_lt rank hlt]

/-- The write of a lower rank does not matter. -/
theorem write_comm_of_lt {old a b : σ} (h : rank a < rank b) :
    write rank (write rank old a) b = write rank (write rank old b) a := by
  by_cases hold : rank old ≤ rank b
  · have hleft : rank (write rank old a) ≤ rank b := by
      rw [rank_write rank old a]
      exact max_le hold h.le
    rw [write_of_le rank hleft, write_of_le rank hold, write_of_lt rank h]
  · have hlt := Nat.lt_of_not_le hold
    rw [write_of_lt rank (h.trans hlt), write_of_lt rank hlt, write_of_lt rank (h.trans hlt)]

theorem write_comm_iff (old a b : σ) :
    write rank (write rank old a) b = write rank (write rank old b) a ↔
      ¬(rank a = rank b ∧ rank old ≤ rank a ∧ a ≠ b) := by
  rcases Nat.lt_trichotomy (rank a) (rank b) with hlt | heq | hlt
  · exact iff_of_true (write_comm_of_lt rank hlt) fun h => absurd h.1 hlt.ne
  · by_cases hold : rank old ≤ rank a
    · -- both take effect, and the second one stays
      have hold' : rank old ≤ rank b := hold.trans heq.le
      rw [write_of_le rank hold, write_of_le rank hold', write_of_le rank heq.le,
        write_of_le rank heq.ge]
      constructor
      · intro hba h
        exact h.2.2 hba.symm
      · intro h
        by_contra hba
        exact h ⟨heq, hold, fun hab => hba hab.symm⟩
    · have hlt := Nat.lt_of_not_le hold
      have hlt' : rank b < rank old := heq.ge.trans_lt hlt
      rw [write_of_lt rank hlt, write_of_lt rank hlt', write_of_lt rank hlt]
      exact iff_of_true rfl fun h => hold h.2.1
  · exact iff_of_true (write_comm_of_lt rank hlt).symm fun h => absurd h.1 hlt.ne'

end RankedMerge
