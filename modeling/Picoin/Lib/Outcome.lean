import Mathlib.Data.List.Forall2

/-!
# Computations that return a state or raise

A program step that can raise is a function into `Except ε`. This module has the three rules
used to reason about such steps without unfolding them:

* **inversion** — a returning sequence has an intermediate result (`bind_eq_ok`), and a
  returning check has passed (`guardNone_bind_eq_ok`);
* **invariants** — what every step of a loop keeps, the loop keeps (`foldlM_invariant`,
  `foldlM_relates`);
* **simulation** — `Agree R` says that two computations both raise, or both return related
  results; it is closed under sequencing (`Agree.bind`) and under loops (`Agree.foldlM`).
-/

namespace Outcome

universe u
variable {ε ε' α β α' β' σ σ' ι : Type u}

/-! ## Inversion -/

theorem bind_eq_ok {x : Except ε α} {f : α → Except ε β} {b : β} :
    x >>= f = .ok b ↔ ∃ a, x = .ok a ∧ f a = .ok b := by
  cases x with
  | error e =>
    constructor
    · intro h; cases h
    · rintro ⟨a, h, -⟩; cases h
  | ok a =>
    constructor
    · intro h; exact ⟨a, rfl, h⟩
    · rintro ⟨a', h, hf⟩; cases h; exact hf

theorem pure_eq_ok {a b : α} : (pure a : Except ε α) = .ok b ↔ a = b := by
  constructor
  · intro h; cases h; rfl
  · rintro rfl; rfl

/-- A computation that returns for a list has returned for each of its elements. -/
theorem forall₂_of_mapM {f : α → Except ε β} :
    ∀ {l : List α} {ys : List β}, l.mapM f = .ok ys → List.Forall₂ (fun x y => f x = .ok y) l ys
  | [], ys, h => by
    rw [List.mapM_nil] at h
    rw [← pure_eq_ok.mp h]
    exact .nil
  | x :: xs, ys, h => by
    rw [List.mapM_cons] at h
    obtain ⟨y, hy, h⟩ := bind_eq_ok.mp h
    obtain ⟨rest, hrest, h⟩ := bind_eq_ok.mp h
    rw [← pure_eq_ok.mp h]
    exact .cons hy (forall₂_of_mapM hrest)

/-- A computation that returns for every element returns as many results. -/
theorem length_of_mapM {f : α → Except ε β} {l : List α} {ys : List β} (h : l.mapM f = .ok ys) :
    ys.length = l.length :=
  (forall₂_of_mapM h).length_eq.symm

/-- A check of every item of a list has passed for each of them. -/
theorem of_forM_eq_ok {f : α → Except ε PUnit.{u + 1}} :
    ∀ {xs : List α}, xs.forM f = .ok ⟨⟩ → ∀ x ∈ xs, f x = .ok ⟨⟩
  | [], _, x, hx => nomatch hx
  | y :: ys, h, x, hx => by
    change (f y >>= fun _ => ys.forM f) = _ at h
    obtain ⟨_, hy, hys⟩ := bind_eq_ok.mp h
    rcases List.mem_cons.mp hx with heq | hrest
    · rw [heq]
      exact hy
    · exact of_forM_eq_ok hys x hrest

/-- An error of another kind is an error. -/
theorem mapError_eq_ok {x : Except ε α} {f : ε → ε'} {a : α} :
    x.mapError f = .ok a ↔ x = .ok a := by
  cases x with
  | ok b =>
    constructor
    · intro h; cases h; rfl
    · intro h; cases h; rfl
  | error e =>
    constructor
    · intro h; cases h
    · intro h; cases h

theorem map_eq_ok {x : Except ε α} {f : α → β} {b : β} :
    x.map f = .ok b ↔ ∃ a, x = .ok a ∧ f a = b := by
  cases x with
  | error e =>
    constructor
    · intro h; cases h
    · rintro ⟨a, h, -⟩; cases h
  | ok a =>
    constructor
    · intro h; cases h; exact ⟨a, rfl, rfl⟩
    · rintro ⟨a', h, rfl⟩; cases h; rfl

/-- Raise the error a check reports, if it reports one. -/
def guardNone (reason : Option ε) : Except ε PUnit :=
  match reason with
  | some e => .error e
  | none => .ok ⟨⟩

theorem guardNone_eq_ok {reason : Option ε} {u : PUnit} :
    guardNone reason = .ok u ↔ reason = none := by
  cases reason <;> simp [guardNone]

theorem guardNone_bind_eq_ok {reason : Option ε} {f : PUnit → Except ε β} {b : β} :
    guardNone reason >>= f = .ok b ↔ reason = none ∧ f ⟨⟩ = .ok b := by
  rw [bind_eq_ok]
  constructor
  · rintro ⟨u, hu, hf⟩; exact ⟨guardNone_eq_ok.mp hu, hf⟩
  · rintro ⟨hr, hf⟩; exact ⟨⟨⟩, guardNone_eq_ok.mpr hr, hf⟩

/-- The computation returns a result with the property; decidable, to evaluate concrete runs. -/
def returns (x : Except ε α) (p : α → Bool) : Bool :=
  match x with
  | .ok a => p a
  | .error _ => false

theorem exists_of_returns {x : Except ε α} {p : α → Bool} (h : returns x p = true) :
    ∃ a, x = .ok a ∧ p a = true := by
  cases x with
  | ok a => exact ⟨a, rfl, h⟩
  | error e => cases h

theorem exists_ok_iff_returns {x : Except ε α} :
    (∃ a, x = .ok a) ↔ returns x (fun _ => true) = true := by
  cases x <;> simp [returns]

/-! ## Loops -/

/-- What every returning step of a loop keeps holds of the loop's result. -/
theorem foldlM_invariant {f : σ → ι → Except ε σ} (P : σ → Prop) :
    ∀ (l : List ι), (∀ x ∈ l, ∀ s s', P s → f s x = .ok s' → P s') →
      ∀ s s', P s → l.foldlM f s = .ok s' → P s'
  | [], _, s, s', hs, h => by
    rw [List.foldlM_nil] at h
    cases h; exact hs
  | x :: l, hstep, s, s', hs, h => by
    rw [List.foldlM_cons] at h
    obtain ⟨s₁, hx, hl⟩ := bind_eq_ok.mp h
    exact foldlM_invariant P l (fun y hy => hstep y (List.mem_cons_of_mem _ hy)) s₁ s'
      (hstep x List.mem_cons_self s s₁ hs hx) hl

/-- A reflexive and transitive relation that every returning step satisfies relates the
first and the last state of a loop. -/
theorem foldlM_relates {f : σ → ι → Except ε σ} (R : σ → σ → Prop) (hrefl : ∀ s, R s s)
    (htrans : ∀ {a b c}, R a b → R b c → R a c) {l : List ι}
    (hstep : ∀ x ∈ l, ∀ s s', f s x = .ok s' → R s s') {s s' : σ}
    (h : l.foldlM f s = .ok s') : R s s' :=
  foldlM_invariant (R s) l (fun x hx _ _ ha hab => htrans ha (hstep x hx _ _ hab)) s s' (hrefl s) h

/-- Every turn of a returning loop returns. -/
theorem foldlM_forall {f : σ → ι → Except ε σ} :
    ∀ (l : List ι) (s s' : σ), l.foldlM f s = .ok s' → ∀ x ∈ l, ∃ s₁ s₂, f s₁ x = .ok s₂
  | [], _, _, _, _, hx => nomatch hx
  | y :: l, s, s', h, x, hx => by
    rw [List.foldlM_cons] at h
    obtain ⟨s₁, hy, hl⟩ := bind_eq_ok.mp h
    rcases List.mem_cons.mp hx with rfl | hx
    · exact ⟨s, s₁, hy⟩
    · exact foldlM_forall l s₁ s' hl x hx

/-- Loops with equal steps are equal. -/
theorem foldlM_congr {f g : σ → ι → Except ε σ} :
    ∀ (l : List ι), (∀ x ∈ l, ∀ s, f s x = g s x) → ∀ s, l.foldlM f s = l.foldlM g s
  | [], _, _ => rfl
  | x :: l, h, s => by
    rw [List.foldlM_cons, List.foldlM_cons, h x List.mem_cons_self s]
    congr 1
    funext s'
    exact foldlM_congr l (fun y hy => h y (List.mem_cons_of_mem _ hy)) s'

/-! ## Simulation -/

/-- Both computations raise, or both return and the results are related. -/
def Agree (R : α → β → Prop) : Except ε α → Except ε' β → Prop
  | .ok a, .ok b => R a b
  | .error _, .error _ => True
  | _, _ => False

theorem Agree.ok {R : α → β → Prop} {a : α} {b : β} (h : R a b) :
    Agree R (.ok a : Except ε α) (.ok b : Except ε' β) := h

theorem Agree.error {R : α → β → Prop} (e : ε) (e' : ε') :
    Agree R (.error e : Except ε α) (.error e' : Except ε' β) := trivial

/-- A computation agrees with itself. -/
theorem Agree.rfl_eq (x : Except ε α) : Agree Eq x x := by
  cases x <;> trivial

theorem Agree.bind {R : α → β → Prop} {S : α' → β' → Prop} {x : Except ε α} {y : Except ε' β}
    {f : α → Except ε α'} {g : β → Except ε' β'} (h : Agree R x y)
    (hfg : ∀ a b, x = .ok a → y = .ok b → R a b → Agree S (f a) (g b)) :
    Agree S (x >>= f) (y >>= g) := by
  cases x <;> cases y
  · trivial
  · exact h.elim
  · exact h.elim
  · exact hfg _ _ rfl rfl h

/-- The relation between the results may use what the computations returned. -/
theorem Agree.strengthen {R S : α → β → Prop} {x : Except ε α} {y : Except ε' β} (h : Agree R x y)
    (hRS : ∀ a b, x = .ok a → y = .ok b → R a b → S a b) : Agree S x y := by
  cases x <;> cases y
  · trivial
  · exact h.elim
  · exact h.elim
  · exact hRS _ _ rfl rfl h

theorem Agree.ok_iff {R : α → β → Prop} {x : Except ε α} {y : Except ε' β} (h : Agree R x y) :
    (∃ a, x = .ok a) ↔ ∃ b, y = .ok b := by
  cases x <;> cases y <;> simp_all [Agree]

theorem Agree.of_ok {R : α → β → Prop} {x : Except ε α} {y : Except ε' β} (h : Agree R x y)
    {a : α} {b : β} (hx : x = .ok a) (hy : y = .ok b) : R a b := by
  subst hx hy
  exact h

/-- Two checks agree when both or neither report an error. -/
theorem Agree.guardNone {r : Option ε} {r' : Option ε'} (h : r = none ↔ r' = none) :
    Agree (fun _ _ : PUnit => True) (guardNone r) (guardNone r') := by
  cases r <;> cases r' <;> first | trivial | simp at h

/-- Two loops over the same list agree when their steps do from related states. The step
hypothesis only has to hold for elements of the list. -/
theorem Agree.foldlM {R : σ → σ' → Prop} {f : σ → ι → Except ε σ} {g : σ' → ι → Except ε' σ'} :
    ∀ (l : List ι), (∀ x ∈ l, ∀ s t, R s t → Agree R (f s x) (g t x)) →
      ∀ s t, R s t → Agree R (l.foldlM f s) (l.foldlM g t)
  | [], _, _, _, h => h
  | x :: l, hstep, s, t, h => by
    rw [List.foldlM_cons, List.foldlM_cons]
    refine (hstep x List.mem_cons_self s t h).bind fun a b _ _ hab => ?_
    exact Agree.foldlM l (fun y hy => hstep y (List.mem_cons_of_mem _ hy)) a b hab

/-- What the relation says. -/
theorem agree_iff {R : α → β → Prop} {x : Except ε α} {y : Except ε' β} :
    Agree R x y ↔ ((∃ a, x = .ok a) ↔ ∃ b, y = .ok b) ∧ ∀ a b, x = .ok a → y = .ok b → R a b := by
  refine ⟨fun h => ⟨h.ok_iff, fun _ _ => h.of_ok⟩, fun h => ?_⟩
  cases x <;> cases y
  · trivial
  · exact absurd (h.1.mpr ⟨_, rfl⟩) (by simp)
  · exact absurd (h.1.mp ⟨_, rfl⟩) (by simp)
  · exact h.2 _ _ rfl rfl

-- the rules above are the interface; goals about long computations must not be unfolded
attribute [irreducible] Agree

end Outcome
