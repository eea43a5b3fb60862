import Mathlib.Data.List.Basic
import Mathlib.Data.List.Induction

/-!
# Runs with rollback

A system takes steps one after another; a step that raises leaves the state as it was. The rules
below lift what a step does to a whole run:

* **`attempt`** — one step with its rollback;
* **`EachStep`** — a condition that every step of a run meets in the state it starts from;
* **`invariant_of_eachStep`** — what such steps keep holds in every state that the run reaches;
* **`history_of_eachStep`** — the same for what is said of a state and of the steps before it.
-/

namespace Run

universe u v w
variable {ε : Type u} {σ : Type v} {ι : Type w}

/-- The state after a computation that may raise: an error rolls back. -/
def attempt (x : Except ε σ) (s : σ) : σ :=
  match x with
  | .ok s' => s'
  | .error _ => s

/-- A property holds after an attempt if it held before and every result has it. -/
theorem attempt_of {P : σ → Prop} {x : Except ε σ} {s : σ} (hs : P s)
    (hx : ∀ s', x = .ok s' → P s') : P (attempt x s) := by
  cases x with
  | ok s' => exact hx s' rfl
  | error e => exact hs

/-- Every step of the run from `s` meets the condition in the state before it. -/
def EachStep (step : σ → ι → σ) (P : σ → ι → Prop) : σ → List ι → Prop
  | _, [] => True
  | s, x :: xs => P s x ∧ EachStep step P (step s x) xs

/-- The condition can be checked along a run. -/
instance decidableEachStep {step : σ → ι → σ} {P : σ → ι → Prop} [∀ s x, Decidable (P s x)] :
    ∀ (s : σ) (xs : List ι), Decidable (EachStep step P s xs)
  | _, [] => .isTrue trivial
  | s, x :: xs =>
    have : Decidable (EachStep step P (step s x) xs) := decidableEachStep (step s x) xs
    inferInstanceAs (Decidable (P s x ∧ EachStep step P (step s x) xs))

/-- The states that the run from `s` reaches, the first and the last included. -/
def states (step : σ → ι → σ) : σ → List ι → List σ
  | s, [] => [s]
  | s, x :: xs => s :: states step (step s x) xs

/-- The last state is reached. -/
theorem foldl_mem_states (step : σ → ι → σ) :
    ∀ (xs : List ι) (s : σ), xs.foldl step s ∈ states step s xs
  | [], _ => List.mem_singleton_self _
  | x :: xs, s => List.mem_cons_of_mem _ (foldl_mem_states step xs (step s x))

theorem invariant_of_eachStep {step : σ → ι → σ} {P : σ → ι → Prop} {Inv : σ → Prop}
    (hstep : ∀ s x, Inv s → P s x → Inv (step s x)) :
    ∀ (xs : List ι) (s : σ), Inv s → EachStep step P s xs → ∀ s' ∈ states step s xs, Inv s'
  | [], s, hs, _, s', hs' => by
    rw [List.mem_singleton.mp hs']
    exact hs
  | x :: xs, s, hs, hrun, s', hs' => by
    obtain ⟨hx, hxs⟩ := hrun
    rcases List.mem_cons.mp hs' with rfl | hs'
    · exact hs
    · exact invariant_of_eachStep hstep xs (step s x) (hstep s x hs hx) hxs s' hs'

/-- A condition that looks at the steps only. -/
theorem eachStep_of_forall {step : σ → ι → σ} {P : ι → Prop} :
    ∀ (xs : List ι) (s : σ), (∀ x ∈ xs, P x) → EachStep step (fun _ x => P x) s xs
  | [], _, _ => trivial
  | x :: xs, s, h => ⟨h x List.mem_cons_self,
      eachStep_of_forall xs (step s x) fun y hy => h y (List.mem_cons_of_mem _ hy)⟩

theorem eachStep_concat {step : σ → ι → σ} {P : σ → ι → Prop} {x : ι} :
    ∀ {xs : List ι} {s : σ}, EachStep step P s (xs ++ [x]) ↔
      EachStep step P s xs ∧ P (xs.foldl step s) x
  | [], s => ⟨fun h => ⟨trivial, h.1⟩, fun h => ⟨h.2, trivial⟩⟩
  | y :: ys, s => by
    change P s y ∧ EachStep step P (step s y) (ys ++ [x]) ↔ _
    rw [eachStep_concat]
    exact and_assoc.symm

/-- The condition of a run in two parts. -/
theorem eachStep_append {step : σ → ι → σ} {P : σ → ι → Prop} {ys : List ι} :
    ∀ {xs : List ι} {s : σ}, EachStep step P s (xs ++ ys) ↔
      EachStep step P s xs ∧ EachStep step P (xs.foldl step s) ys
  | [], s => ⟨fun h => ⟨trivial, h⟩, fun h => h.2⟩
  | x :: xs, s => by
    change P s x ∧ EachStep step P (step s x) (xs ++ ys) ↔ _
    rw [eachStep_append]
    exact and_assoc.symm

/-- What holds before the first step, and of a run with one more step if it held of the run. -/
theorem history_of_eachStep {step : σ → ι → σ} {P : σ → ι → Prop} {Inv : List ι → σ → Prop} {s : σ}
    (hstart : Inv [] s)
    (hstep : ∀ xs x, Inv xs (xs.foldl step s) → P (xs.foldl step s) x →
      Inv (xs ++ [x]) (step (xs.foldl step s) x)) (xs : List ι) (hrun : EachStep step P s xs) :
    Inv xs (xs.foldl step s) := by
  induction xs using List.reverseRecOn with
  | nil => exact hstart
  | append_singleton xs x ih =>
    obtain ⟨hxs, hx⟩ := eachStep_concat.mp hrun
    rw [List.foldl_append]
    exact hstep xs x (ih hxs) hx

end Run
