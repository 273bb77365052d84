import CryptobotAlgo.Machine.Basic
import Mathlib.Algebra.BigOperators.Group.List.Basic
import Mathlib.Algebra.GroupWithZero.Nat

/-!
# Quantities that a run accumulates

`sumSteps f` adds up `f`, a quantity that each step contributes, along a run.  `potential` is the
conservation rule: where every enabled step changes `φ` by `f`, a legal run changes it by the sum.
-/

namespace CryptobotAlgo.Machine

variable {σ ε α A : Type*} (M : Machine σ ε α)

/-- The sum of `f`, a function of the state before a step and its event, over the steps of a run. -/
def sumSteps [Add A] [Zero A] (f : σ → ε → A) : σ → List ε → A
  | _, [] => 0
  | s, e :: es => f s e + sumSteps f (M.step s e).1 es

section

variable [AddMonoid A] (f : σ → ε → A)

@[simp] theorem sumSteps_nil (s : σ) : M.sumSteps f s [] = 0 := rfl

@[simp] theorem sumSteps_cons (s : σ) (e : ε) (es : List ε) :
    M.sumSteps f s (e :: es) = f s e + M.sumSteps f (M.step s e).1 es := rfl

/-- A quantity that depends on the events alone. -/
theorem sumSteps_event (g : ε → A) (s : σ) (es : List ε) :
    M.sumSteps (fun _ e => g e) s es = (es.map g).sum := by
  induction es generalizing s with
  | nil => rfl
  | cons e es ih => rw [sumSteps_cons, ih, List.map_cons, List.sum_cons]

/-- **Conservation**: a legal run changes `φ` by what its steps do. -/
theorem potential {φ : σ → A} (hstep : ∀ s e, M.enabled s e → φ (M.step s e).1 = φ s + f s e)
    {s : σ} {es : List ε} (h : M.Legal s es) :
    φ (M.final s es) = φ s + M.sumSteps f s es := by
  induction es generalizing s with
  | nil => rw [final_nil, sumSteps_nil, add_zero]
  | cons e es ih =>
    rw [final_cons, ih h.2, hstep s e h.1, sumSteps_cons, add_assoc]

end

theorem sumSteps_add [AddCommMonoid A] (f g : σ → ε → A) (s : σ) (es : List ε) :
    M.sumSteps (fun s e => f s e + g s e) s es = M.sumSteps f s es + M.sumSteps g s es := by
  induction es generalizing s with
  | nil => exact (add_zero 0).symm
  | cons e es ih =>
    rw [sumSteps_cons, sumSteps_cons, sumSteps_cons, ih]
    exact add_add_add_comm ..

theorem sumSteps_eq_zero_iff (f : σ → ε → ℕ) (s : σ) (es : List ε) :
    M.sumSteps f s es = 0 ↔ M.AllSteps (fun s e => f s e = 0) s es := by
  induction es generalizing s with
  | nil => exact iff_of_true rfl trivial
  | cons e es ih => rw [sumSteps_cons, Nat.add_eq_zero_iff, allSteps_cons, ih]

end CryptobotAlgo.Machine
