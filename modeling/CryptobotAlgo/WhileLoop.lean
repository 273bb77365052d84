import Mathlib.Data.Nat.Find
import Mathlib.Logic.Function.Iterate

/-!
# Loops that may not end

`whileLoop test body` is the loop `while (test) body`, with fuel.  It gives the first iterate of the
body at which the test fails (`whileLoop_eq_some_iff`), so it ends exactly when there is one
(`exists_whileLoop_iff`).

A search around a ring is such a loop.  It visits every index, hence it ends exactly when there is
something to find (`exists_ringSearch_iff`).
-/

namespace CryptobotAlgo

section Loop

variable {σ : Type*} {test : σ → Bool} {body : σ → σ} {s s' : σ} {fuel fuel' : ℕ}

/-- `while (test) body`, from `s` on; `none` when the fuel is not enough. -/
def whileLoop (test : σ → Bool) (body : σ → σ) : ℕ → σ → Option σ
  | 0, _ => none
  | fuel + 1, s => if test s then whileLoop test body fuel (body s) else some s

/-- The result is the first iterate at which the test fails. -/
theorem whileLoop_eq_some_iff :
    whileLoop test body fuel s = some s' ↔
      ∃ k < fuel, (∀ j < k, test (body^[j] s) = true) ∧ test (body^[k] s) = false ∧
        body^[k] s = s' := by
  induction fuel generalizing s with
  | zero => exact iff_of_false nofun fun ⟨k, hk, _⟩ => absurd hk (Nat.not_lt_zero k)
  | succ fuel ih =>
    unfold whileLoop
    cases htest : test s with
    | false =>
      rw [if_neg Bool.false_ne_true]
      constructor
      · intro h
        exact ⟨0, Nat.succ_pos fuel, fun j hj => absurd hj (Nat.not_lt_zero j), htest,
          Option.some.inj h⟩
      · rintro ⟨k, -, hbefore, -, rfl⟩
        cases k with
        | zero => rfl
        | succ k => exact absurd ((hbefore 0 (Nat.succ_pos k)).symm.trans htest) nofun
    | true =>
      rw [if_pos rfl, ih]
      constructor
      · rintro ⟨k, hk, hbefore, hfails, hresult⟩
        refine ⟨k + 1, Nat.succ_lt_succ hk, fun j hj => ?_, hfails, hresult⟩
        cases j with
        | zero => exact htest
        | succ j => exact hbefore j (Nat.lt_of_succ_lt_succ hj)
      · rintro ⟨k, hk, hbefore, hfails, hresult⟩
        cases k with
        | zero => exact absurd (htest.symm.trans hfails) nofun
        | succ k =>
          exact ⟨k, Nat.lt_of_succ_lt_succ hk, fun j hj => hbefore (j + 1) (Nat.succ_lt_succ hj),
            hfails, hresult⟩

/-- More fuel does not change the result. -/
theorem whileLoop_mono (h : whileLoop test body fuel s = some s') (hfuel : fuel ≤ fuel') :
    whileLoop test body fuel' s = some s' := by
  obtain ⟨k, hk, hloop⟩ := whileLoop_eq_some_iff.mp h
  exact whileLoop_eq_some_iff.mpr ⟨k, Nat.lt_of_lt_of_le hk hfuel, hloop⟩

/-- The loop ends exactly when the test fails at some iterate. -/
theorem exists_whileLoop_iff :
    (∃ fuel s', whileLoop test body fuel s = some s') ↔ ∃ k, test (body^[k] s) = false := by
  constructor
  · rintro ⟨fuel, s', h⟩
    obtain ⟨k, -, -, hfails, -⟩ := whileLoop_eq_some_iff.mp h
    exact ⟨k, hfails⟩
  · intro h
    -- the first such iterate is where the loop ends
    have hbefore : ∀ j < Nat.find h, test (body^[j] s) = true := fun j hj =>
      eq_true_of_ne_false (Nat.find_min h hj)
    exact ⟨Nat.find h + 1, _, whileLoop_eq_some_iff.mpr
      ⟨Nat.find h, Nat.lt_succ_self _, hbefore, Nat.find_spec h, rfl⟩⟩

/-- Where the loop ends, the test fails. -/
theorem test_of_whileLoop (h : whileLoop test body fuel s = some s') : test s' = false := by
  obtain ⟨k, -, -, hfails, hresult⟩ := whileLoop_eq_some_iff.mp h
  exact hresult ▸ hfails

end Loop

section Ring

variable {n : ℕ}

/-- The index after `i` in a ring. -/
def ringNext (i : Fin n) : Fin n :=
  if h : i + 1 = n then ⟨0, i.pos⟩ else ⟨i + 1, Nat.lt_of_le_of_ne i.isLt h⟩

theorem val_ringNext (i : Fin n) : (ringNext i : ℕ) = (i + 1) % n := by
  unfold ringNext
  split_ifs with h
  · rw [h, Nat.mod_self]
  · exact (Nat.mod_eq_of_lt (Nat.lt_of_le_of_ne i.isLt h)).symm

theorem val_iterate_ringNext (i : Fin n) (k : ℕ) : (ringNext^[k] i : ℕ) = (i + k) % n := by
  induction k with
  | zero => exact (Nat.mod_eq_of_lt i.isLt).symm
  | succ k ih => rw [Function.iterate_succ_apply', val_ringNext, ih, Nat.mod_add_mod, Nat.add_assoc]

/-- Every index comes after every other one. -/
theorem exists_iterate_ringNext (i j : Fin n) : ∃ k, ringNext^[k] i = j := by
  refine ⟨n - i + j, Fin.ext ?_⟩
  have hi := i.isLt
  have hsum : (i : ℕ) + (n - i + j) = n + j := by omega
  rw [val_iterate_ringNext, hsum, Nat.add_mod_left, Nat.mod_eq_of_lt j.isLt]

/-- A search around the ring ends exactly when there is something to find. -/
theorem exists_ringSearch_iff (test : Fin n → Bool) (i : Fin n) :
    (∃ fuel j, whileLoop test ringNext fuel i = some j) ↔ ∃ j, test j = false := by
  rw [exists_whileLoop_iff]
  constructor
  · rintro ⟨k, hk⟩
    exact ⟨_, hk⟩
  · rintro ⟨j, hj⟩
    obtain ⟨k, rfl⟩ := exists_iterate_ringNext i j
    exact ⟨k, hj⟩

end Ring

end CryptobotAlgo
