import CryptobotAlgo.Machine.Basic

/-!
# States that a run can come to

`CanReach G s` says that the environment can bring a machine from `s` to a state with `G`.
`canReach_of_measure` is the rule for a chain of steps whose number is not known: each of them keeps
an invariant and lowers a measure.
-/

namespace CryptobotAlgo.Machine

variable {σ ε α : Type*} (M : Machine σ ε α) {G : σ → Prop} {s : σ}

/-- A legal run leads from `s` to a state with `G`. -/
def CanReach (G : σ → Prop) (s : σ) : Prop := ∃ es, M.Legal s es ∧ G (M.final s es)

variable {M}

theorem CanReach.of_now (h : G s) : M.CanReach G s := ⟨[], trivial, h⟩

theorem CanReach.of_step {e : ε} (he : M.enabled s e) (h : M.CanReach G (M.step s e).1) :
    M.CanReach G s := by
  obtain ⟨es, hlegal, hG⟩ := h
  exact ⟨e :: es, ⟨he, hlegal⟩, hG⟩

/-- Steps that keep `I` and lower `μ` until `G` can be reached. -/
theorem canReach_of_measure {I : σ → Prop} {μ : σ → ℕ}
    (hstep : ∀ s, I s → M.CanReach G s ∨
      ∃ e, M.enabled s e ∧ I (M.step s e).1 ∧ μ (M.step s e).1 < μ s) (h : I s) :
    M.CanReach G s := by
  induction hμ : μ s using Nat.strongRecOn generalizing s with
  | ind n ih =>
    rcases hstep s h with hreach | ⟨e, he, hI, hlt⟩
    · exact hreach
    · exact .of_step he (ih _ (hμ ▸ hlt) hI rfl)

end CryptobotAlgo.Machine
