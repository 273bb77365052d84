import Mathlib.Data.List.Basic
import Mathlib.Tactic.Common

/-!
# Refinement of partial operations

A concrete operation `f` may fail; an abstract one `g` says what it is for.  `Refines R f g` says
that on related states the concrete operation succeeds and gives related states, and
`Refines.foldlM` that then so does every sequence of operations.  Where the operation cannot fail,
but refines the abstract one only under a condition on the abstract state, `foldl_related` asks for
the condition before each operation of the sequence.
-/

namespace CryptobotAlgo

universe u v w

variable {σ : Type u} {ρ : Type v} {α : Type w}

/-- On states related by `R`, the operation `f` succeeds and does what `g` says. -/
def Refines (R : σ → ρ → Prop) (f : σ → α → Option σ) (g : ρ → α → ρ) : Prop :=
  ∀ s r, R s r → ∀ x, ∃ s', f s x = some s' ∧ R s' (g r x)

/-- A sequence of refining operations succeeds and does what the abstract sequence does. -/
theorem Refines.foldlM {R : σ → ρ → Prop} {f : σ → α → Option σ} {g : ρ → α → ρ}
    (hfg : Refines R f g) {s : σ} {r : ρ} (h : R s r) (xs : List α) :
    ∃ s', xs.foldlM f s = some s' ∧ R s' (xs.foldl g r) := by
  induction xs generalizing s r with
  | nil => exact ⟨s, rfl, h⟩
  | cons x xs ih =>
    obtain ⟨s₁, hs₁, h₁⟩ := hfg s r h x
    obtain ⟨s', hs', h'⟩ := ih h₁
    refine ⟨s', ?_, h'⟩
    rw [List.foldlM_cons, hs₁]
    exact hs'

/-- What is asked of each operation of a sequence, and the ones before it, from the front. -/
theorem forall_split_cons {P : List α → α → Prop} {x : α} {xs : List α} :
    (∀ pre y post, x :: xs = pre ++ y :: post → P pre y) ↔
      P [] x ∧ ∀ pre y post, xs = pre ++ y :: post → P (x :: pre) y := by
  constructor
  · intro h
    refine ⟨h [] x xs rfl, fun pre y post hxs => ?_⟩
    exact h (x :: pre) y post (by rw [hxs, List.cons_append])
  · rintro ⟨hhead, htail⟩ pre y post hxs
    cases pre with
    | nil =>
      obtain ⟨rfl, -⟩ := List.cons.inj hxs
      exact hhead
    | cons z pre =>
      obtain ⟨rfl, hrest⟩ := List.cons.inj hxs
      exact htail pre y post hrest

theorem forall_split_nil {P : List α → α → Prop} :
    ∀ pre y post, [] = pre ++ y :: post → P pre y := by
  intro pre y post h
  exact absurd h.symm (List.append_ne_nil_of_right_ne_nil pre (List.cons_ne_nil y post))

/-- The same from the back. -/
theorem forall_split_concat {P : List α → α → Prop} {x : α} {xs : List α} :
    (∀ pre y post, xs ++ [x] = pre ++ y :: post → P pre y) ↔
      (∀ pre y post, xs = pre ++ y :: post → P pre y) ∧ P xs x := by
  constructor
  · intro h
    refine ⟨fun pre y post hxs => ?_, h xs x [] rfl⟩
    exact h pre y (post ++ [x]) (by rw [hxs, List.append_assoc, List.cons_append])
  · rintro ⟨hinit, hlast⟩ pre y post hxs
    rcases List.eq_nil_or_concat post with rfl | ⟨post, z, rfl⟩
    · obtain ⟨rfl, hy⟩ := List.append_inj' hxs rfl
      obtain rfl := List.singleton_inj.mp hy
      exact hlast
    · rw [List.concat_eq_append, ← List.cons_append, ← List.append_assoc] at hxs
      exact hinit pre y post (List.append_inj' hxs rfl).1

/-- A sequence of operations keeps the states related, if each of its operations meets the
condition under which it does. -/
theorem foldl_related {R : σ → ρ → Prop} {C : ρ → α → Prop} {f : σ → α → σ} {g : ρ → α → ρ}
    (hstep : ∀ s r x, R s r → C r x → R (f s x) (g r x)) {s : σ} {r : ρ} (h : R s r) {xs : List α}
    (hC : ∀ pre x post, xs = pre ++ x :: post → C (pre.foldl g r) x) :
    R (xs.foldl f s) (xs.foldl g r) := by
  induction xs generalizing s r with
  | nil => exact h
  | cons x xs ih =>
    obtain ⟨hhead, htail⟩ :=
      (forall_split_cons (P := fun pre y => C (pre.foldl g r) y)).mp hC
    exact ih (hstep s r x h hhead) htail

/-- A sequence of operations keeps what each of them keeps under its condition. -/
theorem foldl_invariant {I : ρ → Prop} {C : ρ → α → Prop} {g : ρ → α → ρ}
    (hstep : ∀ r x, I r → C r x → I (g r x)) {r : ρ} (h : I r) {xs : List α}
    (hC : ∀ pre x post, xs = pre ++ x :: post → C (pre.foldl g r) x) : I (xs.foldl g r) :=
  foldl_related (R := fun (_ : Unit) r => I r) (f := fun s _ => s) (s := ())
    (fun _ r x hr hx => hstep r x hr hx) h hC

end CryptobotAlgo
