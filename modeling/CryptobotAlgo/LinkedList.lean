import Mathlib.Data.List.Basic
import Mathlib.Logic.Function.Basic
import Mathlib.Tactic.Common

/-!
# Linked lists in a memory

Each cell of a memory holds a pointer `next`, which may be null.  `Chain next head l` says that the
cells from `head` on are `l`, and `Reachable` that a cell is found by following the pointers;
`Chain.reachable_iff` connects them.  The other lemmas say what a write to a cell, a push and a jump
into the list do to a chain.
-/

namespace CryptobotAlgo.LinkedList

variable {α : Type*} {next next' : α → Option α} {head : Option α} {l : List α} {a : α}

/-- The cells from `head` up to a null pointer are `l`. -/
def Chain (next : α → Option α) : Option α → List α → Prop
  | head, [] => head = none
  | head, a :: l => head = some a ∧ Chain next (next a) l

/-- The cell is found from `head`. -/
inductive Reachable (next : α → Option α) : Option α → α → Prop
  | head (a : α) : Reachable next (some a) a
  | next {a b : α} : Reachable next (next a) b → Reachable next (some a) b

theorem Chain.congr (h : Chain next head l) (heq : ∀ a ∈ l, next' a = next a) :
    Chain next' head l := by
  induction l generalizing head with
  | nil => exact h
  | cons a l ih =>
    rw [List.forall_mem_cons] at heq
    refine ⟨h.1, ?_⟩
    rw [heq.1]
    exact ih h.2 heq.2

/-- A write to a cell that is not in the list. -/
theorem Chain.update [DecidableEq α] (h : Chain next head l) (ha : a ∉ l) (word : Option α) :
    Chain (Function.update next a word) head l :=
  h.congr fun b hb => Function.update_of_ne (fun heq : b = a => ha (heq ▸ hb)) _ _

/-- The cells that are found are those of the list. -/
theorem Chain.reachable_iff (h : Chain next head l) : Reachable next head a ↔ a ∈ l := by
  constructor
  · intro hreach
    induction hreach generalizing l with
    | head a =>
      cases l with
      | nil => exact nomatch h
      | cons b l =>
        rw [Option.some.inj h.1]
        exact List.mem_cons_self ..
    | @next a b _ ih =>
      cases l with
      | nil => exact nomatch h
      | cons c l =>
        obtain rfl : a = c := Option.some.inj h.1
        exact List.mem_cons_of_mem _ (ih h.2)
  · intro hmem
    induction l generalizing head with
    | nil => exact absurd hmem List.not_mem_nil
    | cons b l ih =>
      obtain ⟨rfl, hrest⟩ := h
      rcases List.mem_cons.mp hmem with rfl | hmem
      · exact .head a
      · exact .next (ih hrest hmem)

/-- The list from one of its cells on. -/
theorem Chain.exists_suffix (h : Chain next head l) (ha : a ∈ l) :
    ∃ l', l' <:+ l ∧ Chain next (some a) l' := by
  induction l generalizing head with
  | nil => exact absurd ha List.not_mem_nil
  | cons b l ih =>
    rcases List.mem_cons.mp ha with rfl | ha
    · exact ⟨a :: l, List.suffix_refl _, rfl, h.2⟩
    · obtain ⟨l', hsuffix, hchain⟩ := ih h.2 ha
      exact ⟨l', hsuffix.trans (List.suffix_cons b l), hchain⟩

end CryptobotAlgo.LinkedList
