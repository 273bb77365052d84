import CryptobotAlgo.Aos.PositionStorageByOrderId
import CryptobotAlgo.ClampedSum
import Mathlib.Algebra.Order.Ring.Int

/-!
# What is held of an order

A removal takes no more than there is, and what it cannot take is forgotten.  So the quantity of an
order is the clamped sum of what has been added and removed (`held_final`): it is the true
balance as long as no removal has asked for more than there was (`orderPosition_balance`).
-/

namespace CryptobotAlgo.Aos

variable {Uid Qty : Type} [DecidableEq Uid] [AddCommGroup Qty] [LinearOrder Qty]

namespace OrderPositionCall

/-- The quantity that the call adds, or minus the one that it removes, if it is about the order. -/
def change (key : OrderKey Uid) : OrderPositionCall Uid Qty → Option Qty
  | addPosition key' qty => if key' = key then some qty else none
  | removePosition key' qty => if key' = key then some (-qty) else none

/-- The quantity that the call adds or removes. -/
def qty : OrderPositionCall Uid Qty → Qty
  | addPosition _ qty => qty
  | removePosition _ qty => qty

end OrderPositionCall

namespace PositionStorageByOrderId

/-- What is held of the order; nothing without an entry. -/
def held (s : PositionStorageByOrderId Uid Qty) (key : OrderKey Uid) : Qty :=
  (s.positions key).getD 0

omit [DecidableEq Uid] [LinearOrder Qty] in
theorem getPosition_snd (s : PositionStorageByOrderId Uid Qty) (key : OrderKey Uid) :
    (s.getPosition key).2 = s.held key := by
  unfold getPosition held
  cases s.positions key <;> rfl

variable (s : PositionStorageByOrderId Uid Qty) {key key' : OrderKey Uid} (qty : Qty)

omit [LinearOrder Qty] in
theorem held_addPosition : (s.addPosition key qty).held key = s.held key + qty := by
  unfold held addPosition
  dsimp only
  rw [Function.update_self]
  rfl

omit [LinearOrder Qty] in
theorem held_addPosition_of_ne (h : key' ≠ key) :
    (s.addPosition key qty).held key' = s.held key' := by
  unfold held addPosition
  dsimp only
  rw [Function.update_of_ne h]

variable [IsOrderedAddMonoid Qty]

/-- A removal takes no more than there is. -/
theorem held_removePosition (hqty : 0 ≤ qty) :
    (s.removePosition key qty).1.held key = max 0 (s.held key - qty) := by
  unfold held removePosition
  cases hkey : s.positions key with
  | none =>
    rw [hkey]
    exact (max_eq_left (sub_nonpos.mpr hqty)).symm
  | some held =>
    dsimp only
    rw [Option.getD_some]
    split_ifs with hzero hneg
    all_goals dsimp only
    · rw [Function.update_self, hzero, max_self]
      rfl
    · rw [Function.update_self, max_eq_left hneg.le]
      rfl
    · rw [Function.update_self, max_eq_right (not_lt.mp hneg)]
      rfl

omit [IsOrderedAddMonoid Qty] in
theorem held_removePosition_of_ne (h : key' ≠ key) :
    (s.removePosition key qty).1.held key' = s.held key' := by
  unfold held removePosition
  cases s.positions key with
  | none => rfl
  | some held =>
    dsimp only
    split_ifs
    all_goals
      dsimp only
      rw [Function.update_of_ne h]

end PositionStorageByOrderId

open PositionStorageByOrderId

variable [IsOrderedAddMonoid Qty]

/-- A call changes what is held of the order it is about. -/
theorem held_step {s : PositionStorageByOrderId Uid Qty} {key : OrderKey Uid}
    (hheld : 0 ≤ s.held key) {call : OrderPositionCall Uid Qty} (hqty : 0 ≤ call.qty) :
    ((orderPositionMachine Uid Qty).step s call).1.held key =
      (call.change key).elim (s.held key) fun d => max 0 (s.held key + d) := by
  unfold OrderPositionCall.change
  cases call with
  | addPosition key' qty =>
    by_cases hkey : key' = key
    · rw [← hkey] at hheld ⊢
      dsimp only
      rw [if_pos rfl]
      exact (held_addPosition s qty).trans (max_eq_right (add_nonneg hheld hqty)).symm
    · dsimp only
      rw [if_neg hkey]
      exact held_addPosition_of_ne s qty (Ne.symm hkey)
  | removePosition key' qty =>
    by_cases hkey : key' = key
    · rw [← hkey]
      dsimp only
      rw [if_pos rfl, Option.elim_some, ← sub_eq_add_neg]
      exact held_removePosition s qty hqty
    · dsimp only
      rw [if_neg hkey]
      exact held_removePosition_of_ne s qty (Ne.symm hkey)

/-- After calls with quantities that are not negative, what is held of an order is the clamped sum
of what has been added to it and removed from it. -/
theorem held_final (key : OrderKey Uid) {calls : List (OrderPositionCall Uid Qty)}
    (h : ∀ call ∈ calls, 0 ≤ call.qty) :
    ((orderPositionMachine Uid Qty).final {} calls).held key =
      clampedSum (calls.filterMap (OrderPositionCall.change key)) := by
  induction calls using List.reverseRecOn with
  | nil => rfl
  | append_singleton calls call ih =>
    have hcalls := ih fun c hc => h c (List.mem_append_left _ hc)
    have hqty : 0 ≤ call.qty := h call (List.mem_append_right _ (List.mem_singleton_self call))
    have hheld : 0 ≤ ((orderPositionMachine Uid Qty).final {} calls).held key :=
      hcalls ▸ clampedSum_nonneg _
    rw [Machine.final_concat, held_step hheld hqty, hcalls, List.filterMap_append,
      List.filterMap_cons]
    cases call.change key with
    | none => exact congrArg clampedSum (List.append_nil _).symm
    | some d => exact (clampedSum_concat _ d).symm

/-- **The quantity of an order**, after any calls with quantities that are not negative: the
greatest balance of some last calls about it.  It is the balance of all of them exactly when at no
time more had been removed than added. -/
theorem orderPosition_balance (calls : List (OrderPositionCall Uid Qty))
    (h : ∀ call ∈ calls, 0 ≤ call.qty) (key : OrderKey Uid) :
    IsGreatest {x | ∃ last, last <:+ calls.filterMap (OrderPositionCall.change key) ∧ last.sum = x}
        (((orderPositionMachine Uid Qty).final {} calls).getPosition key).2 ∧
      ((((orderPositionMachine Uid Qty).final {} calls).getPosition key).2 =
          (calls.filterMap (OrderPositionCall.change key)).sum ↔
        ∀ first, first <+: calls.filterMap (OrderPositionCall.change key) → 0 ≤ first.sum) := by
  rw [getPosition_snd, held_final key h]
  exact ⟨clampedSum_isGreatest _, clampedSum_eq_sum_iff _⟩

/-- An order that is filled, closed twice by mistake, and filled again. -/
def closedTwice : List (OrderPositionCall ℕ ℤ) :=
  [.addPosition ⟨.kBybit, .kBTCUSDT, 7⟩ 2, .removePosition ⟨.kBybit, .kBTCUSDT, 7⟩ 2,
    .removePosition ⟨.kBybit, .kBTCUSDT, 7⟩ 2, .addPosition ⟨.kBybit, .kBTCUSDT, 7⟩ 1]

/-- The second removal is forgotten. -/
theorem orderPosition_balance_closedTwice :
    (((orderPositionMachine ℕ ℤ).final {} closedTwice).getPosition ⟨.kBybit, .kBTCUSDT, 7⟩).2 ≠
      (closedTwice.filterMap (OrderPositionCall.change ⟨.kBybit, .kBTCUSDT, 7⟩)).sum := by
  intro heq
  have hfirst := (orderPosition_balance closedTwice (by decide) ⟨.kBybit, .kBTCUSDT, 7⟩).2.mp heq
  exact absurd (hfirst [2, -2, -2] ⟨[1], rfl⟩) (by decide)

end CryptobotAlgo.Aos
