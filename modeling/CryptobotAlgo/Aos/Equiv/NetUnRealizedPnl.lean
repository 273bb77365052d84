import CryptobotAlgo.Aos.Pnl
import CryptobotAlgo.LastWrite
import CryptobotAlgo.Machine.Basic
import Mathlib.Algebra.Order.Ring.Rat
import Mathlib.Tactic.LinearCombination
import Mathlib.Tactic.NormNum.Basic

/-!
# The unrealized profit of the net mode

`UpdatePosition` computes the profit with the prices in `bbo_`, which are the first ones that
`UpdateBBO` received for the key; `UpdateBBO` computes it with the prices it receives.

`fresh_iff` says that the storage reports the profit of the latest position at the latest prices all
along a run exactly when every `UpdatePosition` finds in `bbo_` the latest price of the side at
which its position would be closed.
-/

namespace CryptobotAlgo.Aos

open LastWrite

/-- A call on a storage of unrealized profit. -/
inductive UnRealizedPnlCall (K : Type)
  | updatePosition (exchange : ExchangeId) (tradingPair : TradingPair) (avgPrice netQty : K)
  | updateBBO (exchange : ExchangeId) (tradingPair : TradingPair) (priceBid priceAsk : K)
  deriving DecidableEq, Repr

section Latest

variable {K : Type}

/-- What a call says about the position of a key. -/
def UnRealizedPnlCall.position : UnRealizedPnlCall K → Option (Key × Option (PositionInfo K))
  | .updatePosition exchange tradingPair avgPrice netQty =>
    some ((exchange, tradingPair), some { avgPrice, netQty })
  | .updateBBO _ _ _ _ => none

/-- What a call says about the prices of a key. -/
def UnRealizedPnlCall.prices : UnRealizedPnlCall K → Option (Key × Option (BBO K))
  | .updatePosition _ _ _ _ => none
  | .updateBBO exchange tradingPair priceBid priceAsk =>
    some ((exchange, tradingPair), some { bestBid := priceBid, bestAsk := priceAsk })

/-- The latest position of each key. -/
def latestPosition (calls : List (UnRealizedPnlCall K)) : Key → Option (PositionInfo K) :=
  writes (fun _ => none) (calls.filterMap UnRealizedPnlCall.position)

/-- The latest prices of each key. -/
def latestBBO (calls : List (UnRealizedPnlCall K)) : Key → Option (BBO K) :=
  writes (fun _ => none) (calls.filterMap UnRealizedPnlCall.prices)

variable (calls : List (UnRealizedPnlCall K)) (exchange : ExchangeId) (tradingPair : TradingPair)
  (x y : K)

@[simp] theorem latestPosition_updatePosition :
    latestPosition (calls ++ [.updatePosition exchange tradingPair x y]) =
      Function.update (latestPosition calls) (exchange, tradingPair)
        (some { avgPrice := x, netQty := y }) := by
  unfold latestPosition
  rw [List.filterMap_append, writes_append]
  rfl

@[simp] theorem latestPosition_updateBBO :
    latestPosition (calls ++ [.updateBBO exchange tradingPair x y]) = latestPosition calls := by
  unfold latestPosition
  rw [List.filterMap_append, writes_append]
  rfl

@[simp] theorem latestBBO_updatePosition :
    latestBBO (calls ++ [.updatePosition exchange tradingPair x y]) = latestBBO calls := by
  unfold latestBBO
  rw [List.filterMap_append, writes_append]
  rfl

@[simp] theorem latestBBO_updateBBO :
    latestBBO (calls ++ [.updateBBO exchange tradingPair x y]) =
      Function.update (latestBBO calls) (exchange, tradingPair)
        (some { bestBid := x, bestAsk := y }) := by
  unfold latestBBO
  rw [List.filterMap_append, writes_append]
  rfl

end Latest

variable {K : Type} [Field K] [LinearOrder K]

/-- The profit of a position at some prices, once both are known. -/
def pnlAt (pos : Option (PositionInfo K)) (bbo : Option (BBO K)) : Option K :=
  match pos, bbo with
  | some pos, some bbo =>
    some (UnRealizedPnlCalculatorDefault.calculate pos.avgPrice pos.netQty bbo.bestBid bbo.bestAsk)
  | _, _ => none

/-- The two prices agree on the side at which the quantity would be closed. -/
def SameMarket (netQty : K) (bbo bbo' : BBO K) : Prop :=
  (0 < netQty → bbo.bestBid = bbo'.bestBid) ∧ (netQty < 0 → bbo.bestAsk = bbo'.bestAsk)

/-- The profit at some prices tells them apart only on the side of the quantity. -/
theorem calculate_eq_calculate_iff (avgPrice netQty : K) (bbo bbo' : BBO K) :
    UnRealizedPnlCalculatorDefault.calculate avgPrice netQty bbo.bestBid bbo.bestAsk =
        UnRealizedPnlCalculatorDefault.calculate avgPrice netQty bbo'.bestBid bbo'.bestAsk ↔
      SameMarket netQty bbo bbo' := by
  unfold UnRealizedPnlCalculatorDefault.calculate SameMarket
  rcases lt_trichotomy netQty 0 with hneg | hzero | hpos
  · have hnot : ¬ 0 < netQty := not_lt.mpr hneg.le
    simp only [hnot, if_false, hneg, forall_true_left, false_imp_iff, true_and]
    rw [mul_left_inj' (neg_ne_zero.mpr hneg.ne), sub_right_inj]
  · subst hzero
    simp
  · have hnot : ¬ netQty < 0 := not_lt.mpr hpos.le
    simp only [hpos, if_true, hnot, forall_true_left, false_imp_iff, and_true]
    rw [mul_left_inj' hpos.ne', sub_left_inj]

/-! ### Runs -/

/-- Calls on the storage of the net mode. -/
def netUnRealizedMachine :
    Machine (NetUnRealizedPnlStorageDefault K) (UnRealizedPnlCall K) Unit where
  enabled _ _ := True
  step
    | s, .updatePosition exchange tradingPair avgPrice netQty =>
      (s.updatePosition exchange tradingPair avgPrice netQty, [])
    | s, .updateBBO exchange tradingPair priceBid priceAsk =>
      (s.updateBBO exchange tradingPair priceBid priceAsk, [])

/-- The storage after some calls. -/
def storageAfter (calls : List (UnRealizedPnlCall K)) : NetUnRealizedPnlStorageDefault K :=
  netUnRealizedMachine.final {} calls

/-- For every key, the storage reports the profit of the latest position at the latest prices, or
nothing as long as one of them is missing. -/
def Fresh (calls : List (UnRealizedPnlCall K)) : Prop :=
  ∀ exchange tradingPair,
    (storageAfter calls).getUnRealizedPnl exchange tradingPair =
      answer (pnlAt (latestPosition calls (exchange, tradingPair))
        (latestBBO calls (exchange, tradingPair)))

/-- After `calls`, an `UpdatePosition` finds in `bbo_` the latest price of the side that matters. -/
def PricesCurrent (calls : List (UnRealizedPnlCall K)) : UnRealizedPnlCall K → Prop
  | .updatePosition exchange tradingPair _ netQty =>
    ∀ stored latest, (storageAfter calls).bbo (exchange, tradingPair) = some stored →
      latestBBO calls (exchange, tradingPair) = some latest → SameMarket netQty stored latest
  | .updateBBO _ _ _ _ => True

/-! ### What the storage keeps -/

section Step

variable (s : NetUnRealizedPnlStorageDefault K) (exchange : ExchangeId) (tradingPair : TradingPair)
  (x y : K)

omit [LinearOrder K] in
theorem getUnRealizedPnl_eq_answer :
    s.getUnRealizedPnl exchange tradingPair = answer (s.unrealizedPnl (exchange, tradingPair)) := by
  unfold NetUnRealizedPnlStorageDefault.getUnRealizedPnl
  cases s.unrealizedPnl (exchange, tradingPair) <;> rfl

theorem positionInfo_updatePosition :
    (s.updatePosition exchange tradingPair x y).positionInfo =
      Function.update s.positionInfo (exchange, tradingPair)
        (some { avgPrice := x, netQty := y }) := by
  unfold NetUnRealizedPnlStorageDefault.updatePosition
  dsimp only
  split <;> rfl

theorem bbo_updatePosition : (s.updatePosition exchange tradingPair x y).bbo = s.bbo := by
  unfold NetUnRealizedPnlStorageDefault.updatePosition
  dsimp only
  split <;> rfl

/-- `UpdatePosition` computes the profit with the stored prices. -/
theorem unrealizedPnl_updatePosition :
    (s.updatePosition exchange tradingPair x y).unrealizedPnl =
      Function.update s.unrealizedPnl (exchange, tradingPair)
        ((pnlAt (some { avgPrice := x, netQty := y }) (s.bbo (exchange, tradingPair))).or
          (s.unrealizedPnl (exchange, tradingPair))) := by
  unfold NetUnRealizedPnlStorageDefault.updatePosition
  dsimp only
  cases s.bbo (exchange, tradingPair) with
  | some bbo => rfl
  | none => exact (Function.update_eq_self _ _).symm

theorem positionInfo_updateBBO :
    (s.updateBBO exchange tradingPair x y).positionInfo = s.positionInfo := by
  unfold NetUnRealizedPnlStorageDefault.updateBBO
  dsimp only
  split <;> rfl

theorem bbo_updateBBO :
    (s.updateBBO exchange tradingPair x y).bbo =
      tryEmplace s.bbo (exchange, tradingPair) { bestBid := x, bestAsk := y } := by
  unfold NetUnRealizedPnlStorageDefault.updateBBO
  dsimp only
  split <;> rfl

/-- `UpdateBBO` computes the profit with the new prices. -/
theorem unrealizedPnl_updateBBO :
    (s.updateBBO exchange tradingPair x y).unrealizedPnl =
      Function.update s.unrealizedPnl (exchange, tradingPair)
        ((pnlAt (s.positionInfo (exchange, tradingPair)) (some { bestBid := x, bestAsk := y })).or
          (s.unrealizedPnl (exchange, tradingPair))) := by
  unfold NetUnRealizedPnlStorageDefault.updateBBO
  dsimp only
  cases s.positionInfo (exchange, tradingPair) with
  | some pos => rfl
  | none => exact (Function.update_eq_self _ _).symm

end Step

/-- `try_emplace` leaves an entry for its key. -/
theorem isSome_tryEmplace {κ α : Type} [DecidableEq κ] (map : κ → Option α) (key k : κ)
    (value : α) : (tryEmplace map key value k).isSome = (k = key || (map k).isSome) := by
  unfold tryEmplace
  cases hmap : map key with
  | some v =>
    by_cases hk : k = key
    · simp [hk, hmap]
    · simp [hk]
  | none =>
    by_cases hk : k = key
    · simp [hk]
    · simp [hk]

section Run

variable (calls : List (UnRealizedPnlCall K)) (exchange : ExchangeId) (tradingPair : TradingPair)
  (x y : K)

theorem storageAfter_updatePosition :
    storageAfter (calls ++ [.updatePosition exchange tradingPair x y]) =
      (storageAfter calls).updatePosition exchange tradingPair x y :=
  Machine.final_concat ..

theorem storageAfter_updateBBO :
    storageAfter (calls ++ [.updateBBO exchange tradingPair x y]) =
      (storageAfter calls).updateBBO exchange tradingPair x y :=
  Machine.final_concat ..

/-- The stored positions are the latest ones. -/
theorem positionInfo_storageAfter : (storageAfter calls).positionInfo = latestPosition calls := by
  induction calls using List.reverseRecOn with
  | nil => rfl
  | append_singleton calls c ih =>
    cases c with
    | updatePosition exchange tradingPair x y =>
      rw [storageAfter_updatePosition, positionInfo_updatePosition, ih,
        latestPosition_updatePosition]
    | updateBBO exchange tradingPair x y =>
      rw [storageAfter_updateBBO, positionInfo_updateBBO, ih, latestPosition_updateBBO]

/-- Some prices are stored for a key exactly when some have been received. -/
theorem isSome_bbo_storageAfter (key : Key) :
    ((storageAfter calls).bbo key).isSome = (latestBBO calls key).isSome := by
  induction calls using List.reverseRecOn with
  | nil => rfl
  | append_singleton calls c ih =>
    cases c with
    | updatePosition exchange tradingPair x y =>
      rw [storageAfter_updatePosition, bbo_updatePosition, ih, latestBBO_updatePosition]
    | updateBBO exchange tradingPair x y =>
      rw [storageAfter_updateBBO, bbo_updateBBO, isSome_tryEmplace, ih, latestBBO_updateBBO]
      by_cases hkey : key = (exchange, tradingPair)
      · simp [hkey]
      · simp [hkey]

theorem fresh_iff_unrealizedPnl :
    Fresh calls ↔ ∀ key, (storageAfter calls).unrealizedPnl key =
      pnlAt (latestPosition calls key) (latestBBO calls key) := by
  constructor
  · intro h key
    have hkey := h key.1 key.2
    rw [getUnRealizedPnl_eq_answer] at hkey
    exact answer_injective hkey
  · intro h exchange tradingPair
    rw [getUnRealizedPnl_eq_answer, h]

variable {calls}

/-- New prices leave a fresh storage fresh. -/
theorem Fresh.updateBBO (h : Fresh calls) :
    Fresh (calls ++ [.updateBBO exchange tradingPair x y]) := by
  rw [fresh_iff_unrealizedPnl] at h ⊢
  intro key
  rw [storageAfter_updateBBO, unrealizedPnl_updateBBO, latestPosition_updateBBO,
    latestBBO_updateBBO, positionInfo_storageAfter]
  by_cases hkey : key = (exchange, tradingPair)
  · subst hkey
    rw [Function.update_self, Function.update_self, h]
    cases latestPosition calls (exchange, tradingPair) with
    | none => rfl
    | some pos => rfl
  · rw [Function.update_of_ne hkey, Function.update_of_ne hkey, h]

/-- A new position leaves a fresh storage fresh exactly when it finds the latest prices. -/
theorem Fresh.updatePosition_iff (h : Fresh calls) :
    Fresh (calls ++ [.updatePosition exchange tradingPair x y]) ↔
      PricesCurrent calls (.updatePosition exchange tradingPair x y) := by
  have hsome := isSome_bbo_storageAfter calls (exchange, tradingPair)
  rw [fresh_iff_unrealizedPnl] at h ⊢
  -- other keys keep their profit, so only the key of the call matters
  have hself : (∀ key, (storageAfter (calls ++ [.updatePosition exchange tradingPair x y])
        ).unrealizedPnl key =
      pnlAt (latestPosition (calls ++ [.updatePosition exchange tradingPair x y]) key)
        (latestBBO (calls ++ [.updatePosition exchange tradingPair x y]) key)) ↔
      (pnlAt (some { avgPrice := x, netQty := y })
        ((storageAfter calls).bbo (exchange, tradingPair))).or
          (pnlAt (latestPosition calls (exchange, tradingPair))
            (latestBBO calls (exchange, tradingPair))) =
        pnlAt (some { avgPrice := x, netQty := y }) (latestBBO calls (exchange, tradingPair)) := by
    rw [storageAfter_updatePosition, unrealizedPnl_updatePosition, latestPosition_updatePosition,
      latestBBO_updatePosition]
    constructor
    · intro hall
      have hkey := hall (exchange, tradingPair)
      rwa [Function.update_self, Function.update_self, h] at hkey
    · intro hkey key
      by_cases hne : key = (exchange, tradingPair)
      · subst hne
        rwa [Function.update_self, Function.update_self, h]
      · rw [Function.update_of_ne hne, Function.update_of_ne hne, h]
  rw [hself, PricesCurrent]
  cases hstored : (storageAfter calls).bbo (exchange, tradingPair) with
  | none =>
    rw [hstored] at hsome
    have hlatest : latestBBO calls (exchange, tradingPair) = none := by
      rw [← Option.not_isSome_iff_eq_none, ← hsome]
      exact Bool.false_ne_true
    rw [hlatest]
    simp [pnlAt]
  | some stored =>
    rw [hstored] at hsome
    obtain ⟨latest, hlatest⟩ := Option.isSome_iff_exists.mp hsome.symm
    rw [hlatest]
    have hpnl := calculate_eq_calculate_iff x y stored latest
    simp only [pnlAt, Option.some_or, Option.some.injEq, hpnl]
    constructor
    · rintro hsame stored' latest' rfl rfl
      exact hsame
    · intro hall
      exact hall stored latest rfl rfl

end Run

/-- **Freshness**: the storage reports the profit of the latest position at the latest prices after
every part of a run exactly when every `UpdatePosition` finds in `bbo_` the latest price of the side
at which its position would be closed. -/
theorem fresh_iff (calls : List (UnRealizedPnlCall K)) :
    (∀ pre post, calls = pre ++ post → Fresh pre) ↔
      ∀ pre c post, calls = pre ++ c :: post → PricesCurrent pre c := by
  apply Machine.forall_prefix_iff
  · intro exchange tradingPair
    rfl
  · intro pre c post _ hpre
    cases c with
    | updatePosition exchange tradingPair avgPrice netQty =>
      exact hpre.updatePosition_iff exchange tradingPair avgPrice netQty
    | updateBBO exchange tradingPair priceBid priceAsk =>
      exact iff_of_true (hpre.updateBBO exchange tradingPair priceBid priceAsk) trivial

/-- A position is reported again after the prices have moved. -/
def movedPrices : List (UnRealizedPnlCall ℚ) :=
  [.updatePosition .kBinance .kBTCUSDT 100 1, .updateBBO .kBinance .kBTCUSDT 90 110,
    .updateBBO .kBinance .kBTCUSDT 95 105, .updatePosition .kBinance .kBTCUSDT 100 1]

/-- Its profit is computed with the first prices: `-10` is reported in the place of `-5`. -/
theorem movedPrices_not_fresh : ¬ Fresh movedPrices := by
  intro h
  have hreported : (storageAfter movedPrices).getUnRealizedPnl .kBinance .kBTCUSDT =
      (true, -10) := by decide +kernel
  have hexpected : answer (pnlAt (latestPosition movedPrices (.kBinance, .kBTCUSDT))
      (latestBBO movedPrices (.kBinance, .kBTCUSDT))) = (true, -5) := by decide +kernel
  have heq := h .kBinance .kBTCUSDT
  rw [hreported, hexpected] at heq
  norm_num at heq

end CryptobotAlgo.Aos
