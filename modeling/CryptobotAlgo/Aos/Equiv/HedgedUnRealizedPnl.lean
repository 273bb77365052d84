import CryptobotAlgo.Aos.Equiv.HedgedPosition
import CryptobotAlgo.Aos.Equiv.NetUnRealizedPnl
import CryptobotAlgo.Machine.Refinement

/-!
# The unrealized profit of a hedged position

The strategy keeps the legs by index; the storage of unrealized profit guesses the leg from the sign
of the quantity that it is told.  A short leg that is closed is reported with the quantity `0`,
which the storage files under the long leg, and so is a remainder that a removal leaves in the short
slot with a positive sign.  In addition `UpdatePosition` uses the first prices of the key.

`hedged_fresh` says that the storage reports the profit of the two legs at the latest prices as long
as every position update lands under its own leg (`FiledUnderLeg`) and finds the latest prices of
the legs that are open after it (`KeepsHedgedFresh`).
-/

namespace CryptobotAlgo.Aos

open HedgedUnRealizedPnlStorageDefault

variable {R K : Type} [Field K] [LinearOrder K] [PnlRealizedStorageInterface R K]

/-- A call on a hedged position, or new prices for its key. -/
inductive HedgedCall (K : Type)
  | position (call : PositionCall K)
  | updateBBO (priceBid priceAsk : K)
  deriving DecidableEq, Repr

/-- The state of a hedged position with the storage of the hedged mode. -/
abbrev HedgedState (R K : Type) := HedgedPositionState R (HedgedUnRealizedPnlStorageDefault K) K

/-- Calls on one position, interleaved with new prices for its key. -/
def hedgedMachine (exchangeId : ExchangeId) (tradingPair : TradingPair) :
    Machine (HedgedState R K) (HedgedCall K) Unit where
  enabled _ _ := True
  step
    | s, .position call => (call.apply exchangeId tradingPair s, [])
    | s, .updateBBO priceBid priceAsk =>
      ((s.1, { s.2 with
        unrealized := s.2.unrealized.updateBBO exchangeId tradingPair priceBid priceAsk }), [])

omit [Field K] [LinearOrder K] in
/-- What a call says about the prices. -/
def HedgedCall.prices : HedgedCall K → Option (BBO K)
  | .position _ => none
  | .updateBBO priceBid priceAsk => some { bestBid := priceBid, bestAsk := priceAsk }

omit [Field K] [LinearOrder K] in
/-- The latest prices. -/
def latestPrices (calls : List (HedgedCall K)) : Option (BBO K) :=
  (calls.filterMap HedgedCall.prices).getLast?

/-- The profit of the long leg and that of the short leg. -/
def legsPnl (p : HedgedPositionDefault K) (bbo : BBO K) : K :=
  UnRealizedPnlCalculatorDefault.calculate (p.avgPrice longSlot) (p.netQty longSlot) bbo.bestBid
      bbo.bestAsk +
    UnRealizedPnlCalculatorDefault.calculate (p.avgPrice shortSlot) (p.netQty shortSlot) bbo.bestBid
      bbo.bestAsk

/-- The state after some calls on a flat position. -/
def hedgedAfter (exchangeId : ExchangeId) (tradingPair : TradingPair) (realized : R)
    (calls : List (HedgedCall K)) : HedgedState R K :=
  (hedgedMachine exchangeId tradingPair).final (.new, ⟨realized, {}⟩) calls

/-- Once there are prices and a position, the storage reports the profit of the legs. -/
def HedgedFresh (exchangeId : ExchangeId) (tradingPair : TradingPair) (realized : R)
    (calls : List (HedgedCall K)) : Prop :=
  ∀ bbo, latestPrices calls = some bbo → (∃ call, HedgedCall.position call ∈ calls) →
    (hedgedAfter exchangeId tradingPair realized calls).2.unrealized.getUnRealizedPnl exchangeId
      tradingPair = (true, legsPnl (hedgedAfter exchangeId tradingPair realized calls).1 bbo)

/-- The quantities that a call reports have the sign of their leg: a short leg is not closed, and
what a removal leaves over is less than the leg on the other side. -/
def FiledUnderLeg (p : HedgedPositionDefault K) : PositionCall K → Prop
  | .addPosition _ qty => qty ≤ 0 → p.netQty shortSlot + qty < 0
  | .removePosition _ qty =>
    if 0 < qty then
      p.netQty longSlot < qty → p.netQty shortSlot + (qty - p.netQty longSlot) < 0
    else
      -- a removal of `0` from a position without legs does no harm
      p.netQty shortSlot < qty ∨ qty = 0 ∧ p.netQty shortSlot = 0 ∧ p.netQty longSlot = 0

/-- The long leg is open after the call. -/
def LongOpenAfter (p : HedgedPositionDefault K) : PositionCall K → Prop
  | .addPosition _ qty => 0 < qty ∨ 0 < p.netQty longSlot
  | .removePosition _ qty => if 0 < qty then qty < p.netQty longSlot else 0 < p.netQty longSlot

/-- The short leg is open after a call that `FiledUnderLeg` admits. -/
def ShortOpenAfter (p : HedgedPositionDefault K) : PositionCall K → Prop
  | .addPosition _ qty => qty ≤ 0 ∨ p.netQty shortSlot < 0
  | .removePosition _ _ => p.netQty shortSlot < 0

/-- A call after `calls` is filed under its leg and finds the latest prices of the open legs. -/
def KeepsHedgedFresh (exchangeId : ExchangeId) (tradingPair : TradingPair) (realized : R)
    (calls : List (HedgedCall K)) : HedgedCall K → Prop
  | .position call =>
    FiledUnderLeg (hedgedAfter exchangeId tradingPair realized calls).1 call ∧
      ∀ stored latest, (hedgedAfter exchangeId tradingPair realized calls).2.unrealized.bbo
          (exchangeId, tradingPair) = some stored → latestPrices calls = some latest →
        (LongOpenAfter (hedgedAfter exchangeId tradingPair realized calls).1 call →
          stored.bestBid = latest.bestBid) ∧
        (ShortOpenAfter (hedgedAfter exchangeId tradingPair realized calls).1 call →
          stored.bestAsk = latest.bestAsk)
  | .updateBBO _ _ => True

/-! ### What the storage does -/

section Storage

variable (u : HedgedUnRealizedPnlStorageDefault K) (exchange : ExchangeId)
  (tradingPair : TradingPair) (avgPrice netQty : K)

/-- The storage knows a position of the key. -/
def Knows (u : HedgedUnRealizedPnlStorageDefault K) (key : Key) : Prop :=
  (u.longPositionInfo key).isSome ∨ (u.shortPositionInfo key).isSome

/-- The profit of the positions that the storage knows. -/
def knownPnl (u : HedgedUnRealizedPnlStorageDefault K) (key : Key) (bbo : BBO K) : K :=
  contribution (u.longPositionInfo key) bbo.bestBid bbo.bestAsk +
    contribution (u.shortPositionInfo key) bbo.bestBid bbo.bestAsk

@[simp] theorem updatePnl_longPositionInfo (key : Key) (bid ask : K) :
    (u.updatePnl key bid ask).longPositionInfo = u.longPositionInfo := by
  unfold updatePnl
  dsimp only
  split <;> rfl

@[simp] theorem updatePnl_shortPositionInfo (key : Key) (bid ask : K) :
    (u.updatePnl key bid ask).shortPositionInfo = u.shortPositionInfo := by
  unfold updatePnl
  dsimp only
  split <;> rfl

@[simp] theorem updatePnl_bbo (key : Key) (bid ask : K) :
    (u.updatePnl key bid ask).bbo = u.bbo := by
  unfold updatePnl
  dsimp only
  split <;> rfl

theorem updatePnl_unrealizedPnl {u : HedgedUnRealizedPnlStorageDefault K} {key : Key}
    (h : Knows u key) (bbo : BBO K) :
    (u.updatePnl key bbo.bestBid bbo.bestAsk).unrealizedPnl key = some (knownPnl u key bbo) := by
  unfold Knows at h
  unfold updatePnl
  dsimp only
  rw [if_pos h, zero_add]
  exact Function.update_self ..

/-- `updatePnl` does not change what is known. -/
theorem knownPnl_updatePnl (key : Key) (bid ask : K) (bbo : BBO K) :
    knownPnl (u.updatePnl key bid ask) key bbo = knownPnl u key bbo := by
  unfold knownPnl
  rw [updatePnl_longPositionInfo, updatePnl_shortPositionInfo]

/-- The storage with the position under the leg that its sign says. -/
def filed (u : HedgedUnRealizedPnlStorageDefault K) (key : Key) (avgPrice netQty : K) :
    HedgedUnRealizedPnlStorageDefault K :=
  if 0 ≤ netQty then
    { u with
      longPositionInfo := Function.update u.longPositionInfo key (some { avgPrice, netQty }) }
  else
    { u with
      shortPositionInfo := Function.update u.shortPositionInfo key (some { avgPrice, netQty }) }

theorem filed_of_nonneg (key : Key) (h : 0 ≤ netQty) :
    filed u key avgPrice netQty = { u with
      longPositionInfo := Function.update u.longPositionInfo key (some { avgPrice, netQty }) } :=
  if_pos h

theorem filed_of_neg (key : Key) (h : netQty < 0) :
    filed u key avgPrice netQty = { u with
      shortPositionInfo := Function.update u.shortPositionInfo key (some { avgPrice, netQty }) } :=
  if_neg (not_le.mpr h)

@[simp] theorem filed_bbo (key : Key) : (filed u key avgPrice netQty).bbo = u.bbo := by
  unfold filed
  split_ifs <;> rfl

theorem knows_filed (key : Key) : Knows (filed u key avgPrice netQty) key := by
  unfold Knows filed
  split_ifs
  · exact Or.inl (by simp)
  · exact Or.inr (by simp)

/-- `UpdatePosition` files the position, and updates the profit if prices are stored. -/
theorem updatePosition_eq :
    u.updatePosition exchange tradingPair avgPrice netQty =
      (u.bbo (exchange, tradingPair)).elim (filed u (exchange, tradingPair) avgPrice netQty)
        fun bbo => (filed u (exchange, tradingPair) avgPrice netQty).updatePnl
          (exchange, tradingPair) bbo.bestBid bbo.bestAsk := by
  unfold HedgedUnRealizedPnlStorageDefault.updatePosition
  dsimp only
  rw [← filed, filed_bbo]
  cases u.bbo (exchange, tradingPair) with
  | none => rfl
  | some bbo => rfl

theorem longPositionInfo_updatePosition :
    (u.updatePosition exchange tradingPair avgPrice netQty).longPositionInfo =
      (filed u (exchange, tradingPair) avgPrice netQty).longPositionInfo := by
  rw [updatePosition_eq]
  cases u.bbo (exchange, tradingPair) with
  | none => rfl
  | some bbo => exact updatePnl_longPositionInfo ..

theorem shortPositionInfo_updatePosition :
    (u.updatePosition exchange tradingPair avgPrice netQty).shortPositionInfo =
      (filed u (exchange, tradingPair) avgPrice netQty).shortPositionInfo := by
  rw [updatePosition_eq]
  cases u.bbo (exchange, tradingPair) with
  | none => rfl
  | some bbo => exact updatePnl_shortPositionInfo ..

theorem hedged_bbo_updatePosition :
    (u.updatePosition exchange tradingPair avgPrice netQty).bbo = u.bbo := by
  rw [updatePosition_eq]
  cases u.bbo (exchange, tradingPair) with
  | none => exact filed_bbo ..
  | some bbo => exact (updatePnl_bbo ..).trans (filed_bbo ..)

theorem knows_updatePosition :
    Knows (u.updatePosition exchange tradingPair avgPrice netQty) (exchange, tradingPair) := by
  unfold Knows
  rw [longPositionInfo_updatePosition, shortPositionInfo_updatePosition]
  exact knows_filed u avgPrice netQty (exchange, tradingPair)

/-- A position update reports the known positions at the stored prices. -/
theorem hedged_unrealizedPnl_updatePosition {bbo : BBO K}
    (h : u.bbo (exchange, tradingPair) = some bbo) :
    (u.updatePosition exchange tradingPair avgPrice netQty).unrealizedPnl (exchange, tradingPair) =
      some (knownPnl (u.updatePosition exchange tradingPair avgPrice netQty)
        (exchange, tradingPair) bbo) := by
  rw [updatePosition_eq, h, Option.elim_some]
  rw [updatePnl_unrealizedPnl (knows_filed ..), knownPnl_updatePnl]

theorem longPositionInfo_updateBBO (priceBid priceAsk : K) :
    (u.updateBBO exchange tradingPair priceBid priceAsk).longPositionInfo = u.longPositionInfo :=
  updatePnl_longPositionInfo ..

theorem shortPositionInfo_updateBBO (priceBid priceAsk : K) :
    (u.updateBBO exchange tradingPair priceBid priceAsk).shortPositionInfo = u.shortPositionInfo :=
  updatePnl_shortPositionInfo ..

theorem hedged_bbo_updateBBO (priceBid priceAsk : K) :
    (u.updateBBO exchange tradingPair priceBid priceAsk).bbo =
      tryEmplace u.bbo (exchange, tradingPair) { bestBid := priceBid, bestAsk := priceAsk } :=
  updatePnl_bbo ..

/-- New prices report the known positions at these prices. -/
theorem hedged_unrealizedPnl_updateBBO {u : HedgedUnRealizedPnlStorageDefault K}
    (h : Knows u (exchange, tradingPair)) (bbo : BBO K) :
    (u.updateBBO exchange tradingPair bbo.bestBid bbo.bestAsk).unrealizedPnl
        (exchange, tradingPair) = some (knownPnl u (exchange, tradingPair) bbo) :=
  updatePnl_unrealizedPnl
    (u := { u with bbo := tryEmplace u.bbo (exchange, tradingPair) bbo }) h bbo

end Storage

/-! ### What the strategy reports -/

section Strategy

variable (exchangeId : ExchangeId) (tradingPair : TradingPair) (s : HedgedState R K) (price : K)
  {qty : K} {idx : Fin 2}

/-- `Add` reports the slot that it changes; the new average price does not matter. -/
theorem apply_addPosition (h : leg qty = idx) :
    ∃ avg, (PositionCall.addPosition price qty).apply exchangeId tradingPair s =
      (⟨Function.update s.1.netQty idx (s.1.netQty idx + qty),
          Function.update s.1.avgPrice idx avg⟩,
        { s.2 with unrealized :=
          s.2.unrealized.updatePosition exchangeId tradingPair avg (s.1.netQty idx + qty) }) := by
  refine ⟨(s.1.netQty idx * s.1.avgPrice idx + qty * price) / (s.1.netQty idx + qty), ?_⟩
  show (HedgedPositionDefault.addPosition s.1 s.2 exchangeId tradingPair price qty) = _
  unfold HedgedPositionDefault.addPosition HedgedPositionStrategyDefault.add
  unfold leg at h
  simp only [h, Function.update_self]
  rfl

/-- `Remove` of what the leg holds reports the slot of its side. -/
theorem apply_removePosition_within (h : leg qty = idx)
    (hall : removable (s.1.netQty idx) qty = qty) :
    ∃ avg realized, (PositionCall.removePosition price qty).apply exchangeId tradingPair s =
      (⟨Function.update s.1.netQty idx (s.1.netQty idx - qty),
          Function.update s.1.avgPrice idx avg⟩,
        ⟨realized,
          s.2.unrealized.updatePosition exchangeId tradingPair avg (s.1.netQty idx - qty)⟩) := by
  have hne : 1 - idx ≠ idx := otherSlot_ne idx
  let fixed := fixProfit s.2.realized exchangeId tradingPair (s.1.avgPrice idx) (s.1.netQty idx)
    price qty
  let held := s.1.netQty idx - qty
  have hkeep : ∀ (f : Fin 2 → K) (x : K),
      Function.update (Function.update f idx x) (1 - idx) (f (1 - idx)) =
        Function.update f idx x := by
    intro f x
    rw [Function.update_comm hne.symm, Function.update_eq_self]
  refine ⟨if 0 < held then (s.1.avgPrice idx * held - fixed.2) / held else 0, fixed.1, ?_⟩
  show (HedgedPositionDefault.removePosition s.1 s.2 exchangeId tradingPair price qty) = _
  unfold removable at hall
  unfold HedgedPositionDefault.removePosition HedgedPositionStrategyDefault.remove
  unfold leg at h
  simp only [h, hall, Function.update_self, Function.update_of_ne hne, sub_self, add_zero, ne_eq,
    not_true_eq_false, if_false, hkeep]
  rfl

/-- `Remove` of more than the leg holds reports both slots. -/
theorem apply_removePosition_beyond (h : leg qty = idx)
    (hrest : qty - removable (s.1.netQty idx) qty ≠ 0) :
    ∃ avg avg' realized, (PositionCall.removePosition price qty).apply exchangeId tradingPair s =
      (⟨Function.update
            (Function.update s.1.netQty idx (s.1.netQty idx - removable (s.1.netQty idx) qty))
            (1 - idx) (s.1.netQty (1 - idx) + (qty - removable (s.1.netQty idx) qty)),
          Function.update (Function.update s.1.avgPrice idx avg) (1 - idx) avg'⟩,
        ⟨realized, (s.2.unrealized.updatePosition exchangeId tradingPair avg
            (s.1.netQty idx - removable (s.1.netQty idx) qty)).updatePosition exchangeId tradingPair
          avg' (s.1.netQty (1 - idx) + (qty - removable (s.1.netQty idx) qty))⟩) := by
  have hne : 1 - idx ≠ idx := otherSlot_ne idx
  let fixed := fixProfit s.2.realized exchangeId tradingPair (s.1.avgPrice idx) (s.1.netQty idx)
    price qty
  let held := s.1.netQty idx - removable (s.1.netQty idx) qty
  let remaining := qty - removable (s.1.netQty idx) qty
  let held' := s.1.netQty (1 - idx) + remaining
  refine ⟨if 0 < held then (s.1.avgPrice idx * held - fixed.2) / held else 0,
    (s.1.avgPrice (1 - idx) * held' + price * remaining) / held', fixed.1, ?_⟩
  show (HedgedPositionDefault.removePosition s.1 s.2 exchangeId tradingPair price qty) = _
  unfold removable at hrest
  unfold HedgedPositionDefault.removePosition HedgedPositionStrategyDefault.remove
  unfold leg at h
  simp only [h, Function.update_self, Function.update_of_ne hne, if_pos hrest]
  rfl

end Strategy

/-! ### The two views of the legs -/

/-- What the storage knows about the two legs has the profit of the slots, at all prices. -/
structure InStep (p : HedgedPositionDefault K) (u : HedgedUnRealizedPnlStorageDefault K)
    (key : Key) : Prop where
  signs : SignsHold p
  long : contribution (u.longPositionInfo key) =
    UnRealizedPnlCalculatorDefault.calculate (p.avgPrice 1) (p.netQty 1)
  short : contribution (u.shortPositionInfo key) =
    UnRealizedPnlCalculatorDefault.calculate (p.avgPrice 0) (p.netQty 0)

/-- A closed leg contributes nothing. -/
theorem calculate_zero (avgPrice : K) :
    UnRealizedPnlCalculatorDefault.calculate avgPrice 0 = fun _ _ => 0 := by
  ext bid ask
  unfold UnRealizedPnlCalculatorDefault.calculate
  simp

section InStep

variable {p : HedgedPositionDefault K} {u : HedgedUnRealizedPnlStorageDefault K}
  {exchange : ExchangeId} {tradingPair : TradingPair}

theorem InStep.knownPnl_eq {key : Key} (h : InStep p u key) (bbo : BBO K) :
    knownPnl u key bbo = legsPnl p bbo := by
  unfold knownPnl legsPnl
  rw [h.long, h.short]

/-- A quantity of the long slot that is not negative lands under the long leg. -/
theorem InStep.updateLong (h : InStep p u (exchange, tradingPair)) (avg : K) {qty : K}
    (hqty : 0 ≤ qty) :
    InStep ⟨Function.update p.netQty 1 qty, Function.update p.avgPrice 1 avg⟩
      (u.updatePosition exchange tradingPair avg qty) (exchange, tradingPair) where
  signs := by
    constructor
    · dsimp only
      rw [Function.update_of_ne (by decide)]
      exact h.signs.short
    · dsimp only
      rw [Function.update_self]
      exact hqty
  long := by
    rw [longPositionInfo_updatePosition, filed_of_nonneg _ _ _ _ hqty]
    dsimp only
    rw [Function.update_self, Function.update_self, Function.update_self]
    rfl
  short := by
    rw [shortPositionInfo_updatePosition, filed_of_nonneg _ _ _ _ hqty]
    dsimp only
    rw [Function.update_of_ne (by decide), Function.update_of_ne (by decide)]
    exact h.short

/-- A negative quantity of the short slot lands under the short leg. -/
theorem InStep.updateShort (h : InStep p u (exchange, tradingPair)) (avg : K) {qty : K}
    (hqty : qty < 0) :
    InStep ⟨Function.update p.netQty 0 qty, Function.update p.avgPrice 0 avg⟩
      (u.updatePosition exchange tradingPair avg qty) (exchange, tradingPair) where
  signs := by
    constructor
    · dsimp only
      rw [Function.update_self]
      exact hqty.le
    · dsimp only
      rw [Function.update_of_ne (by decide)]
      exact h.signs.long
  long := by
    rw [longPositionInfo_updatePosition, filed_of_neg _ _ _ _ hqty]
    dsimp only
    rw [Function.update_of_ne (by decide), Function.update_of_ne (by decide)]
    exact h.long
  short := by
    rw [shortPositionInfo_updatePosition, filed_of_neg _ _ _ _ hqty]
    dsimp only
    rw [Function.update_self, Function.update_self, Function.update_self]
    rfl

/-- Where no leg is open, the quantity `0` of the short slot does no harm under the long leg. -/
theorem InStep.updateFlat (h : InStep p u (exchange, tradingPair)) (hshort : p.netQty 0 = 0)
    (hlong : p.netQty 1 = 0) (avg : K) :
    InStep ⟨Function.update p.netQty 0 0, Function.update p.avgPrice 0 avg⟩
      (u.updatePosition exchange tradingPair avg 0) (exchange, tradingPair) where
  signs := by
    constructor
    · dsimp only
      rw [Function.update_self]
    · dsimp only
      rw [Function.update_of_ne (by decide)]
      exact h.signs.long
  long := by
    rw [longPositionInfo_updatePosition, filed_of_nonneg _ _ _ _ le_rfl]
    dsimp only
    rw [Function.update_self, Function.update_of_ne (by decide), Function.update_of_ne (by decide),
      hlong, calculate_zero]
    exact calculate_zero avg
  short := by
    have hzero := h.short
    rw [hshort, calculate_zero] at hzero
    rw [shortPositionInfo_updatePosition, filed_of_nonneg _ _ _ _ le_rfl]
    dsimp only
    rw [Function.update_self, Function.update_self, calculate_zero]
    exact hzero

end InStep

/-- `u'` is `u` after position updates of the key. -/
structure Reported (u u' : HedgedUnRealizedPnlStorageDefault K) (key : Key) : Prop where
  bbo : u'.bbo = u.bbo
  knows : Knows u' key
  pnl : ∀ bbo, u.bbo key = some bbo → u'.unrealizedPnl key = some (knownPnl u' key bbo)

section Reported

variable (u : HedgedUnRealizedPnlStorageDefault K) (exchange : ExchangeId)
  (tradingPair : TradingPair) (avg qty avg' qty' : K)

theorem reported_updatePosition :
    Reported u (u.updatePosition exchange tradingPair avg qty) (exchange, tradingPair) where
  bbo := hedged_bbo_updatePosition ..
  knows := knows_updatePosition ..
  pnl _ h := hedged_unrealizedPnl_updatePosition _ _ _ _ _ h

theorem reported_updatePosition_updatePosition :
    Reported u ((u.updatePosition exchange tradingPair avg qty).updatePosition exchange tradingPair
      avg' qty') (exchange, tradingPair) := by
  have hfirst := hedged_bbo_updatePosition u exchange tradingPair avg qty
  have hsecond := reported_updatePosition (u.updatePosition exchange tradingPair avg qty) exchange
    tradingPair avg' qty'
  exact ⟨hsecond.bbo.trans hfirst, hsecond.knows, fun bbo hbbo => hsecond.pnl bbo (hfirst ▸ hbbo)⟩

end Reported

/-- Every call reports the position. -/
theorem reported_apply (exchangeId : ExchangeId) (tradingPair : TradingPair) (s : HedgedState R K)
    (c : PositionCall K) :
    Reported s.2.unrealized (c.apply exchangeId tradingPair s).2.unrealized
      (exchangeId, tradingPair) := by
  cases c with
  | addPosition price qty =>
    obtain ⟨avg, happly⟩ := apply_addPosition exchangeId tradingPair s price
      (rfl : leg qty = leg qty)
    rw [happly]
    exact reported_updatePosition ..
  | removePosition price qty =>
    by_cases hrest : qty - removable (s.1.netQty (leg qty)) qty = 0
    · obtain ⟨avg, realized, happly⟩ := apply_removePosition_within exchangeId tradingPair s price
        rfl (sub_eq_zero.mp hrest).symm
      rw [happly]
      exact reported_updatePosition ..
    · obtain ⟨avg, avg', realized, happly⟩ := apply_removePosition_beyond exchangeId tradingPair s
        price rfl hrest
      rw [happly]
      exact reported_updatePosition_updatePosition ..

section Filed

variable {p : HedgedPositionDefault K} {price qty : K}
  (hfiled : FiledUnderLeg p (.removePosition price qty))

include hfiled

theorem FiledUnderLeg.of_pos (hpos : 0 < qty) :
    p.netQty 1 < qty → p.netQty 0 + (qty - p.netQty 1) < 0 :=
  (if_pos hpos).mp hfiled

theorem FiledUnderLeg.of_nonpos (hneg : qty ≤ 0) :
    p.netQty 0 < qty ∨ qty = 0 ∧ p.netQty 0 = 0 ∧ p.netQty 1 = 0 :=
  (if_neg hneg.not_gt).mp hfiled

/-- A removal that is filed under the short leg does not exceed it. -/
theorem FiledUnderLeg.removable_short [IsStrictOrderedRing K] (h : SignsHold p) (hneg : qty ≤ 0) :
    removable (p.netQty 0) qty = qty := by
  have hshort := h.short
  rw [removable_eq_iff, abs_of_nonpos hneg, abs_of_nonpos hshort, neg_le_neg_iff]
  rcases hfiled.of_nonpos hneg with hopen | ⟨hqty, hzero, -⟩
  · exact hopen.le
  · rw [hqty, hzero]

end Filed

section Apply

variable [IsStrictOrderedRing K] {exchangeId : ExchangeId} {tradingPair : TradingPair}
  {s : HedgedState R K} (h : InStep s.1 s.2.unrealized (exchangeId, tradingPair))

include h

theorem InStep.addPosition {price qty : K}
    (hfiled : FiledUnderLeg s.1 (.addPosition price qty)) :
    InStep ((PositionCall.addPosition price qty).apply exchangeId tradingPair s).1
      ((PositionCall.addPosition price qty).apply exchangeId tradingPair s).2.unrealized
      (exchangeId, tradingPair) := by
  rcases lt_or_ge 0 qty with hpos | hneg
  · obtain ⟨avg, happly⟩ := apply_addPosition exchangeId tradingPair s price (leg_of_pos hpos)
    rw [happly]
    exact h.updateLong avg (add_nonneg h.signs.long hpos.le)
  · obtain ⟨avg, happly⟩ := apply_addPosition exchangeId tradingPair s price (leg_of_nonpos hneg)
    rw [happly]
    exact h.updateShort avg (hfiled hneg)

theorem InStep.removePosition {price qty : K}
    (hfiled : FiledUnderLeg s.1 (.removePosition price qty)) :
    InStep ((PositionCall.removePosition price qty).apply exchangeId tradingPair s).1
      ((PositionCall.removePosition price qty).apply exchangeId tradingPair s).2.unrealized
      (exchangeId, tradingPair) := by
  have hlong := h.signs.long
  rcases lt_or_ge 0 qty with hpos | hneg
  · rcases lt_or_ge (s.1.netQty 1) qty with hbeyond | hwithin
    · -- the long leg is closed, and the remainder comes out of the short leg
      have hheld : removable (s.1.netQty 1) qty = s.1.netQty 1 := removable_of_lt hlong hbeyond
      have hrest : qty - removable (s.1.netQty 1) qty ≠ 0 := by
        rw [hheld]
        exact (sub_pos.mpr hbeyond).ne'
      obtain ⟨avg, avg', realized, happly⟩ := apply_removePosition_beyond exchangeId tradingPair s
        price (leg_of_pos hpos) hrest
      rw [happly, hheld, sub_self]
      have hclosed := h.updateLong avg le_rfl
      exact hclosed.updateShort avg' (hfiled.of_pos hpos hbeyond)
    · obtain ⟨avg, realized, happly⟩ := apply_removePosition_within exchangeId tradingPair s price
        (leg_of_pos hpos) (removable_of_le hpos hwithin)
      rw [happly]
      exact h.updateLong avg (sub_nonneg.mpr hwithin)
  · have hall : removable (s.1.netQty 0) qty = qty := hfiled.removable_short h.signs hneg
    obtain ⟨avg, realized, happly⟩ := apply_removePosition_within exchangeId tradingPair s price
      (leg_of_nonpos hneg) hall
    rw [happly]
    rcases hfiled.of_nonpos hneg with hopen | ⟨hqty, hzero, hzero'⟩
    · exact h.updateShort avg (sub_neg.mpr hopen)
    · rw [hqty, hzero, sub_self]
      exact h.updateFlat hzero hzero' avg

theorem InStep.apply {c : PositionCall K} (hfiled : FiledUnderLeg s.1 c) :
    InStep (c.apply exchangeId tradingPair s).1 (c.apply exchangeId tradingPair s).2.unrealized
      (exchangeId, tradingPair) := by
  cases c with
  | addPosition price qty => exact h.addPosition hfiled
  | removePosition price qty => exact h.removePosition hfiled

/-- A leg that is open after a call was said to be. -/
theorem InStep.open_after {c : PositionCall K} (hfiled : FiledUnderLeg s.1 c) :
    (0 < (c.apply exchangeId tradingPair s).1.netQty 1 → LongOpenAfter s.1 c) ∧
      ((c.apply exchangeId tradingPair s).1.netQty 0 < 0 → ShortOpenAfter s.1 c) := by
  have hlong := h.signs.long
  cases c with
  | addPosition price qty =>
    unfold LongOpenAfter ShortOpenAfter
    rcases lt_or_ge 0 qty with hpos | hneg
    · rw [netQty_addPosition_of_pos exchangeId tradingPair s price hpos,
        Function.update_self, Function.update_of_ne (by decide)]
      exact ⟨fun _ => Or.inl hpos, Or.inr⟩
    · rw [netQty_addPosition_of_nonpos exchangeId tradingPair s price hneg,
        Function.update_of_ne (by decide)]
      exact ⟨Or.inr, fun _ => Or.inl hneg⟩
  | removePosition price qty =>
    unfold LongOpenAfter ShortOpenAfter
    dsimp only
    rcases lt_or_ge 0 qty with hpos | hneg
    · rw [netQty_removePosition_of_pos exchangeId tradingPair s price hpos, if_pos hpos,
        Function.update_of_ne (by decide), Function.update_self, Function.update_self]
      rcases lt_or_ge (s.1.netQty 1) qty with hbeyond | hwithin
      · rw [removable_of_lt hlong hbeyond, sub_self]
        refine ⟨fun hlt => absurd hlt (lt_irrefl 0), fun _ => ?_⟩
        exact (lt_add_of_pos_right _ (sub_pos.mpr hbeyond)).trans (hfiled.of_pos hpos hbeyond)
      · rw [removable_of_le hpos hwithin, sub_self, add_zero]
        exact ⟨sub_pos.mp, id⟩
    · rw [netQty_removePosition_of_nonpos exchangeId tradingPair s price hneg, if_neg hneg.not_gt,
        Function.update_self, Function.update_of_ne (by decide), Function.update_self,
        hfiled.removable_short h.signs hneg, sub_self, add_zero]
      exact ⟨id, fun hlt => (sub_neg.mp hlt).trans_le hneg⟩

end Apply

/-! ### Runs -/

section Run

/-- Prices that agree on the sides of the open legs give the legs the same profit. -/
theorem legsPnl_congr {p : HedgedPositionDefault K} (h : SignsHold p) {bbo bbo' : BBO K}
    (hbid : 0 < p.netQty 1 → bbo.bestBid = bbo'.bestBid)
    (hask : p.netQty 0 < 0 → bbo.bestAsk = bbo'.bestAsk) : legsPnl p bbo = legsPnl p bbo' := by
  have hlong := (calculate_eq_calculate_iff (p.avgPrice 1) (p.netQty 1) bbo bbo').mpr
    ⟨hbid, fun hneg => absurd hneg h.long.not_gt⟩
  have hshort := (calculate_eq_calculate_iff (p.avgPrice 0) (p.netQty 0) bbo bbo').mpr
    ⟨fun hpos => absurd hpos h.short.not_gt, hask⟩
  unfold legsPnl
  rw [hlong, hshort]

variable {exchangeId : ExchangeId} {tradingPair : TradingPair} {realized : R}
  {calls : List (HedgedCall K)}

/-- What holds after some calls that were filed under their legs and found the latest prices. -/
structure HedgedInv (exchangeId : ExchangeId) (tradingPair : TradingPair) (realized : R)
    (calls : List (HedgedCall K)) : Prop where
  inStep : InStep (hedgedAfter exchangeId tradingPair realized calls).1
    (hedgedAfter exchangeId tradingPair realized calls).2.unrealized (exchangeId, tradingPair)
  knows : (∃ call, HedgedCall.position call ∈ calls) →
    Knows (hedgedAfter exchangeId tradingPair realized calls).2.unrealized
      (exchangeId, tradingPair)
  priced : ((hedgedAfter exchangeId tradingPair realized calls).2.unrealized.bbo
    (exchangeId, tradingPair)).isSome = (latestPrices calls).isSome
  pnl : ∀ bbo, latestPrices calls = some bbo → (∃ call, HedgedCall.position call ∈ calls) →
    (hedgedAfter exchangeId tradingPair realized calls).2.unrealized.unrealizedPnl
      (exchangeId, tradingPair) =
        some (legsPnl (hedgedAfter exchangeId tradingPair realized calls).1 bbo)

theorem hedgedAfter_position (c : PositionCall K) :
    hedgedAfter exchangeId tradingPair realized (calls ++ [.position c]) =
      c.apply exchangeId tradingPair (hedgedAfter exchangeId tradingPair realized calls) :=
  Machine.final_concat ..

theorem hedgedAfter_updateBBO (priceBid priceAsk : K) :
    hedgedAfter exchangeId tradingPair realized (calls ++ [.updateBBO priceBid priceAsk]) =
      ((hedgedAfter exchangeId tradingPair realized calls).1,
        { (hedgedAfter exchangeId tradingPair realized calls).2 with
          unrealized := (hedgedAfter exchangeId tradingPair realized calls).2.unrealized.updateBBO
            exchangeId tradingPair priceBid priceAsk }) :=
  Machine.final_concat ..

omit [Field K] [LinearOrder K] in
theorem latestPrices_position (c : PositionCall K) :
    latestPrices (calls ++ [.position c]) = latestPrices calls := by
  unfold latestPrices
  rw [List.filterMap_append]
  exact congrArg List.getLast? (List.append_nil _)

omit [Field K] [LinearOrder K] in
theorem latestPrices_updateBBO (priceBid priceAsk : K) :
    latestPrices (calls ++ [.updateBBO priceBid priceAsk]) =
      some { bestBid := priceBid, bestAsk := priceAsk } := by
  unfold latestPrices
  rw [List.filterMap_append]
  exact List.getLast?_concat

theorem HedgedInv.position [IsStrictOrderedRing K]
    (h : HedgedInv exchangeId tradingPair realized calls)
    (c : PositionCall K)
    (hc : KeepsHedgedFresh exchangeId tradingPair realized calls (.position c)) :
    HedgedInv exchangeId tradingPair realized (calls ++ [.position c]) := by
  obtain ⟨hfiled, hcurrent⟩ := hc
  have hreported := reported_apply exchangeId tradingPair
    (hedgedAfter exchangeId tradingPair realized calls) c
  have hinStep := h.inStep.apply hfiled
  have hopen := h.inStep.open_after hfiled
  constructor
  · rw [hedgedAfter_position]
    exact hinStep
  · intro _
    rw [hedgedAfter_position]
    exact hreported.knows
  · rw [hedgedAfter_position, hreported.bbo, latestPrices_position]
    exact h.priced
  · intro latest hlatest _
    rw [latestPrices_position] at hlatest
    obtain ⟨stored, hstored⟩ := Option.isSome_iff_exists.mp (h.priced.trans (by rw [hlatest]; rfl))
    obtain ⟨hbid, hask⟩ := hcurrent stored latest hstored hlatest
    rw [hedgedAfter_position, hreported.pnl stored hstored, hinStep.knownPnl_eq]
    exact congrArg some (legsPnl_congr hinStep.signs (fun hpos => hbid (hopen.1 hpos))
      fun hneg => hask (hopen.2 hneg))

theorem HedgedInv.updateBBO (h : HedgedInv exchangeId tradingPair realized calls)
    (priceBid priceAsk : K) :
    HedgedInv exchangeId tradingPair realized (calls ++ [.updateBBO priceBid priceAsk]) := by
  have hposition : (∃ call, HedgedCall.position call ∈ calls ++ [.updateBBO priceBid priceAsk]) →
      ∃ call, HedgedCall.position call ∈ calls := by
    rintro ⟨call, hcall⟩
    exact ⟨call, by simpa using hcall⟩
  constructor
  · rw [hedgedAfter_updateBBO]
    refine ⟨h.inStep.signs, ?_, ?_⟩
    · rw [longPositionInfo_updateBBO]
      exact h.inStep.long
    · rw [shortPositionInfo_updateBBO]
      exact h.inStep.short
  · intro hcall
    unfold Knows
    rw [hedgedAfter_updateBBO, longPositionInfo_updateBBO, shortPositionInfo_updateBBO]
    exact h.knows (hposition hcall)
  · rw [hedgedAfter_updateBBO, hedged_bbo_updateBBO, isSome_tryEmplace, latestPrices_updateBBO]
    simp
  · intro latest hlatest hcall
    rw [latestPrices_updateBBO] at hlatest
    obtain rfl := Option.some.inj hlatest
    have hknows := h.knows (hposition hcall)
    rw [hedgedAfter_updateBBO]
    refine (hedged_unrealizedPnl_updateBBO exchangeId tradingPair hknows
      ⟨priceBid, priceAsk⟩).trans ?_
    rw [h.inStep.knownPnl_eq]

theorem HedgedInv.nil : HedgedInv exchangeId tradingPair realized ([] : List (HedgedCall K)) where
  inStep := by
    refine ⟨⟨le_refl 0, le_refl 0⟩, ?_, ?_⟩
    · exact (calculate_zero 0).symm
    · exact (calculate_zero 0).symm
  knows := by
    rintro ⟨call, hcall⟩
    exact absurd hcall List.not_mem_nil
  priced := rfl
  pnl := by
    rintro bbo - ⟨call, hcall⟩
    exact absurd hcall List.not_mem_nil

/-- The invariant gives the answer of the storage. -/
theorem HedgedInv.fresh (h : HedgedInv exchangeId tradingPair realized calls) :
    HedgedFresh exchangeId tradingPair realized calls := by
  intro bbo hbbo hcall
  unfold HedgedUnRealizedPnlStorageDefault.getUnRealizedPnl
  rw [h.pnl bbo hbbo hcall]

end Run

/-- **The profit of the legs**: for a position that starts flat, if every call of a run is filed
under its leg and finds the latest prices of the open legs, then after every part of the run the
storage reports the profit of the two legs at the latest prices. -/
theorem hedged_fresh [IsStrictOrderedRing K] (exchangeId : ExchangeId) (tradingPair : TradingPair)
    (realized : R) (calls : List (HedgedCall K))
    (h : ∀ pre c post, calls = pre ++ c :: post →
      KeepsHedgedFresh exchangeId tradingPair realized pre c) :
    ∀ pre post, calls = pre ++ post → HedgedFresh exchangeId tradingPair realized pre := by
  have hinv : ∀ pre post, calls = pre ++ post → HedgedInv exchangeId tradingPair realized pre := by
    refine Machine.forall_prefix HedgedInv.nil fun pre c post hcalls hpre => ?_
    cases c with
    | position call => exact hpre.position call (h pre (.position call) post hcalls)
    | updateBBO priceBid priceAsk => exact hpre.updateBBO priceBid priceAsk
  intro pre post hcalls
  exact (hinv pre post hcalls).fresh

/-- The runs of a default position, with nothing in the storages. -/
def DefaultHedgedFresh (calls : List (HedgedCall ℚ)) : Prop :=
  HedgedFresh .kBinance .kBTCUSDT ({} : RealizedPnlStorageDefault ℚ) calls

/-- The latest prices are the stored ones. -/
theorem keepsHedgedFresh_of_eq {exchangeId : ExchangeId} {tradingPair : TradingPair} {realized : R}
    {calls : List (HedgedCall K)} {call : PositionCall K}
    (hfiled : FiledUnderLeg (hedgedAfter exchangeId tradingPair realized calls).1 call)
    (hprices : (hedgedAfter exchangeId tradingPair realized calls).2.unrealized.bbo
      (exchangeId, tradingPair) = latestPrices calls) :
    KeepsHedgedFresh exchangeId tradingPair realized calls (.position call) := by
  refine ⟨hfiled, fun stored latest hstored hlatest => ?_⟩
  rw [hprices, hlatest] at hstored
  obtain rfl := Option.some.inj hstored
  exact ⟨fun _ => rfl, fun _ => rfl⟩

/-- `2` are bought and `3` sold short, the prices become known, a part of each leg is closed, and
the prices change. -/
def reduceBoth : List (HedgedCall ℚ) :=
  [.position (.addPosition 100 2), .position (.addPosition 105 (-3)), .updateBBO 90 110,
    .position (.removePosition 120 1), .position (.removePosition 95 (-1)), .updateBBO 95 112]

theorem hedged_fresh_reduceBoth : DefaultHedgedFresh reduceBoth := by
  refine hedged_fresh .kBinance .kBTCUSDT _ reduceBoth ?_ reduceBoth [] (List.append_nil _).symm
  refine forall_split_cons.mpr ⟨?_, forall_split_cons.mpr ⟨?_, forall_split_cons.mpr ⟨trivial,
    forall_split_cons.mpr ⟨?_, forall_split_cons.mpr ⟨?_, forall_split_cons.mpr ⟨trivial,
      forall_split_nil⟩⟩⟩⟩⟩⟩
  · exact keepsHedgedFresh_of_eq (fun hneg => absurd hneg (by norm_num)) (by decide +kernel)
  · exact keepsHedgedFresh_of_eq (fun _ => by decide +kernel) (by decide +kernel)
  · refine keepsHedgedFresh_of_eq ?_ (by decide +kernel)
    unfold FiledUnderLeg
    dsimp only
    rw [if_pos (by norm_num)]
    exact fun hlt => absurd hlt (by decide +kernel)
  · refine keepsHedgedFresh_of_eq ?_ (by decide +kernel)
    unfold FiledUnderLeg
    dsimp only
    rw [if_neg (by norm_num)]
    exact .inl (by decide +kernel)

/-- `2` are sold short and bought back. -/
def closeShort : List (HedgedCall ℚ) :=
  [.updateBBO 90 110, .position (.addPosition 100 (-2)), .position (.removePosition 110 (-2))]

/-- The closed short leg is filed under the long leg, and the storage still reports a loss on the
short position. -/
theorem closeShort_not_fresh : ¬ DefaultHedgedFresh closeShort := by
  intro h
  have hreported : (hedgedAfter .kBinance .kBTCUSDT ({} : RealizedPnlStorageDefault ℚ)
      closeShort).2.unrealized.getUnRealizedPnl .kBinance .kBTCUSDT = (true, -20) := by
    decide +kernel
  have hlegs : legsPnl (hedgedAfter .kBinance .kBTCUSDT ({} : RealizedPnlStorageDefault ℚ)
      closeShort).1 ⟨90, 110⟩ = 0 := by decide +kernel
  have heq := h ⟨90, 110⟩ rfl ⟨.addPosition 100 (-2), by simp [closeShort]⟩
  rw [hreported, hlegs] at heq
  norm_num at heq

end CryptobotAlgo.Aos
