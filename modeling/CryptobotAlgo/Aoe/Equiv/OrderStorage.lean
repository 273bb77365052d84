import CryptobotAlgo.Aoe.Equiv.OrderManager

/-!
# What the storage knows of an order

An event with an open status reports a price and the quantity that is left, and so does the
confirmation of an amendment.  Every such event stores its status, but only a partial fill stores
the price and the quantity.

`mirrors_iff` says that the storage agrees with the events of a run exactly when every other event
reports what is stored already.
-/

namespace CryptobotAlgo.Aoe

variable {C S K E : Type}

/-- What an event with an open status reports. -/
structure Report (S K : Type) where
  status : S
  price : K
  qty : K
  deriving DecidableEq, Repr

/-- The order agrees with the report, and waits for nothing. -/
structure Report.Mirrored (rep : Report S K) (o : Order C S K) : Prop where
  orderStatus : o.orderStatus = rep.status
  pendingAction : o.pendingAction = .kNone
  price : o.price = rep.price
  qty : o.qty = rep.qty

/-- The order with the status of the report. -/
def Report.markStatus (rep : Report S K) (o : Order C S K) : Order C S K :=
  { o with orderStatus := rep.status, pendingAction := .kNone }

/-- The order with all that the report says. -/
def Report.markAll (rep : Report S K) (o : Order C S K) : Order C S K :=
  { rep.markStatus o with price := rep.price, qty := rep.qty }

theorem Report.mirrored_markStatus_iff (rep : Report S K) (o : Order C S K) :
    rep.Mirrored (rep.markStatus o) ↔ o.price = rep.price ∧ o.qty = rep.qty := by
  constructor
  · rintro ⟨-, -, hprice, hqty⟩
    exact ⟨hprice, hqty⟩
  · rintro ⟨hprice, hqty⟩
    exact ⟨rfl, rfl, hprice, hqty⟩

theorem Report.mirrored_markAll (rep : Report S K) (o : Order C S K) :
    rep.Mirrored (rep.markAll o) := ⟨rfl, rfl, rfl, rfl⟩

variable [OrderStatusEnum S] [OrderEventInterface E C S K]

/-- After an event that reports something about a stored order, the stored order agrees with it. -/
def Mirrors (report : E → Option (Report S K)) (m : OrderManager C S K)
    (c : OrderManagerCall E C K) : Prop :=
  ∀ e, c = .onResponse e → ∀ rep, report e = some rep →
    (m.get (OrderEventInterface.orderId e)).isSome →
      ∃ o, (m.call c).1.get (OrderEventInterface.orderId e) = some o ∧ rep.Mirrored o

/-- An event is a partial fill, or reports the price and the quantity that are stored. -/
def PartialFillOrStored (report : E → Option (Report S K)) (partiallyFilled : S)
    (m : OrderManager C S K) (c : OrderManagerCall E C K) : Prop :=
  ∀ e, c = .onResponse e → ∀ rep, report e = some rep → rep.status = partiallyFilled ∨
    ∀ o, m.get (OrderEventInterface.orderId e) = some o → o.price = rep.price ∧ o.qty = rep.qty

section

variable {report : E → Option (Report S K)} {partiallyFilled : S}

/-- What the events of an exchange do to a stored order. -/
structure MarksOrders (report : E → Option (Report S K)) (partiallyFilled : S) : Prop where
  partialFill : ∀ e rep, report e = some rep → rep.status = partiallyFilled →
    ∀ o, (OrderEventInterface.accept e).foldl OrderMutation.onOrder (some o) = some (rep.markAll o)
  other : ∀ e rep, report e = some rep → rep.status ≠ partiallyFilled →
    ∀ o, (OrderEventInterface.accept e).foldl OrderMutation.onOrder (some o) =
      some (rep.markStatus o)

variable [LawfulOrderEvent E] (hmarks : MarksOrders report partiallyFilled)
include hmarks

/-- One call. -/
theorem mirrors_iff_partialFillOrStored (m : OrderManager C S K) (c : OrderManagerCall E C K) :
    Mirrors report m c ↔ PartialFillOrStored report partiallyFilled m c := by
  refine forall_congr' fun e => forall_congr' fun hc => forall_congr' fun rep =>
    forall_congr' fun hrep => ?_
  subst hc
  have hget : (m.call (.onResponse e)).1.get (OrderEventInterface.orderId e) =
      (OrderEventInterface.accept e).foldl OrderMutation.onOrder
        (m.get (OrderEventInterface.orderId e)) := get_onResponse e m
  rw [hget]
  cases ho : m.get (OrderEventInterface.orderId e) with
  | none => exact iff_of_true (fun hsome => absurd hsome Bool.false_ne_true) (Or.inr nofun)
  | some o =>
    by_cases hrest : rep.status = partiallyFilled
    · rw [hmarks.partialFill e rep hrep hrest o]
      exact iff_of_true (fun _ => ⟨_, rfl, rep.mirrored_markAll o⟩) (Or.inl hrest)
    · rw [hmarks.other e rep hrep hrest o]
      constructor
      · intro h
        obtain ⟨o', ho', hmirrored⟩ := h rfl
        obtain rfl := Option.some.inj ho'
        refine Or.inr fun o'' ho'' => ?_
        obtain rfl := Option.some.inj ho''
        exact (rep.mirrored_markStatus_iff o).mp hmirrored
      · intro h _
        have hstored := (h.resolve_left hrest) o rfl
        exact ⟨_, rfl, (rep.mirrored_markStatus_iff o).mpr hstored⟩

/-- A run. -/
theorem allSteps_mirrors_iff (m : OrderManager C S K) (calls : List (OrderManagerCall E C K)) :
    (orderManagerMachine E C S K).AllSteps (Mirrors report) m calls ↔
      (orderManagerMachine E C S K).AllSteps (PartialFillOrStored report partiallyFilled) m calls :=
    by
  have hlegal : (orderManagerMachine E C S K).Legal m calls :=
    Machine.allSteps_of_mem _ fun _ _ _ => trivial
  exact (orderManagerMachine E C S K).allSteps_congr (I := fun _ => True)
    (fun m c _ _ => mirrors_iff_partialFillOrStored hmarks m c) (fun _ _ _ _ _ => trivial) trivial
    hlegal

end

/-! ### The two exchanges -/

/-- What an event with an open status carries. -/
def Bybit.OrderEvent.report (e : Bybit.OrderEvent K) : Option (Report Bybit.OrderStatus K) :=
  if e.orderStatus.isOpen then some ⟨e.orderStatus, e.price, e.leavesQty⟩ else none

def Binance.OrderEvent.report [Sub K] (e : Binance.OrderEvent K) :
    Option (Report Binance.OrderStatus K) :=
  if e.orderStatus.isOpen then some ⟨e.orderStatus, e.price, e.leavesQty⟩ else none

theorem Bybit.marksOrders :
    MarksOrders (Bybit.OrderEvent.report (K := K)) .kPartiallyFilled where
  partialFill := by
    rintro ⟨eventClass, orderId, price, leavesQty⟩ rep hrep hstatus o
    cases eventClass with
    | partiallyFilled =>
      obtain rfl := Option.some.inj hrep
      rfl
    | new | untriggered =>
      obtain rfl := Option.some.inj hrep
      exact absurd hstatus nofun
    | _ => exact absurd hrep nofun
  other := by
    rintro ⟨eventClass, orderId, price, leavesQty⟩ rep hrep hstatus o
    cases eventClass with
    | partiallyFilled =>
      obtain rfl := Option.some.inj hrep
      exact absurd rfl hstatus
    | new | untriggered =>
      obtain rfl := Option.some.inj hrep
      rfl
    | _ => exact absurd hrep nofun

theorem Binance.marksOrders [Sub K] :
    MarksOrders (Binance.OrderEvent.report (K := K)) .kPartiallyFilled where
  partialFill := by
    rintro ⟨eventClass, orderId, price, orderQty, cumExecQty⟩ rep hrep hstatus o
    cases eventClass with
    | partiallyFilled =>
      obtain rfl := Option.some.inj hrep
      rfl
    | new | pendingNew =>
      obtain rfl := Option.some.inj hrep
      exact absurd hstatus nofun
    | _ => exact absurd hrep nofun
  other := by
    rintro ⟨eventClass, orderId, price, orderQty, cumExecQty⟩ rep hrep hstatus o
    cases eventClass with
    | partiallyFilled =>
      obtain rfl := Option.some.inj hrep
      exact absurd rfl hstatus
    | new | pendingNew =>
      obtain rfl := Option.some.inj hrep
      rfl
    | _ => exact absurd hrep nofun

/-- **The storage and the exchange**: for both exchanges, the stored orders agree with what the
events of a run report, exactly when every event that is not a partial fill reports the price and
the quantity that are stored. -/
theorem mirrors_iff {K : Type} [Sub K] :
    (∀ calls : List (OrderManagerCall (Bybit.OrderEvent K) Bybit.Category K),
      (orderManagerMachine (Bybit.OrderEvent K) Bybit.Category Bybit.OrderStatus K).AllSteps
          (Mirrors Bybit.OrderEvent.report) {} calls ↔
        (orderManagerMachine (Bybit.OrderEvent K) Bybit.Category Bybit.OrderStatus K).AllSteps
          (PartialFillOrStored Bybit.OrderEvent.report .kPartiallyFilled) {} calls) ∧
      ∀ calls : List (OrderManagerCall (Binance.OrderEvent K) Binance.Category K),
        (orderManagerMachine (Binance.OrderEvent K) Binance.Category Binance.OrderStatus
            K).AllSteps (Mirrors Binance.OrderEvent.report) {} calls ↔
          (orderManagerMachine (Binance.OrderEvent K) Binance.Category Binance.OrderStatus
            K).AllSteps (PartialFillOrStored Binance.OrderEvent.report .kPartiallyFilled) {}
              calls :=
  ⟨allSteps_mirrors_iff Bybit.marksOrders {}, allSteps_mirrors_iff Binance.marksOrders {}⟩

/-- The price of an order is changed from `100` to `101`. -/
def amendPrice : List (OrderManagerCall (Bybit.OrderEvent ℤ) Bybit.Category ℤ) :=
  [.placeOrderAutoId ⟨.kSpot, .kBuy, .kLimit, 0, .kBTCUSDT, 100, 1⟩,
    .onResponse ⟨.new, 0, 100, 1⟩, .amendOrder 0, .onResponse ⟨.new, 0, 101, 1⟩]

/-- The order is confirmed with the price `101`, and stored with the price `100`. -/
theorem amendPrice_not_mirrored :
    ¬ (orderManagerMachine (Bybit.OrderEvent ℤ) Bybit.Category Bybit.OrderStatus ℤ).AllSteps
      (Mirrors Bybit.OrderEvent.report) {} amendPrice := by
  rintro ⟨-, -, -, hlast, -⟩
  obtain ⟨o, ho, hmirrored⟩ := hlast _ rfl ⟨.kNew, 101, 1⟩ rfl rfl
  obtain rfl := Option.some.inj ho
  exact absurd hmirrored.price (by decide)

end CryptobotAlgo.Aoe
