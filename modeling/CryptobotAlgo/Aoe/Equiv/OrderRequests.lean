import CryptobotAlgo.Aoe.Equiv.OrderManager
import CryptobotAlgo.Aoe.Equiv.TradingPairNames
import CryptobotAlgo.Aoe.OrderRequests
import CryptobotAlgo.Machine.Refinement

/-!
# Orders that the exchange has not been told about

The manager stores an order before the API makes a message of the request, and does not learn that
there is none.  As long as the exchange reports only on orders that it has been told about, an order
without a message stays stored, and waits (`unannounced_orders`).
-/

namespace CryptobotAlgo.Aoe

open Aos

variable {C S T K E : Type} {printer : EnumPrinter C T} {stdToString : K → String}

/-! ### Messages -/

/-- Each of the values that a request must name has a text. -/
structure EnumPrinter.HasTexts (printer : EnumPrinter C T) (category : C)
    (tradingPair : TradingPair) (side : OrderSide) (orderMode : OrderMode) : Prop where
  category : (printer.categoryToString category).isSome
  tradingPair : tradingPair ∈ aligned
  side : (printer.sideToString side).isSome
  orderMode : (printer.orderModeToString orderMode).isSome

/-- The request has a message. -/
def PlaceOrder.Request.Printable (printer : EnumPrinter C T) (r : PlaceOrder.Request C T K) :
    Prop :=
  r.requestClass = .spotBuyLimit ∧
    printer.HasTexts r.category r.tradingPair r.orderSide r.orderMode

namespace PlaceOrder

variable {order : Request C T K}

theorem SpotBuyLimit.accept_isSome_iff (stdToString : K → String) :
    (SpotBuyLimit.accept printer stdToString order).isSome ↔
      printer.HasTexts order.category order.tradingPair order.orderSide order.orderMode := by
  unfold accept
  simp only [Option.bind_eq_bind, Option.isSome_bind, Option.any_eq_true, Option.isSome_some]
  constructor
  · rintro ⟨category, hcategory, symbol, hsymbol, side, hside, orderType, horderType, -⟩
    have hpair := (bigStringView_isSome_iff order.tradingPair).mp (hsymbol ▸ rfl)
    exact ⟨hcategory ▸ rfl, hpair, hside ▸ rfl, horderType ▸ rfl⟩
  · rintro ⟨hcategory, hpair, hside, horderMode⟩
    obtain ⟨category, hcategory⟩ := Option.isSome_iff_exists.mp hcategory
    obtain ⟨symbol, hsymbol⟩ :=
      Option.isSome_iff_exists.mp ((bigStringView_isSome_iff order.tradingPair).mpr hpair)
    obtain ⟨side, hside⟩ := Option.isSome_iff_exists.mp hside
    obtain ⟨orderType, horderType⟩ := Option.isSome_iff_exists.mp horderMode
    exact ⟨category, hcategory, symbol, hsymbol, side, hside, orderType, horderType, trivial⟩

/-- Whatever else the request names, the message carries its id. -/
theorem SpotBuyLimit.field_orderLinkId {value : Json}
    (h : SpotBuyLimit.accept printer stdToString order = some value) :
    value.field "orderLinkId" = some (.string (toString order.orderId)) := by
  unfold accept at h
  simp only [Option.bind_eq_bind, Option.bind_eq_some_iff] at h
  obtain ⟨category, -, symbol, -, side, -, orderType, -, hvalue⟩ := h
  obtain rfl := Option.some.inj hvalue
  cases printer.timeInForceToString order.timeInForce <;> rfl

namespace Request

theorem accept_isSome_iff (stdToString : K → String) :
    (order.accept printer stdToString).isSome ↔ order.Printable printer := by
  unfold accept Printable
  cases order.requestClass with
  | standart => exact iff_of_false nofun fun h => nomatch h.1
  | spotBuyLimit =>
    rw [SpotBuyLimit.accept_isSome_iff]
    exact (and_iff_right rfl).symm

theorem field_orderLinkId {value : Json} (h : order.accept printer stdToString = some value) :
    value.field "orderLinkId" = some (.string (toString order.orderId)) := by
  unfold accept at h
  cases hclass : order.requestClass with
  | standart =>
    rw [hclass] at h
    exact nomatch h
  | spotBuyLimit =>
    rw [hclass] at h
    exact SpotBuyLimit.field_orderLinkId h

end Request

end PlaceOrder

/-- The message tells the exchange about an order with the id. -/
def Announces (msg : Json) (id : UInt64) : Prop :=
  ∃ entry, msg.field "op" = some (.string "order.create") ∧
    msg.field "args" = some (.array [entry]) ∧
    entry.field "orderLinkId" = some (.string (toString id))

/-- The digits of an id are those of no other. -/
theorem toString_inj {id id' : UInt64} (h : toString id = toString id') : id = id' := by
  have hdigits : Nat.toDigits 10 id.toNat = Nat.toDigits 10 id'.toNat := by
    rw [← Nat.toList_repr, ← Nat.toList_repr]
    exact congrArg String.toList h
  have hnat := congrArg (Nat.ofDigitChars 10 · 0) hdigits
  rw [Nat.ofDigitChars_ten_toDigits, Nat.ofDigitChars_ten_toDigits] at hnat
  exact UInt64.toNat_inj.mp hnat

/-- The exchange is told about an order with the id. -/
def Told (printer : EnumPrinter C T) (out : List (SingleOrderAPICall C T K)) (id : UInt64) : Prop :=
  ∃ order time, SingleOrderAPICall.placeOrder order time ∈ out ∧ order.orderId = id ∧
    order.Printable printer

theorem announces_request_iff {call : SingleOrderAPICall C T K} {msg : Json}
    (h : call.request printer stdToString = some msg) (id : UInt64) :
    Announces msg id ↔ ∃ order time, call = .placeOrder order time ∧ order.orderId = id := by
  cases call with
  | placeOrder order time =>
    obtain ⟨value, hvalue, rfl⟩ := Option.map_eq_some_iff.mp h
    have hlink := PlaceOrder.Request.field_orderLinkId hvalue
    constructor
    · rintro ⟨entry, -, hargs, hid⟩
      obtain rfl : value = entry := List.singleton_inj.mp (Json.array.inj (Option.some.inj hargs))
      rw [hlink] at hid
      exact ⟨order, time, rfl, toString_inj (Json.string.inj (Option.some.inj hid))⟩
    · rintro ⟨order', time', hcall, rfl⟩
      obtain ⟨rfl, -⟩ := SingleOrderAPICall.placeOrder.inj hcall
      exact ⟨value, rfl, rfl, hlink⟩
  | cancelOrder order time =>
    obtain ⟨value, -, rfl⟩ := Option.map_eq_some_iff.mp h
    constructor
    · rintro ⟨entry, hop, -, -⟩
      have hname : "order.cancel" = "order.create" := Json.string.inj (Option.some.inj hop)
      exact absurd hname (by decide)
    · rintro ⟨order', time', hcall, -⟩
      exact nomatch hcall

theorem exists_announces_iff (stdToString : K → String) (out : List (SingleOrderAPICall C T K))
    (id : UInt64) :
    (∃ msg ∈ out.filterMap (·.request printer stdToString), Announces msg id) ↔
      Told printer out id := by
  constructor
  · rintro ⟨msg, hmsg, hid⟩
    obtain ⟨call, hcall, hrequest⟩ := List.mem_filterMap.mp hmsg
    obtain ⟨order, time, rfl, horder⟩ := (announces_request_iff hrequest id).mp hid
    obtain ⟨value, hvalue, -⟩ := Option.map_eq_some_iff.mp hrequest
    have hsome : (order.accept printer stdToString).isSome := hvalue ▸ rfl
    exact ⟨order, time, hcall, horder,
      (PlaceOrder.Request.accept_isSome_iff stdToString).mp hsome⟩
  · rintro ⟨order, time, hcall, horder, hprintable⟩
    obtain ⟨value, hvalue⟩ := Option.isSome_iff_exists.mp
      ((PlaceOrder.Request.accept_isSome_iff stdToString).mpr hprintable)
    have hrequest : (SingleOrderAPICall.placeOrder order time).request printer stdToString = _ :=
      congrArg (RequestMaker.make "order.create" time) hvalue
    exact ⟨_, List.mem_filterMap.mpr ⟨_, hcall, hrequest⟩,
      (announces_request_iff hrequest id).mpr ⟨order, time, rfl, horder⟩⟩

/-! ### The stored orders -/

theorem told_append {out : List (SingleOrderAPICall C T K)} {id : UInt64}
    (h : Told printer out id) (more : List (SingleOrderAPICall C T K)) :
    Told printer (out ++ more) id := by
  obtain ⟨order, time, hcall, horder⟩ := h
  exact ⟨order, time, List.mem_append_left more hcall, horder⟩

/-- The stored order is the one that the request asks for. -/
structure PlaceOrderRequest.AsksFor (r : PlaceOrderRequest C K) (o : Order C S K) : Prop where
  category : o.category = r.category
  tradingPair : o.tradingPair = r.tradingPair
  side : o.side = r.orderSide
  orderMode : o.orderMode = r.orderMode

section Store

variable [OrderStatusEnum S]

/-- The order waits for the exchange to confirm it. -/
def Order.Waits (o : Order C S K) : Prop :=
  o.orderStatus = OrderStatusEnum.kInvalid ∧
    (o.pendingAction = .kPlace ∨ o.pendingAction = .kCancel)

/-- The stored orders, after the calls `out` of the API. -/
structure SentOrders (printer : EnumPrinter C T) (m : OrderManager C S K)
    (out : List (SingleOrderAPICall C T K)) : Prop where
  /-- each of them has been sent -/
  sent : ∀ id o, m.get id = some o → ∃ order time,
    SingleOrderAPICall.placeOrder order time ∈ out ∧ order.orderId = id ∧ order.AsksFor o
  /-- those that the exchange has not been told about stay -/
  stored : ∀ order time, SingleOrderAPICall.placeOrder order time ∈ out →
    ¬ Told printer out order.orderId → (m.get order.orderId).isSome
  /-- and wait -/
  waits : ∀ id o, m.get id = some o → ¬ Told printer out id → o.Waits

theorem get_saveAndSend_eq (m : OrderManager C S K) (r : PlaceOrderRequest C K) (i : UInt64) :
    (m.saveAndSend r).1.get i =
      if i = r.orderId then some ((m.get i).getD r.placed) else m.get i := by
  by_cases hid : i = r.orderId
  · rw [if_pos hid, hid]
    cases hstored : m.get r.orderId with
    | none => rw [get_saveAndSend hstored, if_pos rfl]; rfl
    | some o =>
      have hadd := m.orderStorage.add_of_some r.placed (Option.isSome_of_eq_some hstored)
      exact (congrArg (OrderStorage.get · r.orderId) hadd).trans hstored
  · rw [if_neg hid, get_saveAndSend_of_ne hid]

variable {m : OrderManager C S K} {out : List (SingleOrderAPICall C T K)}

/-- A request stores its order, unless its id is in use. -/
theorem sentOrders_placeOrder (h : SentOrders printer m out)
    (order : PlaceOrder.Request C T K) (time : ℕ) :
    SentOrders printer (m.saveAndSend order.toPlaceOrderRequest).1
      (out ++ [.placeOrder order time]) := by
  have hnew : SingleOrderAPICall.placeOrder order time ∈ out ++ [.placeOrder order time] :=
    List.mem_append_right _ (List.mem_singleton_self _)
  refine ⟨fun id o hget => ?_, fun order' time' hmem htold => ?_, fun id o hget htold => ?_⟩
  · rw [get_saveAndSend_eq] at hget
    split_ifs at hget with hid
    · cases hstored : m.get id with
      | none =>
        rw [hstored] at hget
        obtain rfl := Option.some.inj hget
        exact ⟨order, time, hnew, hid.symm, rfl, rfl, rfl, rfl⟩
      | some o' =>
        rw [hstored] at hget
        obtain rfl := Option.some.inj hget
        obtain ⟨order', time', hmem, horder'⟩ := h.sent id _ hstored
        exact ⟨order', time', List.mem_append_left _ hmem, horder'⟩
    · obtain ⟨order', time', hmem, horder'⟩ := h.sent id o hget
      exact ⟨order', time', List.mem_append_left _ hmem, horder'⟩
  · rw [get_saveAndSend_eq]
    split_ifs with hid
    · rfl
    · rcases List.mem_append.mp hmem with hmem | hmem
      · exact h.stored order' time' hmem fun ht => htold (told_append ht _)
      · obtain ⟨rfl, -⟩ := SingleOrderAPICall.placeOrder.inj (List.mem_singleton.mp hmem)
        exact absurd rfl hid
  · have hold : ∀ o, m.get id = some o → o.Waits := fun o hstored =>
      h.waits id o hstored fun ht => htold (told_append ht _)
    rw [get_saveAndSend_eq] at hget
    split_ifs at hget
    · cases hstored : m.get id with
      | none =>
        rw [hstored] at hget
        obtain rfl := Option.some.inj hget
        exact ⟨rfl, .inl rfl⟩
      | some o' =>
        rw [hstored] at hget
        obtain rfl := Option.some.inj hget
        exact hold _ hstored
    · exact hold o hget

/-- A cancel request marks its order. -/
theorem sentOrders_cancelOrder (h : SentOrders printer m out) (order : CancelOrder.Spot C)
    (time : ℕ) :
    SentOrders printer (m.cancelOrder order.orderId).1 (out ++ [.cancelOrder order time]) := by
  have hget : ∀ id, (m.cancelOrder order.orderId).1.get id =
      if id = order.orderId then (m.get id).map fun o =>
        { o with orderStatus := OrderStatusEnum.kInvalid, pendingAction := .kCancel }
      else m.get id :=
    fun id => m.orderStorage.get_updateStatus order.orderId id OrderStatusEnum.kInvalid .kCancel
  refine ⟨fun id o hstored => ?_, fun order' time' hmem htold => ?_, fun id o hstored htold => ?_⟩
  · have hsent : ∃ o', m.get id = some o' ∧ ∀ r : PlaceOrderRequest C K, r.AsksFor o' →
        r.AsksFor o := by
      rw [hget] at hstored
      split_ifs at hstored
      · obtain ⟨o', ho', rfl⟩ := Option.map_eq_some_iff.mp hstored
        exact ⟨o', ho', fun r hr => ⟨hr.category, hr.tradingPair, hr.side, hr.orderMode⟩⟩
      · exact ⟨o, hstored, fun r hr => hr⟩
    obtain ⟨o', ho', hasks⟩ := hsent
    obtain ⟨order', time', hmem, hid, horder'⟩ := h.sent id o' ho'
    exact ⟨order', time', List.mem_append_left _ hmem, hid, hasks _ horder'⟩
  · have hold : (m.get order'.orderId).isSome := by
      rcases List.mem_append.mp hmem with hmem | hmem
      · exact h.stored order' time' hmem fun ht => htold (told_append ht _)
      · exact nomatch List.mem_singleton.mp hmem
    rw [hget]
    split_ifs
    · rw [Option.isSome_map]
      exact hold
    · exact hold
  · rw [hget] at hstored
    split_ifs at hstored
    · obtain ⟨o', -, rfl⟩ := Option.map_eq_some_iff.mp hstored
      exact ⟨rfl, .inr rfl⟩
    · exact h.waits id o hstored fun ht => htold (told_append ht _)

omit [OrderStatusEnum S] in
/-- The mutations of an event keep what the request asks for. -/
theorem asksFor_foldl {id : UInt64} {us : List (OrderMutation C S K)}
    (h : ∀ u ∈ us, u.Updates id) {o o' : Order C S K}
    (ho' : us.foldl OrderMutation.onOrder (some o) = some o') {r : PlaceOrderRequest C K}
    (hr : r.AsksFor o) : r.AsksFor o' := by
  induction us generalizing o with
  | nil =>
    obtain rfl := Option.some.inj ho'
    exact hr
  | cons u us ih =>
    have htail := fun v hv => h v (List.mem_cons_of_mem u hv)
    cases u with
    | updateStatus => exact ih htail ho' ⟨hr.category, hr.tradingPair, hr.side, hr.orderMode⟩
    | updateState => exact ih htail ho' ⟨hr.category, hr.tradingPair, hr.side, hr.orderMode⟩
    | remove => exact (h _ List.mem_cons_self).elim
    | add => exact (h _ List.mem_cons_self).elim

variable [OrderEventInterface E C S K] [LawfulOrderEvent E]

/-- An event about an order that the exchange has been told about changes no other order. -/
theorem sentOrders_onResponse (h : SentOrders printer m out) {event : E}
    (hevent : Told printer out (OrderEventInterface.orderId event)) :
    SentOrders printer (m.onResponse event) out := by
  have hother : ∀ id, ¬ Told printer out id → (m.onResponse event).get id = m.get id := by
    intro id htold
    have hid : id ≠ OrderEventInterface.orderId event := fun heq => htold (heq ▸ hevent)
    exact get_onResponse_of_ne hid m
  refine ⟨fun id o hstored => ?_, fun order time hmem htold => ?_, fun id o hstored htold => ?_⟩
  · by_cases hid : id = OrderEventInterface.orderId event
    · by_cases hremoves : Removes event
      · rw [get_onResponse_of_removes hremoves, if_pos hid] at hstored
        exact nomatch hstored
      · have hupdates := (LawfulOrderEvent.removes_or_updates event).resolve_left hremoves
        rw [hid, get_onResponse] at hstored
        cases hold : m.get (OrderEventInterface.orderId event) with
        | none =>
          have hnone := (sameOrders_onResponse hremoves m).isSome
            (OrderEventInterface.orderId event)
          rw [get_onResponse, hstored, hold] at hnone
          exact nomatch hnone
        | some o' =>
          rw [hold] at hstored
          obtain ⟨order, time, hmem, horder, hasks⟩ := h.sent _ o' hold
          exact ⟨order, time, hmem, horder.trans hid.symm, asksFor_foldl hupdates hstored hasks⟩
    · rw [get_onResponse_of_ne hid] at hstored
      exact h.sent id o hstored
  · rw [hother _ htold]
    exact h.stored order time hmem htold
  · rw [hother id htold] at hstored
    exact h.waits id o hstored htold

/-! ### Runs -/

/-- The messages that the API gives to the session. -/
def written (printer : EnumPrinter C T) (stdToString : K → String)
    (calls : List (OrderRequestCall E C T K)) : List Json :=
  ((orderRequestMachine E C S T K).trace {} calls).filterMap (·.request printer stdToString)

/-- The exchange reports on orders that it has been told about. -/
def ReportsAnnounced (printer : EnumPrinter C T) (stdToString : K → String)
    (calls : List (OrderRequestCall E C T K)) : Prop :=
  ∀ pre call post, calls = pre ++ call :: post → ∀ event, call = .onResponse event →
    ∃ msg ∈ written printer stdToString pre, Announces msg (OrderEventInterface.orderId event)

theorem sentOrders_step (h : SentOrders printer m out) (call : OrderRequestCall E C T K)
    (hcall : ∀ event, call = .onResponse event →
      Told printer out (OrderEventInterface.orderId event)) :
    SentOrders printer ((orderRequestMachine E C S T K).step m call).1
      (out ++ ((orderRequestMachine E C S T K).step m call).2) := by
  cases call with
  | placeOrderManualId order uid time =>
    exact sentOrders_placeOrder h { order with orderId := uid } time
  | placeOrderAutoId order time =>
    have hsame : SentOrders printer { m with uidManager := m.uidManager.getUniqueID.2 } out :=
      ⟨h.sent, h.stored, h.waits⟩
    exact sentOrders_placeOrder hsame { order with orderId := m.uidManager.getUniqueID.1 } time
  | cancelOrder order time => exact sentOrders_cancelOrder h order time
  | onResponse event =>
    have hsame := sentOrders_onResponse h (hcall event rfl)
    exact (List.append_nil out).symm ▸ hsame

theorem sentOrders_final {calls : List (OrderRequestCall E C T K)}
    (h : ReportsAnnounced printer stdToString calls) :
    SentOrders printer ((orderRequestMachine E C S T K).final {} calls)
      ((orderRequestMachine E C S T K).trace {} calls) := by
  induction calls using List.reverseRecOn with
  | nil => exact ⟨nofun, nofun, nofun⟩
  | append_singleton calls call ih =>
    obtain ⟨hinit, hlast⟩ := forall_split_concat.mp h
    rw [Machine.final_concat, Machine.trace_concat]
    exact sentOrders_step (ih hinit) call fun event hevent =>
      (exists_announces_iff _ _ _).mp (hlast event hevent)

/-- **Orders that the exchange has not been told about.**  Every stored order has been given to the
API as it is stored, up to its state.  If no message announces an id, an order with this id is
stored for good once a request for it has been made, and it waits; each such request is a
`Standart`, or one of the values that its message must name has no text. -/
theorem unannounced_orders (printer : EnumPrinter C T) (stdToString : K → String)
    (calls : List (OrderRequestCall E C T K))
    (h : ReportsAnnounced printer stdToString calls) (id : UInt64) :
    (∀ o, ((orderRequestMachine E C S T K).final {} calls).get id = some o → ∃ order time,
      SingleOrderAPICall.placeOrder order time ∈ (orderRequestMachine E C S T K).trace {} calls ∧
        order.orderId = id ∧ order.AsksFor o) ∧
    ((∀ msg ∈ written printer stdToString calls, ¬ Announces msg id) →
      ((((orderRequestMachine E C S T K).final {} calls).get id).isSome ↔ ∃ order time,
        SingleOrderAPICall.placeOrder order time ∈ (orderRequestMachine E C S T K).trace {} calls ∧
          order.orderId = id) ∧
      (∀ o, ((orderRequestMachine E C S T K).final {} calls).get id = some o → o.Waits) ∧
      ∀ order time,
        SingleOrderAPICall.placeOrder order time ∈ (orderRequestMachine E C S T K).trace {} calls →
        order.orderId = id → order.requestClass = .standart ∨
          ¬ printer.HasTexts order.category order.tradingPair order.orderSide order.orderMode) := by
  have hsent := sentOrders_final h
  refine ⟨hsent.sent id, fun hsilent => ?_⟩
  have htold : ¬ Told printer ((orderRequestMachine E C S T K).trace {} calls) id := fun ht => by
    obtain ⟨msg, hmsg, hid⟩ := (exists_announces_iff stdToString _ _).mpr ht
    exact hsilent msg hmsg hid
  refine ⟨⟨fun hstored => ?_, fun ⟨order, time, hmem, hid⟩ => ?_⟩,
    fun o ho => hsent.waits id o ho htold, fun order time hmem hid => ?_⟩
  · obtain ⟨o, ho⟩ := Option.isSome_iff_exists.mp hstored
    obtain ⟨order, time, hmem, hid, -⟩ := hsent.sent id o ho
    exact ⟨order, time, hmem, hid⟩
  · subst hid
    exact hsent.stored order time hmem htold
  · cases hclass : order.requestClass with
    | standart => exact .inl rfl
    | spotBuyLimit => exact .inr fun htexts => htold ⟨order, time, hmem, hid, hclass, htexts⟩

end Store

/-- Three orders are placed, and the exchange reports the third. -/
def threeRequests :
    List (OrderRequestCall (Bybit.OrderEvent ℤ) Bybit.Category Bybit.TimeInForce ℤ) :=
  [.placeOrderAutoId (Bybit.spotBuyLimit .kSOLUSDT 150 2) 1,
    .placeOrderManualId { Bybit.spotBuyLimit .kBTCUSDT 90000 1 with requestClass := .standart } 7 2,
    .placeOrderAutoId (Bybit.spotBuyLimit .kBTCUSDT 90000 1) 3, .onResponse ⟨.new, 1, 90000, 1⟩]

/-- The first has no message, since the pair does not find its name; the second is a `Standart`. -/
theorem unannounced_orders_threeRequests :
    (∃ o, ((orderRequestMachine _ _ _ _ _).final {} threeRequests).get 0 = some o ∧ o.Waits) ∧
      ∃ o, ((orderRequestMachine _ _ _ _ _).final {} threeRequests).get 7 = some o ∧ o.Waits := by
  have hreports : ReportsAnnounced Bybit.enumPrinter (fun n : ℤ => toString n) threeRequests := by
    refine forall_split_cons.mpr ⟨nofun, forall_split_cons.mpr ⟨nofun, forall_split_cons.mpr ⟨nofun,
      forall_split_cons.mpr ⟨fun event hevent => ?_, forall_split_nil⟩⟩⟩⟩
    obtain rfl := OrderRequestCall.onResponse.inj hevent
    exact (exists_announces_iff _ _ _).mpr
      ⟨{ Bybit.spotBuyLimit .kBTCUSDT 90000 1 with orderId := 1 }, 3, by decide, rfl,
        rfl, rfl, by decide, rfl, rfl⟩
  have hsilent : ∀ id, id = 0 ∨ id = 7 →
      ∀ msg ∈ written Bybit.enumPrinter (fun n : ℤ => toString n) threeRequests,
        ¬ Announces msg id := by
    intro id hid msg hmsg hannounces
    obtain ⟨order, time, hmem, horder, hclass, htexts⟩ :=
      (exists_announces_iff _ _ _).mp ⟨msg, hmsg, hannounces⟩
    have hcases : order.tradingPair = .kSOLUSDT ∨ order.requestClass = .standart ∨
        order.orderId = 1 := by
      rcases List.mem_cons.mp hmem with hcall | hmem
      · exact .inl (congrArg (·.tradingPair) (SingleOrderAPICall.placeOrder.inj hcall).1)
      · rcases List.mem_cons.mp hmem with hcall | hmem
        · exact .inr (.inl (congrArg (·.requestClass) (SingleOrderAPICall.placeOrder.inj hcall).1))
        · have hcall := List.mem_singleton.mp hmem
          exact .inr (.inr (congrArg (·.orderId) (SingleOrderAPICall.placeOrder.inj hcall).1))
    rcases hcases with hpair | hstandart | hone
    · exact absurd (hpair ▸ htexts.tradingPair) (by decide)
    · exact absurd (hclass.symm.trans hstandart) (by decide)
    · rw [← horder, hone] at hid
      exact absurd hid (by decide)
  have hstored : ∀ id, id = 0 ∨ id = 7 → ∃ o,
      ((orderRequestMachine _ _ _ _ _).final {} threeRequests).get id = some o ∧ o.Waits := by
    intro id hid
    obtain ⟨-, hwaits, -⟩ :=
      (unannounced_orders _ _ threeRequests hreports id).2 (hsilent id hid)
    have hsome : (((orderRequestMachine _ _ _ _ _).final {} threeRequests).get id).isSome := by
      rcases hid with rfl | rfl
      · decide
      · decide
    obtain ⟨o, ho⟩ := Option.isSome_iff_exists.mp hsome
    exact ⟨o, ho, hwaits o ho⟩
  exact ⟨hstored 0 (.inl rfl), hstored 7 (.inr rfl)⟩

end CryptobotAlgo.Aoe
