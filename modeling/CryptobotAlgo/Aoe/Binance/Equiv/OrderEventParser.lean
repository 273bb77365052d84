import CryptobotAlgo.Aoe.Binance.OrderEventParser
import CryptobotAlgo.Aoe.Equiv.ExecutionEventParsers
import CryptobotAlgo.Aoe.Equiv.OrderManager

/-!
# What the order messages make of the stored orders

The parser accepts exactly the well-formed messages.  Of the accepted messages about an order, the
last one with an open status gives its status, the last partial fill its price and its quantity, and
a terminal status removes it for good.  The order of the messages among these kinds does not matter.
-/

namespace CryptobotAlgo.Aoe.Binance

open Aos
open Bybit (HasValue)
open Bybit.ExecutionEventParser (numberInString)

variable {K : Type} {numbers : NumberParsers K} {doc : Json}

/-- The status that stands for a class of events. -/
inductive IsStatus : String → OrderEventClass → Prop
  | new : IsStatus "NEW" .new
  | pendingNew : IsStatus "PENDING_NEW" .pendingNew
  | partiallyFilled : IsStatus "PARTIALLY_FILLED" .partiallyFilled
  | filled : IsStatus "FILLED" .filled
  | canceled : IsStatus "CANCELED" .cancelled
  | pendingCancel : IsStatus "PENDING_CANCEL" .pendingCancel
  | rejected : IsStatus "REJECTED" .rejected
  | expired : IsStatus "EXPIRED" .expired
  | expiredInMatch : IsStatus "EXPIRED_IN_MATCH" .expiredInMatch

theorem lookup_eq_some_iff_isStatus {status : String} {eventClass : OrderEventClass} :
    OrderEventParser.factoryMap.lookup status = some eventClass ↔ IsStatus status eventClass := by
  rw [Bybit.lookup_eq_some_iff_mem (by decide)]
  constructor
  · intro h
    simp only [OrderEventParser.factoryMap, List.mem_cons, Prod.mk.injEq, List.not_mem_nil,
      or_false] at h
    obtain ⟨rfl, rfl⟩ | ⟨rfl, rfl⟩ | ⟨rfl, rfl⟩ | ⟨rfl, rfl⟩ | ⟨rfl, rfl⟩ | ⟨rfl, rfl⟩ |
      ⟨rfl, rfl⟩ | ⟨rfl, rfl⟩ | ⟨rfl, rfl⟩ := h
    all_goals constructor
  · intro h
    cases h <;> simp [OrderEventParser.factoryMap]

/-- The message is well formed, and stands for the event. -/
structure IsOrderMessage (numbers : NumberParsers K) (doc : Json) (event : ParsedOrderEvent K) :
    Prop where
  eventType : doc.field "e" = some (.string "executionReport")
  orderId : HasValue numbers.getUint64 doc "c" event.orderId
  eventClass : ∃ status, doc.field "X" = some (.string status) ∧ IsStatus status event.eventClass
  orderQty : HasValue numbers.getDouble doc "q" event.orderQty
  cumExecQty : HasValue numbers.getDouble doc "z" event.cumExecQty
  price : HasValue numbers.getDouble doc "p" event.price
  tradingPair : HasValue BigStringViewToTradingPair.convert doc "s" event.tradingPair

theorem OrderEventParser.parseAndCreate_eq_some_iff {event : ParsedOrderEvent K} :
    OrderEventParser.parseAndCreate numbers doc = some event ↔
      IsOrderMessage numbers doc event := by
  unfold OrderEventParser.parseAndCreate
  rw [Option.bind_eq_bind, Option.bind_eq_some_iff]
  constructor
  · rintro ⟨eventType, htype, hrest⟩
    by_cases hreport : eventType = "executionReport"
    · rw [if_neg (not_not_intro hreport)] at hrest
      simp only [Option.bind_eq_bind, Option.bind_eq_some_iff, numberInString_eq_some_iff,
        stringField_eq_some_iff] at hrest
      obtain ⟨symbol, hsymbol, orderId, horderId, status, hstatus, orderQty, horderQty, cumExecQty,
        hcumExecQty, price, hprice, eventClass, hclass, tradingPair, hpair, hevent⟩ := hrest
      obtain rfl := Option.some.inj hevent
      rw [hreport] at htype
      exact ⟨stringField_eq_some_iff.mp htype, horderId,
        ⟨status, hstatus, lookup_eq_some_iff_isStatus.mp hclass⟩, horderQty, hcumExecQty, hprice,
        ⟨symbol, hsymbol, hpair⟩⟩
    · rw [if_pos hreport] at hrest
      exact absurd hrest nofun
  · rintro ⟨htype, horderId, ⟨status, hstatus, hclass⟩, horderQty, hcumExecQty, hprice,
      ⟨symbol, hsymbol, hpair⟩⟩
    refine ⟨_, stringField_eq_some_iff.mpr htype, ?_⟩
    rw [if_neg (not_not_intro rfl)]
    simp only [Option.bind_eq_bind, Option.bind_eq_some_iff, numberInString_eq_some_iff,
      stringField_eq_some_iff]
    exact ⟨symbol, hsymbol, _, horderId, status, hstatus, _, horderQty, _, hcumExecQty, _, hprice,
      _, lookup_eq_some_iff_isStatus.mpr hclass, _, hpair, rfl⟩

/-! ### The stored order -/

section Store

variable [Sub K]

/-- The manager after the messages. -/
def afterMessages (numbers : NumberParsers K) (m : OrderManager Category OrderStatus K)
    (docs : List Json) : OrderManager Category OrderStatus K :=
  (docs.filterMap (OrderEventParser.parseAndCreate numbers)).foldl OrderWatcher.onEvent m

/-- The events of the messages about an order. -/
def reportsOn (numbers : NumberParsers K) (id : UInt64) (docs : List Json) :
    List (ParsedOrderEvent K) :=
  (docs.filterMap (OrderEventParser.parseAndCreate numbers)).filter fun event => event.orderId = id

/-- The open status that the event reports. -/
def openStatus? (event : ParsedOrderEvent K) : Option OrderStatus :=
  if event.orderStatus.isOpen then some event.orderStatus else none

/-- The price and the quantity that the event reports. -/
def fill? (event : ParsedOrderEvent K) : Option (K × K) :=
  if event.eventClass = .partiallyFilled then some (event.price, event.leavesQty) else none

/-- The order with the last of the statuses, and with the last of the prices and quantities. -/
def withReports (statuses : List OrderStatus) (fills : List (K × K))
    (o : Order Category OrderStatus K) : Order Category OrderStatus K :=
  { o with
    orderStatus := statuses.getLast?.getD o.orderStatus
    pendingAction := if statuses = [] then o.pendingAction else .kNone
    price := (fills.getLast?.map Prod.fst).getD o.price
    qty := (fills.getLast?.map Prod.snd).getD o.qty }

/-- What the events make of an order, none of them being terminal. -/
def afterReports (events : List (ParsedOrderEvent K)) (o : Order Category OrderStatus K) :
    Order Category OrderStatus K :=
  withReports (events.filterMap openStatus?) (events.filterMap fill?) o

omit [Sub K] in
theorem withReports_status (statuses : List OrderStatus) (fills : List (K × K))
    (o : Order Category OrderStatus K) (status : OrderStatus) :
    withReports (statuses ++ [status]) fills o =
      { withReports statuses fills o with orderStatus := status, pendingAction := .kNone } := by
  unfold withReports
  rw [List.getLast?_concat, if_neg (List.append_ne_nil_of_right_ne_nil _ (List.cons_ne_nil _ _))]
  rfl

omit [Sub K] in
theorem withReports_fill (statuses : List OrderStatus) (fills : List (K × K))
    (o : Order Category OrderStatus K) (fill : K × K) :
    withReports statuses (fills ++ [fill]) o =
      { withReports statuses fills o with price := fill.1, qty := fill.2 } := by
  unfold withReports
  rw [List.getLast?_concat]
  rfl

/-- One event more, which is not terminal. -/
theorem afterReports_concat (events : List (ParsedOrderEvent K)) (event : ParsedOrderEvent K)
    (h : event.isTerminal = false) (o : Order Category OrderStatus K) :
    event.accept.foldl OrderMutation.onOrder (some (afterReports events o)) =
      some (afterReports (events ++ [event]) o) := by
  obtain ⟨⟨eventClass, orderId, price, orderQty, cumExecQty⟩, tradingPair⟩ := event
  unfold afterReports
  rw [List.filterMap_append, List.filterMap_append]
  cases eventClass with
  | default | pendingCancel =>
    show some _ = some (withReports (_ ++ []) (_ ++ []) o)
    rw [List.append_nil, List.append_nil]
  | new =>
    show _ = some (withReports (_ ++ [.kNew]) (_ ++ []) o)
    rw [List.append_nil, withReports_status]
    rfl
  | pendingNew =>
    show _ = some (withReports (_ ++ [.kPendingNew]) (_ ++ []) o)
    rw [List.append_nil, withReports_status]
    rfl
  | partiallyFilled =>
    show _ = some (withReports (_ ++ [.kPartiallyFilled]) (_ ++ [(price, orderQty - cumExecQty)]) o)
    rw [withReports_status, withReports_fill]
    rfl
  | _ => cases h

/-- What the messages make of the order with the id. -/
def orderAfter (numbers : NumberParsers K) (id : UInt64) (docs : List Json)
    (o : Option (Order Category OrderStatus K)) : Option (Order Category OrderStatus K) :=
  let events := reportsOn numbers id docs
  if events.any fun event => event.isTerminal then none else o.map (afterReports events)

/-- An order that is not stored is not stored by an event. -/
theorem foldl_onOrder_none (event : ParsedOrderEvent K) :
    event.accept.foldl OrderMutation.onOrder none = none := by
  obtain ⟨⟨eventClass, orderId, price, orderQty, cumExecQty⟩, tradingPair⟩ := event
  cases eventClass <;> rfl

/-- Only the terminal statuses remove. -/
theorem not_removes_of_isTerminal {event : ParsedOrderEvent K} (h : event.isTerminal = false) :
    ¬ Removes event.toOrderEvent := by
  obtain ⟨⟨eventClass, orderId, price, orderQty, cumExecQty⟩, tradingPair⟩ := event
  cases eventClass with
  | default | new | pendingNew | partiallyFilled | pendingCancel => exact nofun
  | _ => cases h

/-- The stored order after any events. -/
theorem get_foldl_onEvent (m : OrderManager Category OrderStatus K) (id : UInt64)
    (events : List (ParsedOrderEvent K)) :
    (events.foldl OrderWatcher.onEvent m).get id =
      if (events.filter (·.orderId = id)).any (·.isTerminal) then none
      else (m.get id).map (afterReports (events.filter (·.orderId = id))) := by
  induction events using List.reverseRecOn with
  | nil =>
    have hid : (afterReports [] : _ → Order Category OrderStatus K) = fun o => o := rfl
    show m.get id = if false = true then none else (m.get id).map (afterReports [])
    rw [if_neg Bool.false_ne_true, hid, Option.map_id']
  | append_singleton events event ih =>
    rw [List.foldl_append, List.filter_append]
    show (OrderManager.onResponse _ event.toOrderEvent).get id = _
    by_cases hid : event.orderId = id
    · have hone : [event].filter (·.orderId = id) = [event] :=
        List.filter_cons_of_pos (decide_eq_true hid)
      obtain rfl := hid
      rw [hone, List.any_append, List.any_cons, List.any_nil, Bool.or_false]
      cases hterminal : event.isTerminal with
      | true =>
        rw [get_onResponse_of_removes (event.removes_of_isTerminal hterminal), Bool.or_true,
          if_pos rfl]
        exact if_pos rfl
      | false =>
        refine (get_onResponse event.toOrderEvent _).trans ?_
        show event.accept.foldl OrderMutation.onOrder (OrderManager.get _ event.orderId) = _
        rw [ih, Bool.or_false]
        split_ifs with hremoved
        · exact foldl_onOrder_none event
        · cases m.get event.orderId with
          | none => exact foldl_onOrder_none event
          | some o => exact afterReports_concat _ event hterminal o
    · have hnone : [event].filter (·.orderId = id) = [] :=
        List.filter_cons_of_neg (mt of_decide_eq_true hid)
      rw [hnone, List.append_nil, get_onResponse_of_ne (Ne.symm hid), ih]

theorem pool_onEvent (m : OrderManager Category OrderStatus K) (event : ParsedOrderEvent K) :
    (OrderWatcher.onEvent m event).pool =
      m.pool ++ if event.isTerminal then [event.orderId] else [] := by
  cases hterminal : event.isTerminal with
  | true => exact pool_onResponse_of_removes (event.removes_of_isTerminal hterminal) m
  | false =>
    have hsame := sameOrders_onResponse (not_removes_of_isTerminal hterminal) m
    exact (congrArg (·.numberPool.pool) hsame.uidManager).trans (List.append_nil _).symm

/-- Each terminal event gives its number back, whether the order is stored or not. -/
theorem pool_foldl_onEvent (m : OrderManager Category OrderStatus K)
    (events : List (ParsedOrderEvent K)) :
    (events.foldl OrderWatcher.onEvent m).pool =
      m.pool ++ (events.filter (·.isTerminal)).map (·.orderId) := by
  induction events generalizing m with
  | nil => exact (List.append_nil _).symm
  | cons event events ih =>
    rw [List.foldl_cons, ih, pool_onEvent, List.append_assoc, List.filter_cons]
    cases event.isTerminal <;> rfl

/-- **The order messages and the storage.**  The parser accepts exactly the well-formed messages.
Whatever else comes between them, the messages about an order make of it what `orderAfter` says;
and each terminal message gives a number back. -/
theorem orderMessages_store (numbers : NumberParsers K) :
    (∀ doc event, OrderEventParser.parseAndCreate numbers doc = some event ↔
      IsOrderMessage numbers doc event) ∧
    ∀ (m : OrderManager Category OrderStatus K) (docs : List Json),
      (∀ id, (afterMessages numbers m docs).get id = orderAfter numbers id docs (m.get id)) ∧
      (afterMessages numbers m docs).pool = m.pool ++
        ((docs.filterMap (OrderEventParser.parseAndCreate numbers)).filter (·.isTerminal)).map
          (·.orderId) :=
  ⟨fun _ _ => OrderEventParser.parseAndCreate_eq_some_iff, fun m _ =>
    ⟨fun id => get_foldl_onEvent m id _, pool_foldl_onEvent m _⟩⟩

end Store

end CryptobotAlgo.Aoe.Binance
