import CryptobotAlgo.Aoe.Bybit.Equiv.ExecutionEventParser
import CryptobotAlgo.Aoe.Bybit.OrderEventParser

/-!
# Which order messages are accepted

With the statuses of `RegisterFromConfig` in `factory_map_`, the `for` accepts every message whose
first item is well formed and rejects those without a known status
(`acceptsMessage_registerFromConfig`).  The constructor leaves `factory_map_` empty, so a new parser
rejects every message (`parseAndCreate_new`), and does what it should exactly when the message has
to be rejected (`acceptsMessage_new_iff`).
-/

namespace CryptobotAlgo.Aoe.Bybit

open Aos

variable {K : Type}

/-- The status that stands for a class of events. -/
inductive IsStatus : String → OrderEventClass → Prop
  | new : IsStatus "New" .new
  | partiallyFilled : IsStatus "PartiallyFilled" .partiallyFilled
  | untriggered : IsStatus "Untriggered" .untriggered
  | rejected : IsStatus "Rejected" .rejected
  | partiallyFilledCanceled : IsStatus "PartiallyFilledCanceled" .partiallyFilledCancelled
  | filled : IsStatus "Filled" .filled
  | cancelled : IsStatus "Cancelled" .cancelled
  | triggered : IsStatus "Triggered" .triggered
  | deactivated : IsStatus "Deactivated" .deactivated

/-- The item is well formed, has a known status, and reports the event. -/
structure IsOrderItem (numbers : NumberParsers K) (item : Json) (event : ParsedOrderEvent K) :
    Prop where
  eventClass : ∃ status, item.field "orderStatus" = some (.string status) ∧
    IsStatus status event.eventClass
  price : HasValue numbers.getDouble item "price" event.price
  leavesQty : HasValue numbers.getDouble item "leavesQty" event.leavesQty
  orderId : HasValue numbers.getUint64 item "orderLinkId" event.orderId
  tradingPair : HasValue BigStringViewToTradingPair.convert item "symbol" event.tradingPair

/-- The first item of the message is well formed, has a known status, and reports the event. -/
def ReportsFirst (numbers : NumberParsers K) (doc : Json) (event : ParsedOrderEvent K) : Prop :=
  ∃ item items, doc.field "data" = some (.array (item :: items)) ∧ IsOrderItem numbers item event

/-- The status of the item is a string which stands for no class. -/
def HasUnknownStatus (item : Json) : Prop :=
  ∃ status, item.field "orderStatus" = some (.string status) ∧
    ∀ eventClass, ¬ IsStatus status eventClass

/-- What is expected of the parser for a message. -/
structure AcceptsMessage (parser : OrderEventParser) (numbers : NumberParsers K) (doc : Json) :
    Prop where
  accepts : ∀ event, ReportsFirst numbers doc event →
    parser.parseAndCreate numbers doc = some event
  rejects : ∀ items, doc.field "data" = some (.array items) →
    (∀ item ∈ items, HasUnknownStatus item) → parser.parseAndCreate numbers doc = none

theorem lookup_eq_some_iff_isStatus {status : String} {eventClass : OrderEventClass} :
    OrderEventParser.new.registerFromConfig.factoryMap.lookup status = some eventClass ↔
      IsStatus status eventClass := by
  rw [lookup_eq_some_iff_mem (by decide)]
  constructor
  · intro h
    simp only [OrderEventParser.registerFromConfig, OrderEventParser.new, List.append_nil,
      List.mem_cons, Prod.mk.injEq, List.not_mem_nil, or_false] at h
    obtain ⟨rfl, rfl⟩ | ⟨rfl, rfl⟩ | ⟨rfl, rfl⟩ | ⟨rfl, rfl⟩ | ⟨rfl, rfl⟩ | ⟨rfl, rfl⟩ |
      ⟨rfl, rfl⟩ | ⟨rfl, rfl⟩ | ⟨rfl, rfl⟩ := h
    all_goals constructor
  · intro h
    cases h <;> simp [OrderEventParser.registerFromConfig, OrderEventParser.new]

section Items

variable {parser : OrderEventParser} {numbers : NumberParsers K}

theorem parseItem_of_isOrderItem {item : Json} {event : ParsedOrderEvent K}
    (h : IsOrderItem numbers item event) :
    OrderEventParser.new.registerFromConfig.parseItem numbers item = some (some event) := by
  obtain ⟨status, hstatus, hclass⟩ := h.eventClass
  obtain ⟨symbol, hsymbol, hpair⟩ := h.tradingPair
  unfold OrderEventParser.parseItem
  rw [numberInString_eq_some h.price, numberInString_eq_some h.leavesQty, hsymbol,
    numberInString_eq_some h.orderId, hstatus]
  simp only [Option.bind_eq_bind, Option.bind_some, Json.getString,
    lookup_eq_some_iff_isStatus.mpr hclass, hpair]

/-- No event is made for a status that is not in `factory_map_`. -/
theorem parseItem_ne_event {item : Json}
    (h : ∀ status, item.field "orderStatus" = some (.string status) →
      parser.factoryMap.lookup status = none)
    (event : ParsedOrderEvent K) : parser.parseItem numbers item ≠ some (some event) := by
  intro hitem
  unfold OrderEventParser.parseItem at hitem
  simp only [Option.bind_eq_bind, Option.bind_eq_some_iff] at hitem
  obtain ⟨price, -, leavesQty, -, symbol, -, orderId, -, value, hvalue, status, hstatus, hitem⟩ :=
    hitem
  -- the status was looked up, so it is a string
  have hstring : value = .string status := by
    cases value with
    | string text => rw [Option.some.inj hstatus]
    | _ => contradiction
  rw [h status (hstring ▸ hvalue)] at hitem
  exact absurd (Option.some.inj hitem) nofun

theorem parseItems_eq_none {items : List Json}
    (h : ∀ item ∈ items, ∀ status, item.field "orderStatus" = some (.string status) →
      parser.factoryMap.lookup status = none) :
    parser.parseItems numbers items = none := by
  induction items with
  | nil => rfl
  | cons item items ih =>
    have hrest := ih fun other hother => h other (List.mem_cons_of_mem item hother)
    have hitem : ∀ event, parser.parseItem numbers item ≠ some (some event) :=
      parseItem_ne_event (h item List.mem_cons_self)
    unfold OrderEventParser.parseItems
    split
    · rfl
    · exact hrest
    · next event hevent => exact absurd hevent (hitem event)

theorem parseAndCreate_eq {doc : Json} {items : List Json}
    (h : doc.field "data" = some (.array items)) :
    parser.parseAndCreate numbers doc = parser.parseItems numbers items := by
  unfold OrderEventParser.parseAndCreate
  rw [h]
  rfl

end Items

/-- With the statuses registered, the `for` treats every message as it should. -/
theorem acceptsMessage_registerFromConfig (numbers : NumberParsers K) (doc : Json) :
    AcceptsMessage OrderEventParser.new.registerFromConfig numbers doc where
  accepts := by
    rintro event ⟨item, items, hdata, hitem⟩
    rw [parseAndCreate_eq hdata]
    unfold OrderEventParser.parseItems
    rw [parseItem_of_isOrderItem hitem]
  rejects := by
    intro items hdata hitems
    rw [parseAndCreate_eq hdata]
    apply parseItems_eq_none
    intro item hitem status hstatus
    obtain ⟨text, htext, hunknown⟩ := hitems item hitem
    rw [htext] at hstatus
    obtain rfl : text = status := Json.string.inj (Option.some.inj hstatus)
    rw [Option.eq_none_iff_forall_ne_some]
    exact fun eventClass => mt lookup_eq_some_iff_isStatus.mp (hunknown eventClass)

/-- A new parser rejects every message. -/
theorem parseAndCreate_new (numbers : NumberParsers K) (doc : Json) :
    OrderEventParser.new.parseAndCreate numbers doc = none := by
  unfold OrderEventParser.parseAndCreate
  cases hdata : doc.field "data" with
  | none => rfl
  | some data =>
    cases data with
    | array items =>
      exact parseItems_eq_none fun item _ status _ => rfl
    | _ => rfl

/-- **A new parser** treats a message as it should exactly when the first item is not well formed
with a known status. -/
theorem acceptsMessage_new_iff (numbers : NumberParsers K) (doc : Json) :
    AcceptsMessage OrderEventParser.new numbers doc ↔
      ¬ ∃ event, ReportsFirst numbers doc event := by
  constructor
  · rintro h ⟨event, hevent⟩
    have haccepted := h.accepts event hevent
    rw [parseAndCreate_new] at haccepted
    contradiction
  · intro h
    exact ⟨fun event hevent => absurd ⟨event, hevent⟩ h,
      fun _ _ _ => parseAndCreate_new numbers doc⟩

/-- A message about a new order. -/
def newOrderMessage : Json :=
  .object [("data", .array [.object [("symbol", .string "BTCUSDT"), ("price", .string "100"),
    ("leavesQty", .string "1"), ("orderLinkId", .string "7"), ("orderStatus", .string "New")]])]

theorem newOrderMessage_rejected :
    ReportsFirst fillNumbers newOrderMessage ⟨⟨.new, 7, 100, 1⟩, .kBTCUSDT⟩ ∧
      OrderEventParser.new.parseAndCreate fillNumbers newOrderMessage = none := by
  refine ⟨⟨_, [], rfl, ?_⟩, rfl⟩
  exact ⟨⟨"New", rfl, .new⟩, ⟨"100", rfl, rfl⟩, ⟨"1", rfl, rfl⟩, ⟨"7", rfl, rfl⟩,
    ⟨"BTCUSDT", rfl, rfl⟩⟩

end CryptobotAlgo.Aoe.Bybit
