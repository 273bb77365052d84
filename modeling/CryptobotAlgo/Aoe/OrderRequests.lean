import CryptobotAlgo.Aoe.Binance.OrderEvent
import CryptobotAlgo.Aoe.Bybit.ExecutionEventParser
import CryptobotAlgo.Aoe.Bybit.OrderEvent
import CryptobotAlgo.Aoe.TradingPairNames

/-!
# Order requests

The manager gives a request to the API of the exchange, which makes a message of it and gives it to
the session; a request that has no message is dropped there.  The classes of the two exchanges have
the same text up to the enumerations, and the functions that print them.

To place an order there are the classes `Standart` and `SpotBuyLimit`, and to cancel one `Spot`.
The others do not compile: their methods do not have the type of the method that they override, and
the amend request sets a category that its base class cannot set.
-/

namespace CryptobotAlgo.Aoe

open Aos

/-- The functions that print the enumerations of an exchange; `none` is the status `false`. -/
structure EnumPrinter (C T : Type) where
  categoryToString : C → Option String
  sideToString : OrderSide → Option String
  orderModeToString : OrderMode → Option String
  timeInForceToString : T → Option String

variable {C S T K E : Type}

/-- `Make` of the three request makers, for the object that `Accept` has made; `time` is what
`std::time` returns. -/
def RequestMaker.make (op : String) (time : ℕ) (value : Option Json) : Option Json :=
  value.map fun value => .object
    [("header", .object [("X-BAPI-TIMESTAMP", .string (toString (time * 1000)))]),
      ("op", .string op), ("args", .array [value])]

namespace PlaceOrder

/-- The classes of the requests. -/
inductive RequestClass
  | standart
  | spotBuyLimit
  deriving DecidableEq, Repr

/-- `place_order::RequestInterface`. -/
structure Request (C T K : Type) extends PlaceOrderRequest C K where
  timeInForce : T
  requestClass : RequestClass
  deriving DecidableEq, Repr

/-- `Standart::Accept` returns the status `false`, whatever the request is. -/
def Standart.accept (_ : Request C T K) : Option Json := none

/-- `SpotBuyLimit::Accept`; `stdToString` is `std::to_string` of a `double`. -/
def SpotBuyLimit.accept (printer : EnumPrinter C T) (stdToString : K → String)
    (order : Request C T K) : Option Json := do
  let category ← printer.categoryToString order.category
  let symbol ← TradingPairToBigStringView.convert order.tradingPair
  let side ← printer.sideToString order.orderSide
  let orderType ← printer.orderModeToString order.orderMode
  let mandatory : List (String × Json) :=
    [("category", .string category), ("symbol", .string symbol), ("side", .string side),
      ("orderType", .string orderType), ("qty", .string (stdToString order.qty)),
      ("price", .string (stdToString order.price))]
  let timeInForce : List (String × Json) :=
    match printer.timeInForceToString order.timeInForce with
    | none => []
    | some value => [("timeInForce", .string value)]
  some (.object (mandatory ++ timeInForce ++ [("orderLinkId", .string (toString order.orderId))]))

/-- `Accept` of the class of the request. -/
def Request.accept (printer : EnumPrinter C T) (stdToString : K → String)
    (order : Request C T K) : Option Json :=
  match order.requestClass with
  | .standart => Standart.accept order
  | .spotBuyLimit => SpotBuyLimit.accept printer stdToString order

end PlaceOrder

namespace CancelOrder

structure Spot (C : Type) where
  category : C
  orderId : UInt64
  tradingPair : TradingPair
  deriving DecidableEq, Repr

def Spot.accept {T : Type} (printer : EnumPrinter C T) (order : Spot C) : Option Json := do
  let category ← printer.categoryToString order.category
  let symbol ← TradingPairToBigStringView.convert order.tradingPair
  some (.object [("category", .string category), ("symbol", .string symbol),
    ("orderLinkId", .string (toString order.orderId))])

end CancelOrder

/-- A call of a method of `SingleOrderAPI`. -/
inductive SingleOrderAPICall (C T K : Type)
  | placeOrder (order : PlaceOrder.Request C T K) (time : ℕ)
  | cancelOrder (order : CancelOrder.Spot C) (time : ℕ)
  deriving DecidableEq, Repr

/-- What the call gives to `AsyncWrite` of the session. -/
def SingleOrderAPICall.request (printer : EnumPrinter C T) (stdToString : K → String) :
    SingleOrderAPICall C T K → Option Json
  | placeOrder order time =>
    RequestMaker.make "order.create" time (order.accept printer stdToString)
  | cancelOrder order time => RequestMaker.make "order.cancel" time (order.accept printer)

/-! ### The manager with the API -/

/-- A call of a method of the manager, with the time at which it is made. -/
inductive OrderRequestCall (E C T K : Type)
  | placeOrderManualId (order : PlaceOrder.Request C T K) (uid : UInt64) (time : ℕ)
  | placeOrderAutoId (order : PlaceOrder.Request C T K) (time : ℕ)
  | cancelOrder (order : CancelOrder.Spot C) (time : ℕ)
  | onResponse (event : E)
  deriving DecidableEq, Repr

/-- The request, as it is when the manager gives it to the API. -/
def PlaceOrder.Request.sent (order : Request C T K) (time : ℕ) :
    SentOrder C K → Option (SingleOrderAPICall C T K)
  | .placeOrder typed => some (.placeOrder { order with toPlaceOrderRequest := typed } time)
  | _ => none

/-- The manager after a call, and the calls that it makes to the API. -/
def OrderManager.request [OrderStatusEnum S] [OrderEventInterface E C S K]
    (m : OrderManager C S K) :
    OrderRequestCall E C T K → OrderManager C S K × List (SingleOrderAPICall C T K)
  | .placeOrderManualId order uid time =>
    let r := m.placeOrderManualId order.toPlaceOrderRequest uid
    (r.1, r.2.filterMap (order.sent time))
  | .placeOrderAutoId order time =>
    let r := m.placeOrderAutoId order.toPlaceOrderRequest
    (r.1, r.2.filterMap (order.sent time))
  | .cancelOrder order time => ((m.cancelOrder order.orderId).1, [.cancelOrder order time])
  | .onResponse event => (m.onResponse event, [])

/-- The manager under requests and events in any order. -/
def orderRequestMachine (E C S T K : Type) [OrderStatusEnum S] [OrderEventInterface E C S K] :
    Machine (OrderManager C S K) (OrderRequestCall E C T K) (SingleOrderAPICall C T K) where
  enabled _ _ := True
  step := OrderManager.request

/-! ### The enumerations -/

namespace Bybit

inductive TimeInForce
  | kInvalid
  | kGTC
  | kIOC
  | kFOK
  | kDAY
  | kGTD
  | kOPG
  | kCLS
  | kGTX
  | kMOC
  | kLOC
  deriving DecidableEq, Repr

def categoryToString : Category → Option String
  | .kInvalid => none
  | .kSpot => some "spot"
  | .kLinear => some "linear"
  | .kInverse => some "inverse"

def sideToString : OrderSide → Option String
  | .kInvalid => none
  | .kSell => some "Sell"
  | .kBuy => some "Buy"

def orderModeToString : OrderMode → Option String
  | .kInvalid => none
  | .kMarket => some "Market"
  | .kLimit => some "Limit"

def timeInForceToString : TimeInForce → Option String
  | .kInvalid => none
  | .kGTC => some "GTC"
  | .kIOC => some "IOC"
  | .kFOK => some "FOK"
  | .kDAY => some "DAY"
  | .kGTD => some "GTD"
  | .kOPG => some "OPG"
  | .kCLS => some "CLS"
  | .kGTX => some "GTX"
  | .kMOC => some "MOC"
  | .kLOC => some "LOC"

def enumPrinter : EnumPrinter Category TimeInForce :=
  ⟨categoryToString, sideToString, orderModeToString, timeInForceToString⟩

/-- A request with what the constructor of `SpotBuyLimit` sets. -/
def spotBuyLimit (tradingPair : TradingPair) (price qty : K) :
    PlaceOrder.Request Category TimeInForce K :=
  ⟨⟨.kSpot, .kBuy, .kLimit, 0, tradingPair, price, qty⟩, .kInvalid, .spotBuyLimit⟩

end Bybit

namespace Binance

inductive TimeInForce
  | kInvalid
  | kGTC
  | kIOC
  | kFOK
  deriving DecidableEq, Repr

def categoryToString : Category → Option String
  | .kInvalid => none
  | .kSpot => some "spot"
  | .kFutures => some "linear"

def sideToString : OrderSide → Option String
  | .kInvalid => none
  | .kSell => some "SELL"
  | .kBuy => some "BUY"

def orderModeToString : OrderMode → Option String
  | .kInvalid => none
  | .kMarket => some "MARKET"
  | .kLimit => some "LIMIT"

def timeInForceToString : TimeInForce → Option String
  | .kInvalid => none
  | .kGTC => some "GTC"
  | .kIOC => some "IOC"
  | .kFOK => some "FOK"

def enumPrinter : EnumPrinter Category TimeInForce :=
  ⟨categoryToString, sideToString, orderModeToString, timeInForceToString⟩

end Binance

end CryptobotAlgo.Aoe
