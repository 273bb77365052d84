import CryptobotAlgo.Aoe.Bybit.Equiv.ExecutionEventParser
import CryptobotAlgo.Aoe.Equiv.OrderBookEventParsers
import CryptobotAlgo.Aoe.ExecutionPipeline

/-!
# What the parsers of the executions accept

A Bybit message may begin with items of a category or a side that is not registered, which are
skipped if they are well formed otherwise; the first other item is read, and those behind it are
not looked at.  A Binance message is about one execution.
-/

namespace CryptobotAlgo.Aoe

open Aos
open Bybit (HasValue IsItem)
open Bybit.ExecutionEventParser (numberInString parseItem parseItems)

variable {K : Type} {numbers : NumberParsers K} {doc item : Json} {key : String}

theorem numberInString_eq_some_iff {N : Type} {get : String → Option N} {value : N} :
    numberInString get item key = some value ↔ HasValue get item key value := by
  unfold numberInString HasValue
  simp only [Option.bind_eq_bind, Option.bind_eq_some_iff, getString_eq_some_iff]
  constructor
  · rintro ⟨json, hjson, text, rfl, hvalue⟩
    exact ⟨text, hjson, hvalue⟩
  · rintro ⟨text, hfield, hvalue⟩
    exact ⟨.string text, hfield, text, rfl, hvalue⟩

/-! ### Bybit -/

/-- The item has what is asked of every item, and a kind that is not registered. -/
structure Bybit.IsSkipped (numbers : NumberParsers K) (item : Json) : Prop where
  kind : ∃ category side, item.field "category" = some (.string category) ∧
    item.field "side" = some (.string side) ∧ ∀ kind, ¬ IsKind category side kind
  fee : ∃ fee, HasValue numbers.getDouble item "execFee" fee
  execPrice : ∃ price, HasValue numbers.getDouble item "execPrice" price
  execQty : ∃ qty, HasValue numbers.getDouble item "execQty" qty
  execValue : ∃ value, HasValue numbers.getDouble item "execValue" value
  symbol : ∃ symbol, item.field "symbol" = some symbol
  orderId : ∃ id, HasValue numbers.getUint64 item "orderId" id

/-- The message is well formed up to the item that stands for the execution. -/
def Bybit.IsExecutionMessage (numbers : NumberParsers K) (doc : Json)
    (event : Bybit.ExecutionEvent K) : Prop :=
  ∃ skipped item rest, doc.field "data" = some (.array (skipped ++ item :: rest)) ∧
    (∀ other ∈ skipped, IsSkipped numbers other) ∧ IsItem numbers item event

theorem parseItem_eq_some_iff {event : Bybit.ExecutionEvent K} :
    parseItem numbers item = some (some event) ↔ IsItem numbers item event := by
  refine ⟨fun h => ?_, Bybit.parseItem_eq_some⟩
  unfold parseItem at h
  simp only [Option.bind_eq_bind, Option.bind_eq_some_iff, numberInString_eq_some_iff,
    getString_eq_some_iff] at h
  obtain ⟨_, hcategory, _, hside, fee, hfee, execPrice, hexecPrice, execQty, hexecQty, execValue,
    hexecValue, symbol, hsymbol, orderId, horderId, category, rfl, side, rfl, hrest⟩ := h
  cases hkind : Bybit.ExecutionEventParser.factoryMap.lookup (category, side) with
  | none =>
    rw [hkind] at hrest
    exact absurd hrest nofun
  | some kind =>
    rw [hkind] at hrest
    simp only [Option.bind_eq_some_iff, getString_eq_some_iff] at hrest
    obtain ⟨name, rfl, tradingPair, hpair, hevent⟩ := hrest
    obtain rfl := Option.some.inj (Option.some.inj hevent)
    exact ⟨⟨category, side, hcategory, hside, Bybit.lookup_eq_some_iff_isKind.mp hkind⟩, hfee,
      hexecPrice, hexecQty, hexecValue, ⟨name, hsymbol, hpair⟩, horderId, rfl⟩

theorem Bybit.lookup_eq_none_iff_not_isKind {category side : String} :
    Bybit.ExecutionEventParser.factoryMap.lookup (category, side) = none ↔
      ∀ kind, ¬ Bybit.IsKind category side kind := by
  rw [Option.eq_none_iff_forall_ne_some]
  exact forall_congr' fun kind => not_congr Bybit.lookup_eq_some_iff_isKind

theorem parseItem_eq_none_iff :
    parseItem numbers item = some none ↔ Bybit.IsSkipped numbers item := by
  unfold parseItem
  simp only [Option.bind_eq_bind, Option.bind_eq_some_iff, numberInString_eq_some_iff,
    getString_eq_some_iff]
  constructor
  · rintro ⟨_, hcategory, _, hside, fee, hfee, execPrice, hexecPrice, execQty, hexecQty, execValue,
      hexecValue, symbol, hsymbol, orderId, horderId, category, rfl, side, rfl, hrest⟩
    cases hkind : Bybit.ExecutionEventParser.factoryMap.lookup (category, side) with
    | none =>
      exact ⟨⟨category, side, hcategory, hside, Bybit.lookup_eq_none_iff_not_isKind.mp hkind⟩,
        ⟨fee, hfee⟩, ⟨execPrice, hexecPrice⟩, ⟨execQty, hexecQty⟩, ⟨execValue, hexecValue⟩,
        ⟨symbol, hsymbol⟩, ⟨orderId, horderId⟩⟩
    | some kind =>
      rw [hkind] at hrest
      simp only [Option.bind_eq_some_iff] at hrest
      obtain ⟨_, _, _, _, hevent⟩ := hrest
      exact absurd (Option.some.inj hevent) nofun
  · rintro ⟨⟨category, side, hcategory, hside, hkind⟩, ⟨fee, hfee⟩, ⟨execPrice, hexecPrice⟩,
      ⟨execQty, hexecQty⟩, ⟨execValue, hexecValue⟩, ⟨symbol, hsymbol⟩, ⟨orderId, horderId⟩⟩
    refine ⟨_, hcategory, _, hside, fee, hfee, execPrice, hexecPrice, execQty, hexecQty, execValue,
      hexecValue, symbol, hsymbol, orderId, horderId, category, rfl, side, rfl, ?_⟩
    rw [Bybit.lookup_eq_none_iff_not_isKind.mpr hkind]

theorem parseItems_eq_some_iff {items : List Json} {event : Bybit.ExecutionEvent K} :
    parseItems numbers items = some event ↔
      ∃ skipped item rest, items = skipped ++ item :: rest ∧
        (∀ other ∈ skipped, Bybit.IsSkipped numbers other) ∧ IsItem numbers item event := by
  induction items with
  | nil =>
    refine iff_of_false nofun ?_
    rintro ⟨skipped, item, rest, hnil, -⟩
    exact absurd hnil.symm (List.append_ne_nil_of_right_ne_nil skipped (List.cons_ne_nil item rest))
  | cons first items ih =>
    rw [parseItems]
    constructor
    · intro h
      cases hfirst : parseItem numbers first with
      | none =>
        rw [hfirst] at h
        exact absurd h nofun
      | some result =>
        rw [hfirst] at h
        cases result with
        | none =>
          obtain ⟨skipped, item, rest, rfl, hskipped, hitem⟩ := ih.mp h
          exact ⟨first :: skipped, item, rest, rfl,
            List.forall_mem_cons.mpr ⟨parseItem_eq_none_iff.mp hfirst, hskipped⟩, hitem⟩
        | some found =>
          obtain rfl := Option.some.inj h
          exact ⟨[], first, items, rfl, nofun, parseItem_eq_some_iff.mp hfirst⟩
    · rintro ⟨skipped, item, rest, heq, hskipped, hitem⟩
      cases skipped with
      | nil =>
        obtain ⟨rfl, rfl⟩ := List.cons.inj heq
        rw [parseItem_eq_some_iff.mpr hitem]
      | cons other skipped =>
        obtain ⟨rfl, rfl⟩ := List.cons.inj heq
        obtain ⟨hother, hskipped⟩ := List.forall_mem_cons.mp hskipped
        rw [parseItem_eq_none_iff.mpr hother]
        exact ih.mpr ⟨skipped, item, rest, rfl, hskipped, hitem⟩

/-- The executions of Bybit. -/
theorem Bybit.ExecutionEventParser.parseAndCreate_eq_some_iff {event : Bybit.ExecutionEvent K} :
    Bybit.ExecutionEventParser.parseAndCreate numbers doc = some event ↔
      Bybit.IsExecutionMessage numbers doc event := by
  unfold Bybit.ExecutionEventParser.parseAndCreate Bybit.IsExecutionMessage
  simp only [Option.bind_eq_bind, Option.bind_eq_some_iff, getArray_eq_some_iff,
    parseItems_eq_some_iff]
  constructor
  · rintro ⟨_, hdata, items, rfl, skipped, item, rest, rfl, hskipped, hitem⟩
    exact ⟨skipped, item, rest, hdata, hskipped, hitem⟩
  · rintro ⟨skipped, item, rest, hdata, hskipped, hitem⟩
    exact ⟨_, hdata, _, rfl, skipped, item, rest, rfl, hskipped, hitem⟩

/-! ### Binance -/

/-- The side that stands for a kind of execution of the spot market. -/
inductive Binance.Spot.IsKind : String → ExecutionKind → Prop
  | buy : IsKind "BUY" .spotBuy
  | sell : IsKind "SELL" .spotSell

/-- The side that stands for a kind of execution of the futures market. -/
inductive Binance.Futures.IsKind : String → ExecutionKind → Prop
  | buy : IsKind "BUY" .derivativeBuy
  | sell : IsKind "SELL" .derivativeSell

/-- The message is well formed, and stands for the execution. -/
structure Binance.IsExecutionMessage (IsKind : String → ExecutionKind → Prop)
    (numbers : NumberParsers K) (doc : Json) (event : Binance.ExecutionEvent K) : Prop where
  execType : doc.field "x" = some (.string "TRADE")
  kind : ∃ side, doc.field "S" = some (.string side) ∧ IsKind side event.kind
  fee : HasValue numbers.getDouble doc "n" event.fee
  execPrice : HasValue numbers.getDouble doc "L" event.execPrice
  execQty : HasValue numbers.getDouble doc "l" event.execQtyAbs
  execValue : HasValue numbers.getDouble doc "Y" event.execValue
  orderId : HasValue numbers.getUint64 doc "c" event.orderId
  tradingPair : HasValue BigStringViewToTradingPair.convert doc "s" event.tradingPair
  exchangeId : event.exchangeId = .kBinance

theorem Binance.Spot.lookup_eq_some_iff_isKind (side : String) (kind : ExecutionKind) :
    Binance.Spot.factoryMap.lookup side = some kind ↔ Binance.Spot.IsKind side kind := by
  rw [Bybit.lookup_eq_some_iff_mem (by decide)]
  constructor
  · intro h
    simp only [Binance.Spot.factoryMap, List.mem_cons, Prod.mk.injEq, List.not_mem_nil,
      or_false] at h
    obtain ⟨rfl, rfl⟩ | ⟨rfl, rfl⟩ := h
    · exact .buy
    · exact .sell
  · intro h
    cases h with
    | buy | sell => simp [Binance.Spot.factoryMap]

theorem Binance.Futures.lookup_eq_some_iff_isKind (side : String) (kind : ExecutionKind) :
    Binance.Futures.factoryMap.lookup side = some kind ↔ Binance.Futures.IsKind side kind := by
  rw [Bybit.lookup_eq_some_iff_mem (by decide)]
  constructor
  · intro h
    simp only [Binance.Futures.factoryMap, List.mem_cons, Prod.mk.injEq, List.not_mem_nil,
      or_false] at h
    obtain ⟨rfl, rfl⟩ | ⟨rfl, rfl⟩ := h
    · exact .buy
    · exact .sell
  · intro h
    cases h with
    | buy | sell => simp [Binance.Futures.factoryMap]

theorem Binance.parseExecution_eq_some_iff {factoryMap : List (String × ExecutionKind)}
    {IsKind : String → ExecutionKind → Prop}
    (hmap : ∀ side kind, factoryMap.lookup side = some kind ↔ IsKind side kind)
    {event : Binance.ExecutionEvent K} :
    Binance.parseExecution factoryMap numbers doc = some event ↔
      Binance.IsExecutionMessage IsKind numbers doc event := by
  unfold Binance.parseExecution
  rw [Option.bind_eq_bind, Option.bind_eq_some_iff]
  constructor
  · rintro ⟨execType, htype, hrest⟩
    rw [stringField_eq_some_iff] at htype
    by_cases htrade : execType = "TRADE"
    · rw [if_neg (not_not_intro htrade)] at hrest
      simp only [Option.bind_eq_bind, Option.bind_eq_some_iff, numberInString_eq_some_iff,
        getString_eq_some_iff] at hrest
      obtain ⟨_, hsymbol, _, hside, fee, hfee, execPrice, hexecPrice, execQty, hexecQty, execValue,
        hexecValue, orderId, horderId, side, rfl, kind, hkind, symbol, rfl, tradingPair, hpair,
        hevent⟩ := hrest
      obtain rfl := Option.some.inj hevent
      rw [htrade] at htype
      exact ⟨htype, ⟨side, hside, (hmap _ _).mp hkind⟩, hfee, hexecPrice, hexecQty, hexecValue,
        horderId, ⟨symbol, hsymbol, hpair⟩, rfl⟩
    · rw [if_pos htrade] at hrest
      exact absurd hrest nofun
  · rintro ⟨htype, ⟨side, hside, hkind⟩, hfee, hexecPrice, hexecQty, hexecValue, horderId,
      ⟨symbol, hsymbol, hpair⟩, hexchange⟩
    refine ⟨_, stringField_eq_some_iff.mpr htype, ?_⟩
    rw [if_neg (not_not_intro rfl)]
    simp only [Option.bind_eq_bind, Option.bind_eq_some_iff, numberInString_eq_some_iff,
      getString_eq_some_iff]
    obtain ⟨⟨kind, execPrice, execQty, exchangeId, tradingPair⟩, fee, execValue, orderId⟩ := event
    obtain rfl := hexchange
    exact ⟨_, hsymbol, _, hside, fee, hfee, execPrice, hexecPrice, execQty, hexecQty, execValue,
      hexecValue, orderId, horderId, side, rfl, kind, (hmap _ _).mpr hkind, symbol, rfl,
      tradingPair, hpair, rfl⟩

/-- **The parsers of the executions** accept exactly the well-formed messages, and read what these
say; those of the trades of Binance do the same as those of its executions. -/
theorem executionMessages_iff (numbers : NumberParsers K) (doc : Json) :
    (∀ event, Bybit.ExecutionEventParser.parseAndCreate numbers doc = some event ↔
      Bybit.IsExecutionMessage numbers doc event) ∧
    (∀ event, (Binance.Spot.ExecutionEventParser.parseAndCreate numbers doc = some event ↔
        Binance.IsExecutionMessage Binance.Spot.IsKind numbers doc event) ∧
      (Binance.Spot.TradeEventParser.parseAndCreate numbers doc = some event ↔
        Binance.IsExecutionMessage Binance.Spot.IsKind numbers doc event)) ∧
    ∀ event, (Binance.Futures.ExecutionEventParser.parseAndCreate numbers doc = some event ↔
        Binance.IsExecutionMessage Binance.Futures.IsKind numbers doc event) ∧
      (Binance.Futures.TradeEventParser.parseAndCreate numbers doc = some event ↔
        Binance.IsExecutionMessage Binance.Futures.IsKind numbers doc event) := by
  have hspot : ∀ event, Binance.parseExecution Binance.Spot.factoryMap numbers doc = some event ↔
      Binance.IsExecutionMessage Binance.Spot.IsKind numbers doc event :=
    fun _ => Binance.parseExecution_eq_some_iff Binance.Spot.lookup_eq_some_iff_isKind
  have hfutures : ∀ event,
      Binance.parseExecution Binance.Futures.factoryMap numbers doc = some event ↔
        Binance.IsExecutionMessage Binance.Futures.IsKind numbers doc event :=
    fun _ => Binance.parseExecution_eq_some_iff Binance.Futures.lookup_eq_some_iff_isKind
  exact ⟨fun _ => Bybit.ExecutionEventParser.parseAndCreate_eq_some_iff,
    fun event => ⟨hspot event, hspot event⟩, fun event => ⟨hfutures event, hfutures event⟩⟩

end CryptobotAlgo.Aoe
