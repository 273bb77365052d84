import CryptobotAlgo.Aoe.OrderBookEventParsers
import CryptobotAlgo.Aoe.Bybit.Equiv.ExecutionEventParser

/-!
# What the parsers of the order book messages accept

Each parser accepts exactly the messages that are well formed, and returns the event that the
message stands for: `IsOrderBookMessage` for Bybit, `IsDiffMessage` and `IsSnapshotMessage` for
Binance.  `bookMessages_iff` has them together.
-/

namespace CryptobotAlgo.Aoe

open Aos
open Bybit (HasValue)

variable {K : Type} {numbers : NumberParsers K} {doc : Json} {key : String}

/-- The field `key` is a number, which is read as `value`. -/
def HasNumber (numbers : NumberParsers K) (doc : Json) (key : String) (value : UInt64) : Prop :=
  ∃ text, doc.field key = some (.number text) ∧ numbers.getUint64 text = some value

/-- The entry is an array that starts with the price and the quantity of the level. -/
def IsLevel (numbers : NumberParsers K) (entry : Json) (level : OrderBookLevelRaw K K) : Prop :=
  ∃ price qty rest, entry = .array (.string price :: .string qty :: rest) ∧
    numbers.getDouble price = some level.price ∧ numbers.getDouble qty = some level.qty

/-- The field `key` is an array of the levels, or there is no array and no level. -/
def HasLevels (numbers : NumberParsers K) (doc : Json) (key : String)
    (levels : List (OrderBookLevelRaw K K)) : Prop :=
  (∃ entries, doc.field key = some (.array entries) ∧
    List.Forall₂ (IsLevel numbers) entries levels) ∨
  levels = [] ∧ ∀ entries, doc.field key ≠ some (.array entries)

/-! ### Fields -/

theorem getString_eq_some_iff {value : Json} {text : String} :
    value.getString = some text ↔ value = .string text := by
  cases value with
  | string text' =>
    show some text' = some text ↔ _
    rw [Option.some_inj, Json.string.injEq]
  | null | bool | number | array | object => exact iff_of_false nofun nofun

theorem getArray_eq_some_iff {value : Json} {items : List Json} :
    value.getArray = some items ↔ value = .array items := by
  cases value with
  | array items' =>
    show some items' = some items ↔ _
    rw [Option.some_inj, Json.array.injEq]
  | null | bool | number | string | object => exact iff_of_false nofun nofun

theorem getObject_eq_some_iff {value : Json} {fields : List (String × Json)} :
    value.getObject = some fields ↔ value = .object fields := by
  cases value with
  | object fields' =>
    show some fields' = some fields ↔ _
    rw [Option.some_inj, Json.object.injEq]
  | null | bool | number | string | array => exact iff_of_false nofun nofun

theorem stringField_eq_some_iff {text : String} :
    stringField doc key = some text ↔ doc.field key = some (.string text) := by
  unfold stringField
  rw [Option.bind_eq_bind, Option.bind_eq_some_iff]
  constructor
  · rintro ⟨value, hvalue, htext⟩
    rw [hvalue, getString_eq_some_iff.mp htext]
  · exact fun h => ⟨.string text, h, rfl⟩

theorem uint64Field_eq_some_iff {value : UInt64} :
    uint64Field numbers doc key = some value ↔ HasNumber numbers doc key value := by
  unfold uint64Field
  rw [Option.bind_eq_bind, Option.bind_eq_some_iff]
  constructor
  · rintro ⟨json, hjson, hvalue⟩
    cases json with
    | number text => exact ⟨text, hjson, hvalue⟩
    | null | bool | string | array | object => exact absurd hvalue nofun
  · rintro ⟨text, hfield, hvalue⟩
    exact ⟨.number text, hfield, hvalue⟩

theorem tradingPairField_eq_some_iff {tradingPair : TradingPair} :
    tradingPairField doc key = some tradingPair ↔
      HasValue BigStringViewToTradingPair.convert doc key tradingPair := by
  unfold tradingPairField HasValue
  rw [Option.bind_eq_bind, Option.bind_eq_some_iff]
  simp only [stringField_eq_some_iff]

/-! ### Levels -/

theorem doubleItem_eq_some_iff {item : Option Json} {value : K} :
    doubleItem numbers item = some value ↔
      ∃ text, item = some (.string text) ∧ numbers.getDouble text = some value := by
  unfold doubleItem
  simp only [Option.bind_eq_bind, Option.bind_eq_some_iff, getString_eq_some_iff]
  constructor
  · rintro ⟨json, hjson, text, rfl, hvalue⟩
    exact ⟨text, hjson, hvalue⟩
  · rintro ⟨text, hitem, hvalue⟩
    exact ⟨.string text, hitem, text, rfl, hvalue⟩

theorem parseLevel_eq_some_iff {entry : Json} {level : OrderBookLevelRaw K K} :
    parseLevel numbers entry = some level ↔ IsLevel numbers entry level := by
  unfold parseLevel
  simp only [Option.bind_eq_bind, Option.bind_eq_some_iff, getArray_eq_some_iff,
    doubleItem_eq_some_iff]
  constructor
  · rintro ⟨pair, rfl, price, ⟨priceText, hprice, hgetPrice⟩, qty, ⟨qtyText, hqty, hgetQty⟩, hlevel⟩
    obtain rfl := Option.some.inj hlevel
    refine ⟨priceText, qtyText, pair.drop 2, ?_, hgetPrice, hgetQty⟩
    -- the first two items are the two strings
    cases pair with
    | nil => cases hprice
    | cons first pair =>
      cases pair with
      | nil => cases hqty
      | cons second rest =>
        obtain rfl := Option.some.inj hprice
        obtain rfl := Option.some.inj hqty
        rfl
  · rintro ⟨priceText, qtyText, rest, rfl, hprice, hqty⟩
    exact ⟨_, rfl, level.price, ⟨priceText, rfl, hprice⟩, level.qty, ⟨qtyText, rfl, hqty⟩, rfl⟩

/-- A loop that stops at the first error. -/
theorem mapM_eq_some_iff {A B : Type} {f : A → Option B} {as : List A} {bs : List B} :
    as.mapM f = some bs ↔ List.Forall₂ (fun a b => f a = some b) as bs := by
  induction as generalizing bs with
  | nil =>
    rw [List.mapM_nil, List.forall₂_nil_left_iff]
    exact ⟨fun h => (Option.some.inj h).symm, fun h => congrArg some h.symm⟩
  | cons a as ih =>
    rw [List.mapM_cons, List.forall₂_cons_left_iff]
    simp only [Option.bind_eq_bind, Option.bind_eq_some_iff, ih]
    constructor
    · rintro ⟨b, hb, bs', hbs', hcons⟩
      exact ⟨b, bs', hb, hbs', (Option.some.inj hcons).symm⟩
    · rintro ⟨b, bs', hb, hbs', rfl⟩
      exact ⟨b, hb, bs', hbs', rfl⟩

theorem parseLevels_eq_some_iff {levels : List (OrderBookLevelRaw K K)} :
    parseLevels numbers doc key = some levels ↔ HasLevels numbers doc key levels := by
  unfold parseLevels HasLevels
  cases hentries : (doc.field key).bind Json.getArray with
  | none =>
    have hnot : ∀ entries, doc.field key ≠ some (.array entries) := by
      intro entries hfield
      rw [hfield] at hentries
      cases hentries
    constructor
    · exact fun h => .inr ⟨(Option.some.inj h).symm, hnot⟩
    · rintro (⟨entries, hfield, -⟩ | ⟨rfl, -⟩)
      · exact absurd hfield (hnot entries)
      · rfl
  | some entries =>
    obtain ⟨value, hvalue, harray⟩ := Option.bind_eq_some_iff.mp hentries
    rw [getArray_eq_some_iff.mp harray] at hvalue
    rw [hvalue]
    refine (mapM_eq_some_iff.trans ?_).trans (or_iff_left fun h => h.2 entries rfl).symm
    simp only [parseLevel_eq_some_iff]
    constructor
    · exact fun h => ⟨entries, rfl, h⟩
    · rintro ⟨entries', hsame, h⟩
      obtain rfl := Json.array.inj (Option.some.inj hsame)
      exact h

/-! ### Bybit -/

namespace Bybit

/-- What an event carries. -/
def Event.ptr : Event K K → OrderBookEvent K K
  | snapshot ptr => ptr
  | diff ptr => ptr

/-- How a message names the kind of the event. -/
def Event.typeName : Event K K → String
  | snapshot _ => "snapshot"
  | diff _ => "delta"

/-- The message is well formed, and stands for the event. -/
structure IsOrderBookMessage (numbers : NumberParsers K) (doc : Json)
    (parsed : ParsedOrderBookEvent K) : Prop where
  eventType : doc.field "type" = some (.string parsed.event.typeName)
  data : ∃ fields, doc.field "data" = some (.object fields) ∧
    HasNumber numbers (.object fields) "u" parsed.event.ptr.updateId ∧
    HasValue BigStringViewToTradingPair.convert (.object fields) "s" parsed.tradingPair ∧
    HasLevels numbers (.object fields) "b" parsed.event.ptr.bids ∧
    HasLevels numbers (.object fields) "a" parsed.event.ptr.asks

theorem lookup_factoryMap_eq_some_iff {name : String} {create : OrderBookEvent K K → Event K K} :
    OrderBookEventParser.factoryMap.lookup name = some create ↔
      name = "snapshot" ∧ create = .snapshot ∨ name = "delta" ∧ create = .diff := by
  unfold OrderBookEventParser.factoryMap
  rw [List.lookup_cons, List.lookup_cons, List.lookup_nil]
  by_cases hsnapshot : name = "snapshot"
  · subst hsnapshot
    simp [eq_comm]
  · by_cases hdelta : name = "delta"
    · subst hdelta
      simp [eq_comm]
    · rw [beq_false_of_ne hsnapshot, beq_false_of_ne hdelta]
      refine iff_of_false nofun ?_
      rintro (⟨h, -⟩ | ⟨h, -⟩)
      · exact hsnapshot h
      · exact hdelta h

/-- The parser accepts the well-formed messages, and reads what they say. -/
theorem OrderBookEventParser.parseAndCreate_eq_some_iff {parsed : ParsedOrderBookEvent K} :
    OrderBookEventParser.parseAndCreate numbers doc = some parsed ↔
      IsOrderBookMessage numbers doc parsed := by
  unfold OrderBookEventParser.parseAndCreate
  simp only [Option.bind_eq_bind, Option.bind_eq_some_iff, stringField_eq_some_iff,
    getObject_eq_some_iff, lookup_factoryMap_eq_some_iff, uint64Field_eq_some_iff,
    tradingPairField_eq_some_iff, parseLevels_eq_some_iff]
  constructor
  · rintro ⟨name, hname, _, hdata, fields, rfl, create, hcreate, updateId, hid, tradingPair, hpair,
      bids, hbids, asks, hasks, hparsed⟩
    obtain rfl := Option.some.inj hparsed
    rcases hcreate with ⟨rfl, rfl⟩ | ⟨rfl, rfl⟩
    · exact ⟨hname, fields, hdata, hid, hpair, hbids, hasks⟩
    · exact ⟨hname, fields, hdata, hid, hpair, hbids, hasks⟩
  · rintro ⟨hname, fields, hdata, hid, hpair, hbids, hasks⟩
    obtain ⟨event, tradingPair⟩ := parsed
    cases event with
    | snapshot ptr =>
      exact ⟨_, hname, _, hdata, fields, rfl, .snapshot, .inl ⟨rfl, rfl⟩, _, hid, _, hpair, _,
        hbids, _, hasks, rfl⟩
    | diff ptr =>
      exact ⟨_, hname, _, hdata, fields, rfl, .diff, .inr ⟨rfl, rfl⟩, _, hid, _, hpair, _,
        hbids, _, hasks, rfl⟩

end Bybit

/-! ### Binance -/

namespace Binance

/-- The message is well formed, and stands for the diff. -/
structure IsDiffMessage (numbers : NumberParsers K) (doc : Json) (diff : OrderBookDiffEvent K K) :
    Prop where
  eventType : doc.field "e" = some (.string "depthUpdate")
  eventTime : ∃ time, HasNumber numbers doc "E" time
  finalUpdateId : HasNumber numbers doc "u" diff.finalUpdateId
  firstUpdateId : HasNumber numbers doc "U" diff.firstUpdateId
  tradingPair : HasValue BigStringViewToTradingPair.convert doc "s" diff.tradingPair
  bids : HasLevels numbers doc "b" diff.bids
  asks : HasLevels numbers doc "a" diff.asks

/-- A message of the futures market also has the final id of the diff before it. -/
structure Futures.IsDiffMessage (numbers : NumberParsers K) (doc : Json)
    (diff : Futures.OrderBookDiffEvent K K) : Prop
    extends Binance.IsDiffMessage numbers doc diff.toOrderBookDiffEvent where
  previousUpdateId : HasNumber numbers doc "pu" diff.previousUpdateId

/-- The answer is well formed, and stands for the snapshot; it does not say of which pair. -/
structure IsSnapshotMessage (numbers : NumberParsers K) (doc : Json)
    (snapshot : OrderBookSnapshotEvent K K) : Prop where
  updateId : HasNumber numbers doc "lastUpdateId" snapshot.updateId
  tradingPair : snapshot.tradingPair = .kCount
  bids : HasLevels numbers doc "bids" snapshot.bids
  asks : HasLevels numbers doc "asks" snapshot.asks

/-- What the two parsers of diffs share. -/
theorem DiffEventParserBase.parseAndCreate_eq_some_iff {P Diff : Type}
    {parsePrevious : Json → Option P} {create : P → OrderBookDiffEvent K K → Diff} {event : Diff} :
    DiffEventParserBase.parseAndCreate parsePrevious create numbers doc = some event ↔
      ∃ previous diff, parsePrevious doc = some previous ∧ IsDiffMessage numbers doc diff ∧
        create previous diff = event := by
  unfold DiffEventParserBase.parseAndCreate
  rw [Option.bind_eq_bind, Option.bind_eq_some_iff]
  constructor
  · rintro ⟨name, hname, hrest⟩
    by_cases htype : name = "depthUpdate"
    · rw [if_neg (not_not_intro htype)] at hrest
      simp only [Option.bind_eq_bind, Option.bind_eq_some_iff, uint64Field_eq_some_iff,
        tradingPairField_eq_some_iff, parseLevels_eq_some_iff] at hrest
      obtain ⟨time, htime, finalUpdateId, hfinal, firstUpdateId, hfirst, previous, hprevious,
        tradingPair, hpair, bids, hbids, asks, hasks, hevent⟩ := hrest
      rw [htype] at hname
      exact ⟨previous, _, hprevious, ⟨stringField_eq_some_iff.mp hname, ⟨time, htime⟩, hfinal,
        hfirst, hpair, hbids, hasks⟩, Option.some.inj hevent⟩
    · rw [if_pos htype] at hrest
      exact absurd hrest nofun
  · rintro ⟨previous, diff, hprevious, hmessage, hevent⟩
    obtain ⟨time, htime⟩ := hmessage.eventTime
    refine ⟨_, stringField_eq_some_iff.mpr hmessage.eventType, ?_⟩
    rw [if_neg (not_not_intro rfl)]
    simp only [Option.bind_eq_bind, Option.bind_eq_some_iff, uint64Field_eq_some_iff,
      tradingPairField_eq_some_iff, parseLevels_eq_some_iff]
    exact ⟨time, htime, _, hmessage.finalUpdateId, _, hmessage.firstUpdateId, previous,
      hprevious, _, hmessage.tradingPair, _, hmessage.bids, _, hmessage.asks, congrArg some hevent⟩

/-- The diffs of the spot market. -/
theorem Spot.DiffEventParser.parseAndCreate_eq_some_iff {diff : OrderBookDiffEvent K K} :
    Spot.DiffEventParser.parseAndCreate numbers doc = some diff ↔
      IsDiffMessage numbers doc diff := by
  unfold Spot.DiffEventParser.parseAndCreate
  rw [DiffEventParserBase.parseAndCreate_eq_some_iff]
  constructor
  · rintro ⟨-, diff', -, hmessage, rfl⟩
    exact hmessage
  · exact fun hmessage => ⟨(), diff, rfl, hmessage, rfl⟩

/-- The diffs of the futures market. -/
theorem Futures.DiffEventParser.parseAndCreate_eq_some_iff
    {diff : Futures.OrderBookDiffEvent K K} :
    Futures.DiffEventParser.parseAndCreate numbers doc = some diff ↔
      Futures.IsDiffMessage numbers doc diff := by
  unfold Futures.DiffEventParser.parseAndCreate
  rw [DiffEventParserBase.parseAndCreate_eq_some_iff]
  simp only [uint64Field_eq_some_iff]
  constructor
  · rintro ⟨previous, diff', hprevious, hmessage, rfl⟩
    exact ⟨hmessage, hprevious⟩
  · exact fun hmessage => ⟨diff.previousUpdateId, diff.toOrderBookDiffEvent,
      hmessage.previousUpdateId, hmessage.toIsDiffMessage, rfl⟩

/-- The snapshots. -/
theorem SnapshotEventParser.parseAndCreate_eq_some_iff {snapshot : OrderBookSnapshotEvent K K} :
    SnapshotEventParser.parseAndCreate numbers doc = some snapshot ↔
      IsSnapshotMessage numbers doc snapshot := by
  unfold SnapshotEventParser.parseAndCreate
  simp only [Option.bind_eq_bind, Option.bind_eq_some_iff, uint64Field_eq_some_iff,
    parseLevels_eq_some_iff]
  constructor
  · rintro ⟨updateId, hid, bids, hbids, asks, hasks, hsnapshot⟩
    obtain rfl := Option.some.inj hsnapshot
    exact ⟨hid, rfl, hbids, hasks⟩
  · rintro ⟨hid, hpair, hbids, hasks⟩
    obtain ⟨updateId, tradingPair, bids, asks⟩ := snapshot
    obtain rfl := hpair
    exact ⟨updateId, hid, bids, hbids, asks, hasks, rfl⟩

end Binance

/-- **The parsers of the order book messages** accept exactly the well-formed messages, and read
what these say. -/
theorem bookMessages_iff (numbers : NumberParsers K) (doc : Json) :
    (∀ parsed, Bybit.OrderBookEventParser.parseAndCreate numbers doc = some parsed ↔
      Bybit.IsOrderBookMessage numbers doc parsed) ∧
    (∀ diff, Binance.Spot.DiffEventParser.parseAndCreate numbers doc = some diff ↔
      Binance.IsDiffMessage numbers doc diff) ∧
    (∀ diff, Binance.Futures.DiffEventParser.parseAndCreate numbers doc = some diff ↔
      Binance.Futures.IsDiffMessage numbers doc diff) ∧
    ∀ snapshot, Binance.SnapshotEventParser.parseAndCreate numbers doc = some snapshot ↔
      Binance.IsSnapshotMessage numbers doc snapshot :=
  ⟨fun _ => Bybit.OrderBookEventParser.parseAndCreate_eq_some_iff,
    fun _ => Binance.Spot.DiffEventParser.parseAndCreate_eq_some_iff,
    fun _ => Binance.Futures.DiffEventParser.parseAndCreate_eq_some_iff,
    fun _ => Binance.SnapshotEventParser.parseAndCreate_eq_some_iff⟩

end CryptobotAlgo.Aoe
