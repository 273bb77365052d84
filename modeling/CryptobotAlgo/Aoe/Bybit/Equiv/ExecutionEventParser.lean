import CryptobotAlgo.Aoe.Bybit.ExecutionEventParser
import CryptobotAlgo.Aoe.Equiv.ResponseQueueListener

/-!
# How many executions reach the watcher

The parser reads an item of the array `data` correctly (`parseItem_eq_some`), but returns as soon as
it has an event, so that the watcher is told about the first execution of each message only
(`parse_of_reports`).  No execution is lost exactly when no message reports two
(`deliversAll_iff`).
-/

namespace CryptobotAlgo.Aoe.Bybit

variable {K Msg : Type}

/-- The field `key` of the item is a string, which `get` reads as `value`. -/
def HasValue {N : Type} (get : String → Option N) (item : Json) (key : String) (value : N) : Prop :=
  ∃ text, item.field key = some (.string text) ∧ get text = some value

/-- The category and the side that stand for a kind of execution. -/
inductive IsKind : String → String → ExecutionKind → Prop
  | spotBuy : IsKind "spot" "Buy" .spotBuy
  | spotSell : IsKind "spot" "Sell" .spotSell
  | linearBuy : IsKind "linear" "Buy" .derivativeBuy
  | linearSell : IsKind "linear" "Sell" .derivativeSell

/-- The item is well formed, and reports the execution. -/
structure IsItem (numbers : NumberParsers K) (item : Json) (event : ExecutionEvent K) : Prop where
  kind : ∃ category side, item.field "category" = some (.string category) ∧
    item.field "side" = some (.string side) ∧ IsKind category side event.kind
  fee : HasValue numbers.getDouble item "execFee" event.fee
  execPrice : HasValue numbers.getDouble item "execPrice" event.execPrice
  execQty : HasValue numbers.getDouble item "execQty" event.execQtyAbs
  execValue : HasValue numbers.getDouble item "execValue" event.execValue
  tradingPair : HasValue BigStringViewToTradingPair.convert item "symbol" event.tradingPair
  orderId : HasValue numbers.getUint64 item "orderId" event.orderId
  exchangeId : event.exchangeId = .kBybit

/-- The items of the message are well formed, and report the executions. -/
def Reports (iterate : Msg → Option Json) (numbers : NumberParsers K) (msg : Msg)
    (events : List (ExecutionEvent K)) : Prop :=
  ∃ doc items, iterate msg = some doc ∧ doc.field "data" = some (.array items) ∧
    List.Forall₂ (IsItem numbers) items events

/-- A table finds its entries, if each key has one. -/
theorem lookup_eq_some_iff_mem {α β : Type} [BEq α] [LawfulBEq α] {l : List (α × β)}
    (h : (l.map Prod.fst).Nodup) {a : α} {b : β} : l.lookup a = some b ↔ (a, b) ∈ l := by
  induction l with
  | nil => exact iff_of_false nofun List.not_mem_nil
  | cons entry l ih =>
    obtain ⟨key, value⟩ := entry
    obtain ⟨hkey, hnodup⟩ := List.nodup_cons.mp h
    rw [List.lookup_cons, List.mem_cons, Prod.mk.injEq]
    by_cases ha : a = key
    · subst ha
      have hother : (a, b) ∉ l := fun hmem =>
        hkey (List.mem_map.mpr ⟨(a, b), hmem, rfl⟩)
      rw [beq_self_eq_true, Option.some_inj, or_iff_left hother, and_iff_right rfl]
      exact eq_comm
    · rw [beq_false_of_ne ha, ih hnodup, or_iff_right fun heq => ha heq.1]

theorem lookup_eq_some_iff_isKind {category side : String} {kind : ExecutionKind} :
    ExecutionEventParser.factoryMap.lookup (category, side) = some kind ↔
      IsKind category side kind := by
  rw [lookup_eq_some_iff_mem (by decide)]
  constructor
  · intro h
    simp only [ExecutionEventParser.factoryMap, List.mem_cons, Prod.mk.injEq, List.not_mem_nil,
      or_false] at h
    obtain ⟨⟨rfl, rfl⟩, rfl⟩ | ⟨⟨rfl, rfl⟩, rfl⟩ | ⟨⟨rfl, rfl⟩, rfl⟩ | ⟨⟨rfl, rfl⟩, rfl⟩ := h
    · exact .spotBuy
    · exact .spotSell
    · exact .linearBuy
    · exact .linearSell
  · intro h
    cases h with
    | spotBuy | spotSell | linearBuy | linearSell => simp [ExecutionEventParser.factoryMap]

section Parser

variable {numbers : NumberParsers K} {item : Json}

theorem numberInString_eq_some {N : Type} {get : String → Option N} {key : String} {value : N}
    (h : HasValue get item key value) :
    ExecutionEventParser.numberInString get item key = some value := by
  obtain ⟨text, hfield, hvalue⟩ := h
  unfold ExecutionEventParser.numberInString
  rw [hfield]
  exact hvalue

/-- The parser reads what the item says. -/
theorem parseItem_eq_some {event : ExecutionEvent K} (h : IsItem numbers item event) :
    ExecutionEventParser.parseItem numbers item = some (some event) := by
  obtain ⟨category, side, hcategory, hside, hkind⟩ := h.kind
  obtain ⟨symbol, hsymbol, hpair⟩ := h.tradingPair
  unfold ExecutionEventParser.parseItem
  rw [hcategory, hside, numberInString_eq_some h.fee, numberInString_eq_some h.execPrice,
    numberInString_eq_some h.execQty, numberInString_eq_some h.execValue, hsymbol,
    numberInString_eq_some h.orderId]
  simp only [Option.bind_eq_bind, Option.bind_some, Json.getString,
    lookup_eq_some_iff_isKind.mpr hkind, hpair]
  rw [← h.exchangeId]

/-- The first event is returned. -/
theorem parse_of_reports {iterate : Msg → Option Json} {msg : Msg}
    {events : List (ExecutionEvent K)} (h : Reports iterate numbers msg events) :
    (executionResponseListener iterate numbers).parse msg = events.head? := by
  obtain ⟨doc, items, hdoc, hdata, hitems⟩ := h
  show (iterate msg).bind (ExecutionEventParser.parseAndCreate numbers) = _
  rw [hdoc, Option.bind_some]
  unfold ExecutionEventParser.parseAndCreate
  rw [hdata]
  show ExecutionEventParser.parseItems numbers items = _
  cases hitems with
  | nil => rfl
  | cons hitem _ =>
    unfold ExecutionEventParser.parseItems
    rw [parseItem_eq_some hitem]
    rfl

end Parser

/-! ### Runs of the listener -/

/-- The executions that a message reports; a message that the listener rejects reports none. -/
def Executions (iterate : Msg → Option Json) (numbers : NumberParsers K) (msg : Msg)
    (events : List (ExecutionEvent K)) : Prop :=
  Reports iterate numbers msg events ∨
    (executionResponseListener iterate numbers).parse msg = none ∧ events = []

/-- Of each message the first event is passed on. -/
theorem filterMap_parse {iterate : Msg → Option Json} {numbers : NumberParsers K}
    {msgs : List Msg} {batches : List (List (ExecutionEvent K))}
    (h : List.Forall₂ (Executions iterate numbers) msgs batches) :
    msgs.filterMap (executionResponseListener iterate numbers).parse =
      batches.flatMap (List.take 1) := by
  induction h with
  | nil => rfl
  | @cons msg events msgs batches hmsg _ ih =>
    have hparse : (executionResponseListener iterate numbers).parse msg = events.head? := by
      rcases hmsg with hreports | ⟨hnone, rfl⟩
      · exact parse_of_reports hreports
      · exact hnone
    rw [List.filterMap_cons, hparse, List.flatMap_cons, ← ih]
    cases events with
    | nil => rfl
    | cons event events => rfl

theorem length_flatMap_take_le {E : Type} (batches : List (List E)) :
    (batches.flatMap (List.take 1)).length ≤ batches.flatten.length := by
  induction batches with
  | nil => exact Nat.le_refl 0
  | cons batch batches ih =>
    have htake : (batch.take 1).length ≤ batch.length := List.length_take_le' 1 batch
    rw [List.flatMap_cons, List.flatten_cons, List.length_append, List.length_append]
    omega

/-- To take one event of each message loses none exactly when no message has two. -/
theorem flatMap_take_eq_flatten_iff {E : Type} (batches : List (List E)) :
    batches.flatMap (List.take 1) = batches.flatten ↔ ∀ batch ∈ batches, batch.length ≤ 1 := by
  induction batches with
  | nil => exact iff_of_true rfl nofun
  | cons batch batches ih =>
    rw [List.flatMap_cons, List.flatten_cons, List.forall_mem_cons, ← ih]
    constructor
    · intro h
      have hlength := congrArg List.length h
      have hrest := length_flatMap_take_le batches
      rw [List.length_append, List.length_append, List.length_take] at hlength
      have hbatch : batch.length ≤ 1 := by omega
      rw [List.take_of_length_le hbatch] at h
      exact ⟨hbatch, List.append_cancel_left h⟩
    · rintro ⟨hbatch, hrest⟩
      rw [List.take_of_length_le hbatch, hrest]

/-- **No execution is lost** exactly when no message reports two: of each message, only the first
execution reaches the watcher. -/
theorem deliversAll_iff (iterate : Msg → Option Json) (numbers : NumberParsers K)
    (es : List (ListenerEvent Msg)) (batches : List (List (ExecutionEvent K)))
    (h : (listenerMachine (executionResponseListener iterate numbers)).Legal {} es)
    (hidle : ((listenerMachine (executionResponseListener iterate numbers)).final {} es).Idle)
    (hbatches : List.Forall₂ (Executions iterate numbers) (enqueued es) batches) :
    forwarded ((listenerMachine (executionResponseListener iterate numbers)).trace {} es) =
        batches.flatten ↔
      ∀ batch ∈ batches, batch.length ≤ 1 := by
  rw [((drains_of_legal h).idle hidle).2.2, filterMap_parse hbatches]
  exact flatMap_take_eq_flatten_iff batches

/-! ### Two fills in one message -/

/-- A fill of a market order, as the exchange reports it. -/
def fillItem (execQty : String) : Json :=
  .object [("category", .string "spot"), ("symbol", .string "BTCUSDT"), ("side", .string "Buy"),
    ("execFee", .string "0"), ("execPrice", .string "100"), ("execQty", .string execQty),
    ("execValue", .string "100"), ("orderId", .string "7")]

def fillEvent (execQty : ℕ) : ExecutionEvent ℕ :=
  ⟨⟨.spotBuy, 100, execQty, .kBybit, .kBTCUSDT⟩, 0, 100, 7⟩

/-- The numbers of these messages. -/
def fillNumbers : NumberParsers ℕ where
  getDouble := fun text => [("0", 0), ("1", 1), ("2", 2), ("100", 100)].lookup text
  getUint64 := fun text => [("7", 7)].lookup text

theorem fillItem_isItem {text : String} {execQty : ℕ}
    (h : fillNumbers.getDouble text = some execQty) :
    IsItem fillNumbers (fillItem text) (fillEvent execQty) where
  kind := ⟨"spot", "Buy", rfl, rfl, .spotBuy⟩
  fee := ⟨"0", rfl, rfl⟩
  execPrice := ⟨"100", rfl, rfl⟩
  execQty := ⟨text, rfl, h⟩
  execValue := ⟨"100", rfl, rfl⟩
  tradingPair := ⟨"BTCUSDT", rfl, rfl⟩
  orderId := ⟨"7", rfl, rfl⟩
  exchangeId := rfl

/-- A message arrives and is processed. -/
def processOne (doc : Json) : List (ListenerEvent Json) :=
  [.enqueue doc, .onDataEnqueued, .start, .processQueue, .processQueue, .processQueue]

theorem deliversAll_iff_one :
    forwarded ((listenerMachine (executionResponseListener some fillNumbers)).trace {}
      (processOne (.object [("data", .array [fillItem "1"])]))) = [fillEvent 1] := by
  refine (deliversAll_iff some fillNumbers
    (processOne (.object [("data", .array [fillItem "1"])])) [[fillEvent 1]] ?_ ?_ ?_).mpr ?_
  · exact ⟨rfl, rfl, ⟨Nat.one_ne_zero, rfl⟩, nofun, nofun, nofun, trivial⟩
  · exact ⟨rfl, rfl, rfl⟩
  · exact .cons (.inl ⟨_, [fillItem "1"], rfl, rfl, .cons (fillItem_isItem rfl) .nil⟩) .nil
  · decide

/-- Two fills of one order, in one message. -/
def twoFills : Json := .object [("data", .array [fillItem "1", fillItem "2"])]

/-- The second fill does not reach the watcher. -/
theorem twoFills_lost :
    Reports some fillNumbers twoFills [fillEvent 1, fillEvent 2] ∧
      (listenerMachine (executionResponseListener some fillNumbers)).Legal {}
        (processOne twoFills) ∧
      ((listenerMachine (executionResponseListener some fillNumbers)).final {}
        (processOne twoFills)).Idle ∧
      forwarded ((listenerMachine (executionResponseListener some fillNumbers)).trace {}
        (processOne twoFills)) ≠ [fillEvent 1, fillEvent 2] := by
  have hone : forwarded ((listenerMachine (executionResponseListener some fillNumbers)).trace {}
      (processOne twoFills)) = [fillEvent 1] := rfl
  refine ⟨⟨_, [fillItem "1", fillItem "2"], rfl, rfl, ?_⟩, ?_, ⟨rfl, rfl, rfl⟩, ?_⟩
  · exact .cons (fillItem_isItem rfl) (.cons (fillItem_isItem rfl) .nil)
  · exact ⟨rfl, rfl, ⟨Nat.one_ne_zero, rfl⟩, nofun, nofun, nofun, trivial⟩
  · rw [hone]
    decide

end CryptobotAlgo.Aoe.Bybit
