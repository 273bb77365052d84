import CryptobotAlgo.Aoe.Equiv.OrderManager
import Mathlib.Data.List.Chain

/-!
# The life of a Bybit order

An order that waits for its trigger is reported as `kUntriggered`, then as `kTriggered`, and then as
`kNew`.  The event of `kTriggered` removes the order from the storage, where later events do not
find it.

`lifecycle_iff` says that the storage follows a history of events exactly as far as it has no open
status after a `kTriggered`.
-/

namespace CryptobotAlgo.Aoe.Bybit

open Aos

variable {K : Type}

abbrev Manager (K : Type) := OrderManager Category OrderStatus K

abbrev Call (K : Type) := OrderManagerCall (OrderEvent K) Category K

/-- A status that the next event of an order may report; `kInvalid` is that of an order that has
just been placed. -/
def OrderStatus.next : OrderStatus → OrderStatus → Bool
  | .kInvalid, s => s.isOpen || s.isTerminal
  | .kUntriggered, s => s == .kUntriggered || s == .kTriggered || s.isTerminal
  | .kTriggered, s => s == .kNew || s.isTerminal
  | .kNew, s => s == .kNew || s == .kPartiallyFilled || s.isTerminal
  | .kPartiallyFilled, s => s == .kNew || s == .kPartiallyFilled || s.isTerminal
  | _, _ => false

/-- The statuses that a placed order runs through. -/
def LegalHistory (history : List OrderStatus) : Prop :=
  (.kInvalid :: history).IsChain fun s s' => s.next s' = true

/-- The statuses that the events of a run report for the order `id`. -/
def reported (id : UInt64) (calls : List (Call K)) : List OrderStatus :=
  calls.filterMap fun
    | .onResponse e => if e.orderId = id then some e.orderStatus else none
    | _ => none

/-- The manager, where no other request is about the order `id`. -/
def orderMachine (K : Type) (id : UInt64) :
    Machine (Manager K) (Call K) (SentOrder Category K) where
  enabled
    | _, .placeOrderManualId _ uid => uid ≠ id
    | m, .placeOrderAutoId _ => m.uidManager.getUniqueID.1 ≠ id
    | _, .cancelOrder orderId => orderId ≠ id
    | _, .amendOrder orderId => orderId ≠ id
    | _, .onResponse _ => True
  step := OrderManager.call

/-- The fields that no event changes are those of the request. -/
structure PlacedBy (r : PlaceOrderRequest Category K) (o : Order Category OrderStatus K) :
    Prop where
  category : o.category = r.category
  side : o.side = r.orderSide
  orderMode : o.orderMode = r.orderMode
  orderId : o.orderId = r.orderId
  tradingPair : o.tradingPair = r.tradingPair

/-- After an open status the storage has the order with that status, and after a terminal status it
does not have it. -/
structure Lifecycle (r : PlaceOrderRequest Category K) (history : List OrderStatus)
    (m : Manager K) : Prop where
  isOpen : ∀ s ∈ history.getLast?, s.isOpen = true →
    ∃ o, m.get r.orderId = some o ∧ PlacedBy r o ∧ o.orderStatus = s
  isTerminal : ∀ s ∈ history.getLast?, s.isTerminal = true → m.get r.orderId = none

/-- `Lifecycle` holds after every part of a run that starts with `m`. -/
def FollowsLife (r : PlaceOrderRequest Category K) (m : Manager K) (calls : List (Call K)) : Prop :=
  ∀ pre post, calls = pre ++ post →
    Lifecycle r (reported r.orderId pre) ((orderMachine K r.orderId).final m pre)

instance (history : List OrderStatus) : Decidable (LegalHistory history) :=
  inferInstanceAs (Decidable (List.IsChain _ _))

/-! ### Histories -/

/-- The event of the status removes the order. -/
def OrderStatus.removes (s : OrderStatus) : Bool := s.isTerminal || s == .kTriggered

theorem OrderStatus.not_next_of_isTerminal {s s' : OrderStatus} (h : s.isTerminal = true) :
    ¬ s.next s' = true := by
  cases s with
  | kRejected | kPartiallyFilledCanceled | kFilled | kCancelled | kDeactivated =>
    exact Bool.false_ne_true
  | _ => exact absurd h Bool.false_ne_true

theorem OrderStatus.not_removes_of_isOpen {s : OrderStatus} (h : s.isOpen = true) :
    s.removes = false := by
  cases s with
  | kNew | kPartiallyFilled | kUntriggered => rfl
  | _ => exact absurd h Bool.false_ne_true

/-- A terminal status is the last one. -/
theorem LegalHistory.eq_nil_of_isTerminal {pre post : List OrderStatus} {s : OrderStatus}
    (h : LegalHistory (pre ++ s :: post)) (hs : s.isTerminal = true) : post = [] := by
  cases post with
  | nil => rfl
  | cons s' post =>
    unfold LegalHistory at h
    rw [← List.cons_append] at h
    have hchain := (List.isChain_append.mp h).2.1
    exact absurd (List.isChain_cons_cons.mp hchain).1 (OrderStatus.not_next_of_isTerminal hs)

theorem reported_append (id : UInt64) (pre post : List (Call K)) :
    reported id (pre ++ post) = reported id pre ++ reported id post :=
  List.filterMap_append

/-- A part of the history is what a part of the run reports. -/
theorem exists_reported_eq {id : UInt64} {calls : List (Call K)} {pre post : List OrderStatus}
    (h : reported id calls = pre ++ post) :
    ∃ pre' post', calls = pre' ++ post' ∧ reported id pre' = pre := by
  obtain ⟨pre', post', hcalls, hpre, -⟩ := List.filterMap_eq_append_iff.mp h
  exact ⟨pre', post', hcalls, hpre⟩

/-! ### The stored order -/

/-- What an event makes of the stored order. -/
theorem get_onResponse_orderId (e : OrderEvent K) (m : Manager K) :
    (m.onResponse e).get e.orderId =
      e.accept.foldl OrderMutation.onOrder (m.get e.orderId) := get_onResponse e m

theorem get_onResponse_of_removes (e : OrderEvent K) (m : Manager K)
    (h : e.orderStatus.removes = true) : (m.onResponse e).get e.orderId = none := by
  rw [get_onResponse_orderId]
  obtain ⟨eventClass, orderId, price, leavesQty⟩ := e
  cases eventClass with
  | default | new | partiallyFilled | untriggered => exact absurd h Bool.false_ne_true
  | _ => rfl

/-- An event that does not remove its order keeps it, and an open status is stored. -/
theorem get_onResponse_of_not_removes {e : OrderEvent K} {m : Manager K}
    {o : Order Category OrderStatus K} (h : e.orderStatus.removes = false)
    (ho : m.get e.orderId = some o) :
    ∃ o', (m.onResponse e).get e.orderId = some o' ∧ (∀ r, PlacedBy r o' ↔ PlacedBy r o) ∧
      (e.orderStatus.isOpen = true → o'.orderStatus = e.orderStatus) := by
  rw [get_onResponse_orderId, ho]
  have hsame : ∀ (status : OrderStatus) (pending : PendingAction) (price qty : K) r,
      PlacedBy r { o with orderStatus := status, pendingAction := pending, price, qty } ↔
        PlacedBy r o :=
    fun _ _ _ _ _ => ⟨fun ⟨h1, h2, h3, h4, h5⟩ => ⟨h1, h2, h3, h4, h5⟩,
      fun ⟨h1, h2, h3, h4, h5⟩ => ⟨h1, h2, h3, h4, h5⟩⟩
  obtain ⟨eventClass, orderId, price, leavesQty⟩ := e
  cases eventClass with
  | default => exact ⟨o, rfl, fun _ => Iff.rfl, fun hopen => absurd hopen Bool.false_ne_true⟩
  | new => exact ⟨_, rfl, hsame .kNew .kNone o.price o.qty, fun _ => rfl⟩
  | untriggered => exact ⟨_, rfl, hsame .kUntriggered .kNone o.price o.qty, fun _ => rfl⟩
  | partiallyFilled => exact ⟨_, rfl, hsame .kPartiallyFilled .kNone price leavesQty, fun _ => rfl⟩
  | _ => exact absurd h.symm Bool.false_ne_true

/-- What is stored under the id `id` after a history that found the order `o` there. -/
structure Tracks (id : UInt64) (o : Order Category OrderStatus K) (history : List OrderStatus)
    (m : Manager K) : Prop where
  stored : (∀ s ∈ history, s.removes = false) →
    ∃ o', m.get id = some o' ∧ (∀ r, PlacedBy r o' ↔ PlacedBy r o) ∧
      ∀ s ∈ history.getLast?, s.isOpen = true → o'.orderStatus = s
  removed : ∀ s ∈ history, s.removes = true → m.get id = none

section Run

variable {id : UInt64} {o : Order Category OrderStatus K} {history : List OrderStatus}
  {m : Manager K}

/-- An event of the order. -/
theorem Tracks.event (h : Tracks id o history m) {e : OrderEvent K} (he : e.orderId = id) :
    Tracks id o (history ++ [e.orderStatus]) (m.onResponse e) := by
  subst he
  cases hremoves : e.orderStatus.removes with
  | true =>
    refine ⟨fun hall => ?_, fun _ _ _ => get_onResponse_of_removes e m hremoves⟩
    have hfalse := hall _ (List.mem_append_right _ (List.mem_singleton_self _))
    exact absurd (hremoves.symm.trans hfalse) Bool.false_ne_true.symm
  | false =>
    constructor
    · intro hall
      obtain ⟨o', ho', hplaced, -⟩ := h.stored fun s hs => hall s (List.mem_append_left _ hs)
      obtain ⟨o'', ho'', hplaced', hstatus⟩ := get_onResponse_of_not_removes hremoves ho'
      refine ⟨o'', ho'', fun r => (hplaced' r).trans (hplaced r), fun s hs hopen => ?_⟩
      rw [List.getLast?_concat] at hs
      obtain rfl := Option.some.inj hs
      exact hstatus hopen
    · intro s hs hs'
      rcases List.mem_append.mp hs with hs | hs
      · have hnone := h.removed s hs hs'
        rw [get_onResponse_orderId, hnone]
        obtain ⟨eventClass, orderId, price, leavesQty⟩ := e
        cases eventClass <;> rfl
      · obtain rfl := List.mem_singleton.mp hs
        exact absurd (hs'.symm.trans hremoves) Bool.false_ne_true.symm

/-- Calls about other orders. -/
theorem Tracks.of_get_eq (h : Tracks id o history m) {m' : Manager K}
    (hget : m'.get id = m.get id) :
    Tracks id o history m' where
  stored hall := by
    rw [hget]
    exact h.stored hall
  removed s hs hs' := hget.trans (h.removed s hs hs')

/-- A call of the client is about another order. -/
theorem get_call_of_enabled {c : Call K} (hc : (orderMachine K id).enabled m c)
    (hevent : ∀ e, c ≠ .onResponse e) : (m.call c).1.get id = m.get id := by
  cases c with
  | placeOrderManualId order uid =>
    exact get_saveAndSend_of_ne (r := order.setOrderId uid) (Ne.symm hc)
  | placeOrderAutoId order =>
    exact get_saveAndSend_of_ne (r := order.setOrderId m.uidManager.getUniqueID.1) (Ne.symm hc)
  | cancelOrder orderId =>
    exact (sameOrders_updateStatus (m := m) .kInvalid .kCancel).other id (Ne.symm hc)
  | amendOrder orderId =>
    exact (sameOrders_updateStatus (m := m) .kInvalid .kAmend).other id (Ne.symm hc)
  | onResponse e => exact absurd rfl (hevent e)

/-- One more call. -/
theorem Tracks.call {pre : List (Call K)} (h : Tracks id o (reported id pre) m) {c : Call K}
    (hc : (orderMachine K id).enabled m c) :
    Tracks id o (reported id (pre ++ [c])) (m.call c).1 := by
  rw [reported_append]
  cases c with
  | onResponse e =>
    by_cases he : e.orderId = id
    · rw [show reported id [OrderManagerCall.onResponse e] = [e.orderStatus] from
        List.filterMap_cons_some (if_pos he)]
      exact h.event he
    · rw [show reported id [OrderManagerCall.onResponse e] = [] from
        List.filterMap_cons_none (if_neg he), List.append_nil]
      exact h.of_get_eq (get_onResponse_of_ne (Ne.symm he) m)
  | _ =>
    rw [show reported id [_] = [] from rfl, List.append_nil]
    exact h.of_get_eq (get_call_of_enabled hc nofun)

/-- After every run the storage is the one that `Tracks` describes. -/
theorem tracks_final {calls : List (Call K)} (h : (orderMachine K id).Legal m calls)
    (ho : m.get id = some o) :
    Tracks id o (reported id calls) ((orderMachine K id).final m calls) := by
  induction calls using List.reverseRecOn with
  | nil =>
    refine ⟨fun _ => ⟨o, ho, fun _ => Iff.rfl, fun s hs => ?_⟩, fun s hs => ?_⟩
    · exact absurd hs (Option.not_mem_none s)
    · exact absurd hs List.not_mem_nil
  | append_singleton pre c ih =>
    obtain ⟨hpre, hc, -⟩ := ((orderMachine K id).allSteps_append _ _ _ _).mp h
    rw [Machine.final_concat]
    exact (ih hpre).call hc

end Run

/-! ### The placed order -/

/-- A call that places an order stores it, or finds an order with its id. -/
theorem exists_get_of_sent {m : Manager K} {place : Call K} {r : PlaceOrderRequest Category K}
    (h : SentOrder.placeOrder r ∈ (m.call place).2) :
    ∃ o, (m.call place).1.get r.orderId = some o := by
  have hsave : ∀ m' : Manager K, ∃ o, (m'.saveAndSend r).1.get r.orderId = some o := by
    intro m'
    cases hget : m'.get r.orderId with
    | none => exact ⟨r.placed, (get_saveAndSend hget _).trans (if_pos rfl)⟩
    | some o =>
      have hsame : m'.orderStorage.add r.placed = m'.orderStorage :=
        m'.orderStorage.add_of_some r.placed (Option.isSome_of_eq_some hget)
      exact ⟨o, (congrArg (OrderStorage.get · r.orderId) hsame).trans hget⟩
  cases place with
  | placeOrderManualId order uid =>
    obtain rfl := SentOrder.placeOrder.inj (List.mem_singleton.mp h)
    exact hsave m
  | placeOrderAutoId order =>
    obtain rfl := SentOrder.placeOrder.inj (List.mem_singleton.mp h)
    exact hsave _
  | cancelOrder orderId => exact absurd (List.mem_singleton.mp h) nofun
  | amendOrder orderId => exact absurd (List.mem_singleton.mp h) nofun
  | onResponse e => exact absurd h List.not_mem_nil

section Lifecycle

variable {r : PlaceOrderRequest Category K} {o : Order Category OrderStatus K}
  {history : List OrderStatus} {m : Manager K}

/-- If the order is there when it should be, it was not removed, and it is the one that was
placed. -/
theorem Lifecycle.of_open {s : OrderStatus} (h : Lifecycle r (history ++ [s]) m)
    (ht : Tracks r.orderId o (history ++ [s]) m) (hs : s.isOpen = true) :
    (∀ s' ∈ history ++ [s], s'.removes = false) ∧ PlacedBy r o := by
  obtain ⟨o', ho', hplaced, -⟩ := h.isOpen s List.getLast?_concat hs
  have hall : ∀ s' ∈ history ++ [s], s'.removes = false := by
    intro s' hs'
    rw [← Bool.not_eq_true]
    intro hremoves
    have hnone : m.get r.orderId = none := ht.removed s' hs' hremoves
    exact absurd (ho'.symm.trans hnone) nofun
  obtain ⟨o'', ho'', hplaced', -⟩ := ht.stored hall
  obtain rfl := Option.some.inj (ho'.symm.trans ho'')
  exact ⟨hall, (hplaced' r).mp hplaced⟩

/-- If nothing but the last status removes the order, the storage is right about it. -/
theorem Tracks.lifecycle (ht : Tracks r.orderId o history m)
    (hopen : ∀ s ∈ history.getLast?, s.isOpen = true →
      (∀ s' ∈ history, s'.removes = false) ∧ PlacedBy r o) : Lifecycle r history m where
  isOpen s hs hs' := by
    obtain ⟨hall, hplaced⟩ := hopen s hs hs'
    obtain ⟨o', ho', hplaced', hstatus⟩ := ht.stored hall
    exact ⟨o', ho', (hplaced' r).mpr hplaced, hstatus s hs hs'⟩
  isTerminal s hs hs' := by
    have hremoves : s.removes = true := by
      unfold OrderStatus.removes
      rw [hs', Bool.true_or]
    exact ht.removed s (List.mem_of_getLast? hs) hremoves

/-- In a legal history without an open status after `kTriggered`, what comes before an open status
does not remove the order. -/
theorem LegalHistory.not_removes {rest : List OrderStatus} (h : LegalHistory (history ++ rest))
    (htriggered : ∀ pre post, history ++ rest = pre ++ .kTriggered :: post →
      ∀ s ∈ post, s.isOpen = false) {s : OrderStatus} (hs : s ∈ history.getLast?)
    (hopen : s.isOpen = true) : ∀ s' ∈ history, s'.removes = false := by
  intro s' hs'
  rw [← Bool.not_eq_true]
  intro hremoves
  obtain ⟨pre, post, rfl⟩ := List.append_of_mem hs'
  have hne : s' ≠ s := by
    rintro rfl
    rw [OrderStatus.not_removes_of_isOpen hopen] at hremoves
    exact Bool.false_ne_true hremoves
  -- the last status is not the one that removes the order
  have hmem : s ∈ post := by
    rw [List.getLast?_append, List.getLast?_cons] at hs
    cases hpost : post.getLast? with
    | none => exact absurd (by simpa [hpost] using hs) hne
    | some s'' =>
      obtain rfl : s'' = s := by simpa [hpost] using hs
      exact List.mem_of_getLast? hpost
  rw [List.append_assoc, List.cons_append] at h htriggered
  unfold OrderStatus.removes at hremoves
  rcases Bool.or_eq_true_iff.mp hremoves with hterminal | heq
  · have hnil := h.eq_nil_of_isTerminal hterminal
    exact absurd hmem (by simp [(List.append_eq_nil_iff.mp hnil).1])
  · obtain rfl := eq_of_beq heq
    have hclosed := htriggered pre (post ++ rest) rfl s (List.mem_append_left _ hmem)
    exact absurd (hopen.symm.trans hclosed) Bool.false_ne_true.symm

end Lifecycle

/-- **The life of an order**: along a legal history of an order, the storage has the order with the
reported status while that is open, and not after it is terminal, exactly when no open status comes
after `kTriggered`, and the order, if it is ever open, was stored when it was placed. -/
theorem lifecycle_iff (m : Manager K) (place : Call K) (r : PlaceOrderRequest Category K)
    (hplace : SentOrder.placeOrder r ∈ (m.call place).2) (calls : List (Call K))
    (hcalls : (orderMachine K r.orderId).Legal (m.call place).1 calls)
    (hhistory : LegalHistory (reported r.orderId calls)) :
    FollowsLife r (m.call place).1 calls ↔
      ((∃ s ∈ reported r.orderId calls, s.isOpen = true) →
        ∃ o, (m.call place).1.get r.orderId = some o ∧ PlacedBy r o) ∧
      ∀ pre post, reported r.orderId calls = pre ++ .kTriggered :: post →
        ∀ s ∈ post, s.isOpen = false := by
  obtain ⟨o, ho⟩ := exists_get_of_sent hplace
  have htracks : ∀ pre post, calls = pre ++ post → Tracks r.orderId o (reported r.orderId pre)
      ((orderMachine K r.orderId).final (m.call place).1 pre) := by
    rintro pre post rfl
    exact tracks_final (((orderMachine K r.orderId).allSteps_append _ _ _ _).mp hcalls).1 ho
  constructor
  · intro h
    -- the run up to an open status
    have hopen : ∀ pre s post, reported r.orderId calls = pre ++ s :: post → s.isOpen = true →
        (∀ s' ∈ pre ++ [s], s'.removes = false) ∧ PlacedBy r o := by
      intro pre s post hreported hs
      rw [List.append_cons] at hreported
      obtain ⟨pre', post', hpre', hreported'⟩ := exists_reported_eq hreported
      exact (hreported' ▸ h pre' post' hpre').of_open (hreported' ▸ htracks pre' post' hpre') hs
    constructor
    · rintro ⟨s, hs, hs'⟩
      obtain ⟨pre, post, hreported⟩ := List.append_of_mem hs
      exact ⟨o, ho, (hopen pre s post hreported hs').2⟩
    · intro pre post hreported s hs
      rw [← Bool.not_eq_true]
      intro hs'
      obtain ⟨mid, post', rfl⟩ := List.append_of_mem hs
      rw [← List.cons_append, ← List.append_assoc] at hreported
      have hmem : OrderStatus.kTriggered ∈ (pre ++ .kTriggered :: mid) ++ [s] := by simp
      exact absurd ((hopen _ s post' hreported hs').1 _ hmem) (by decide)
  · rintro ⟨hplaced, htriggered⟩ pre post rfl
    rw [reported_append] at hhistory htriggered
    refine (htracks pre post rfl).lifecycle fun s hs hs' => ?_
    refine ⟨hhistory.not_removes htriggered hs hs', ?_⟩
    have hmem : s ∈ reported r.orderId (pre ++ post) := by
      rw [reported_append]
      exact List.mem_append_left _ (List.mem_of_getLast? hs)
    obtain ⟨o', ho', hplaced'⟩ := hplaced ⟨s, hmem, hs'⟩
    obtain rfl := Option.some.inj (ho.symm.trans ho')
    exact hplaced'

/-- An order to buy `1` for `100`, with the first id. -/
def buyFirst : PlaceOrderRequest Category ℤ := ⟨.kSpot, .kBuy, .kLimit, 0, .kBTCUSDT, 100, 1⟩

/-- A new manager after it has placed the order. -/
def placedFirst : Manager ℤ :=
  (OrderManager.call {} (.placeOrderAutoId buyFirst : Call ℤ)).1

/-- The order is accepted, filled by half, and filled. -/
def fillByHalf : List (Call ℤ) :=
  [.onResponse ⟨.new, 0, 100, 2⟩, .onResponse ⟨.partiallyFilled, 0, 100, 1⟩,
    .onResponse ⟨.filled, 0, 100, 0⟩]

theorem lifecycle_iff_fillByHalf : FollowsLife buyFirst placedFirst fillByHalf := by
  refine (lifecycle_iff {} (.placeOrderAutoId buyFirst) buyFirst (List.mem_singleton_self _)
    fillByHalf ⟨trivial, trivial, trivial, trivial⟩ (by decide)).mpr ⟨fun _ => ?_, ?_⟩
  · exact ⟨_, rfl, rfl, rfl, rfl, rfl, rfl⟩
  · intro pre post hpost
    have hmem : OrderStatus.kTriggered ∈ reported buyFirst.orderId fillByHalf := by
      rw [hpost]
      simp
    exact absurd hmem (by decide)

/-- The order waits for its trigger, is triggered, and becomes active. -/
def triggerThenNew : List (Call ℤ) :=
  [.onResponse ⟨.untriggered, 0, 100, 1⟩, .onResponse ⟨.triggered, 0, 100, 1⟩,
    .onResponse ⟨.new, 0, 100, 1⟩]

/-- The active order is not in the storage. -/
theorem triggerThenNew_not_stored :
    LegalHistory (reported buyFirst.orderId triggerThenNew) ∧
      ¬ FollowsLife buyFirst placedFirst triggerThenNew := by
  refine ⟨by decide, fun h => ?_⟩
  obtain ⟨o, ho, -⟩ := (h triggerThenNew [] (List.append_nil _).symm).isOpen .kNew rfl rfl
  have hnone : ((orderMachine ℤ buyFirst.orderId).final placedFirst triggerThenNew).get
      buyFirst.orderId = none := rfl
  exact absurd (ho.symm.trans hnone) nofun

end CryptobotAlgo.Aoe.Bybit
