import CryptobotAlgo.Aoe.Equiv.OrderManager
import Mathlib.Data.Finset.Dedup
import Mathlib.Data.Finset.Erase
import Mathlib.Data.Finset.Lattice.Lemmas

/-!
# The ids of the live orders

`liveMachine` runs the manager and keeps the ids of the orders that live at the exchange: an order
lives from the request that places it to the event that ends it.

Every event that removes an order gives its id to the pool, also when the order was removed before
and when the id is in the pool already, and nothing keeps the ids of `PlaceOrderManualId` apart from
those of the pool and of the generator.  `uniqueIds_iff` says which runs do not suffer from that.
-/

namespace CryptobotAlgo.Aoe

open Aos

variable {C S K E : Type}

/-- The id of the order that a request places. -/
def SentOrder.placedId : SentOrder C K → Option UInt64
  | .placeOrder order => some order.orderId
  | .cancelOrder _ => none
  | .amendOrder _ => none

/-- The manager, and the ids of the orders that live at the exchange. -/
structure LiveOrders (C S K : Type) where
  manager : OrderManager C S K := {}
  live : Finset UInt64 := ∅

/-- No live id is in the pool, and no id is in it twice. -/
structure PoolFree (s : LiveOrders C S K) : Prop where
  nodup : s.manager.pool.Nodup
  free : ∀ id ∈ s.manager.pool, id ∉ s.live

/-- The pool is free of live ids, and the live orders are those that are stored. -/
structure LiveInv (s : LiveOrders C S K) : Prop where
  poolFree : PoolFree s
  stored_iff : ∀ id, (s.manager.get id).isSome ↔ id ∈ s.live

section State

variable {s : LiveOrders C S K}

theorem LiveInv.get_eq_none (h : LiveInv s) {id : UInt64} (hid : id ∉ s.live) :
    s.manager.get id = none := by
  have hsome : ¬ (s.manager.get id).isSome := fun hsome => hid ((h.stored_iff id).mp hsome)
  exact Option.not_isSome_iff_eq_none.mp hsome

/-- A cancellation or an amendment marks its order, and nothing else happens. -/
theorem liveInv_of_sameOrders {id : UInt64} {m : OrderManager C S K} (h : LiveInv s)
    (hsame : SameOrders id s.manager m) : LiveInv ⟨m, s.live⟩ := by
  have hpool : m.pool = s.manager.pool :=
    congrArg (fun u : UIDManager => u.numberPool.pool) hsame.uidManager
  refine ⟨⟨hpool ▸ h.poolFree.nodup, fun i hi => ?_⟩, fun i => ?_⟩
  · exact h.poolFree.free i (hpool ▸ hi)
  · rw [← h.stored_iff i, ← hsame.isSome i]

/-- The manager after it has chosen an id. -/
def chooseId (m : OrderManager C S K) : OrderManager C S K :=
  { m with uidManager := m.uidManager.getUniqueID.2 }

/-- A chosen id is not live, unless the generator has come to one that is, and it is not in the pool
any more. -/
theorem chooseId_spec (h : PoolFree s) :
    PoolFree ⟨chooseId s.manager, s.live⟩ ∧
      s.manager.uidManager.getUniqueID.1 ∉ (chooseId s.manager).pool ∧
      (s.manager.uidManager.getUniqueID.1 ∉ s.live ↔
        s.manager.pool ≠ [] ∨ s.manager.uidManager.idGenerator.currentId ∉ s.live) := by
  unfold chooseId
  cases hpool : s.manager.pool with
  | nil =>
    rw [UIDManager.getUniqueID_of_nil hpool]
    have hnil : ({ s.manager with
        uidManager := ⟨⟨s.manager.uidManager.idGenerator.currentId + 1⟩,
          s.manager.uidManager.numberPool⟩ } : OrderManager C S K).pool = [] := hpool
    refine ⟨⟨hnil ▸ List.nodup_nil, fun id hid => ?_⟩, ?_, ?_⟩
    · rw [hnil] at hid
      exact absurd hid List.not_mem_nil
    · rw [hnil]
      exact List.not_mem_nil
    · simp
  | cons id rest =>
    rw [UIDManager.getUniqueID_of_cons hpool]
    have hnodup : (id :: rest).Nodup := hpool ▸ h.nodup
    have hfree : ∀ i ∈ id :: rest, i ∉ s.live := fun i hi => h.free i (hpool ▸ hi)
    refine ⟨⟨hnodup.of_cons, fun i hi => hfree i (List.mem_cons_of_mem _ hi)⟩, ?_, ?_⟩
    · exact (List.nodup_cons.mp hnodup).1
    · simp [hfree id List.mem_cons_self]

end State

/-! ### The machine -/

variable [OrderEventInterface E C S K]

/-- The live orders after a call that sends `sent`; `ends` tells which events end their order. -/
def liveAfter (ends : E → Bool) (live : Finset UInt64) (sent : List (SentOrder C K)) :
    OrderManagerCall E C K → Finset UInt64
  | .onResponse event => if ends event then live.erase (OrderEventInterface.orderId event) else live
  | _ => live ∪ (sent.filterMap SentOrder.placedId).toFinset

variable [OrderStatusEnum S]

/-- The manager under calls in any order; `PlaceOrderManualId` is called with an id that no live
order has. -/
def liveMachine (S : Type) [OrderStatusEnum S] [OrderEventInterface E C S K] (ends : E → Bool) :
    Machine (LiveOrders C S K) (OrderManagerCall E C K) (SentOrder C K) where
  enabled
    | s, .placeOrderManualId _ uid => uid ∉ s.live
    | _, _ => True
  step s c :=
    let r := s.manager.call c
    (⟨r.1, liveAfter ends s.live r.2 c⟩, r.2)

instance (ends : E → Bool) (s : LiveOrders C S K) (c : OrderManagerCall E C K) :
    Decidable ((liveMachine S ends).enabled s c) :=
  match c with
  | .placeOrderManualId _ uid => inferInstanceAs (Decidable (uid ∉ s.live))
  | .placeOrderAutoId _ | .cancelOrder _ | .amendOrder _ | .onResponse _ => isTrue trivial

/-- What the call sends is stored, an id that the manager chooses is not that of a live order, and
the pool stays free of live ids. -/
structure UniqueIds (ends : E → Bool) (s : LiveOrders C S K) (c : OrderManagerCall E C K) :
    Prop where
  stored : ∀ r, SentOrder.placeOrder r ∈ (s.manager.call c).2 →
    (s.manager.call c).1.get r.orderId = some r.placed
  fresh : ∀ order, c = .placeOrderAutoId order →
    ∀ r, SentOrder.placeOrder r ∈ (s.manager.call c).2 → r.orderId ∉ s.live
  poolFree : PoolFree ((liveMachine S ends).step s c).1

/-- An id given by hand is not in the pool, the generator does not come to the id of a live order,
and an event that gives an id back ends its order, or the id was in no use. -/
def NoClash (ends : E → Bool) (s : LiveOrders C S K) : OrderManagerCall E C K → Prop
  | .placeOrderManualId _ uid => uid ∉ s.manager.pool
  | .placeOrderAutoId _ =>
    s.manager.pool ≠ [] ∨ s.manager.uidManager.idGenerator.currentId ∉ s.live
  | .cancelOrder _ => True
  | .amendOrder _ => True
  | .onResponse event => Removes event →
    OrderEventInterface.orderId event ∉ s.manager.pool ∧
      (ends event = true ∨ OrderEventInterface.orderId event ∉ s.live)

instance [DecidableEq C] [DecidableEq S] [DecidableEq K] (ends : E → Bool) (s : LiveOrders C S K)
    (c : OrderManagerCall E C K) : Decidable (NoClash ends s c) :=
  match c with
  | .placeOrderManualId _ uid => inferInstanceAs (Decidable (uid ∉ s.manager.pool))
  | .placeOrderAutoId _ => inferInstanceAs (Decidable (_ ∨ _))
  | .cancelOrder _ | .amendOrder _ => isTrue trivial
  | .onResponse event => inferInstanceAs (Decidable (Removes event → _ ∧ _))

section Step

variable {ends : E → Bool} {s : LiveOrders C S K} {r : PlaceOrderRequest C K}

/-! ### Placing -/

/-- The state after `r` is sent from a manager whose pool is `m.pool`. -/
def sendFrom (m : OrderManager C S K) (live : Finset UInt64) (r : PlaceOrderRequest C K) :
    LiveOrders C S K :=
  ⟨(m.saveAndSend r).1, live ∪ {r.orderId}⟩

theorem poolFree_sendFrom {m : OrderManager C S K} {live : Finset UInt64} :
    PoolFree (sendFrom m live r) ↔ PoolFree ⟨m, live⟩ ∧ r.orderId ∉ m.pool := by
  constructor
  · rintro ⟨hnodup, hfree⟩
    refine ⟨⟨hnodup, fun id hid hlive => ?_⟩, fun hpool => ?_⟩
    · exact hfree id hid (Finset.mem_union_left _ hlive)
    · exact hfree _ hpool (Finset.mem_union_right _ (Finset.mem_singleton_self _))
  · rintro ⟨⟨hnodup, hfree⟩, hpool⟩
    refine ⟨hnodup, fun id hid hlive => ?_⟩
    rcases Finset.mem_union.mp hlive with hlive | hr
    · exact hfree id hid hlive
    · obtain rfl := Finset.mem_singleton.mp hr
      exact hpool hid

theorem liveInv_sendFrom {m : OrderManager C S K} {live : Finset UInt64}
    (hpool : PoolFree (sendFrom m live r)) (hstored : ∀ id, (m.get id).isSome ↔ id ∈ live)
    (hr : r.orderId ∉ live) : LiveInv (sendFrom m live r) := by
  refine ⟨hpool, fun id => ?_⟩
  have hnone : m.get r.orderId = none :=
    Option.not_isSome_iff_eq_none.mp fun hsome => hr ((hstored _).mp hsome)
  show ((m.saveAndSend r).1.get id).isSome ↔ id ∈ live ∪ {r.orderId}
  rw [get_saveAndSend hnone, Finset.mem_union, Finset.mem_singleton]
  split
  · next h => simp [h]
  · next h => simp [h, hstored id]

/-! ### Events -/

variable {e : E}

/-- The pool after an event that removes its order. -/
theorem poolFree_of_removes (h : LiveInv s) (hremoves : Removes e) :
    PoolFree ((liveMachine S ends).step s (.onResponse e)).1 ↔
      OrderEventInterface.orderId e ∉ s.manager.pool ∧
        (ends e = true ∨ OrderEventInterface.orderId e ∉ s.live) := by
  have hpool : ((liveMachine S ends).step s (.onResponse e)).1.manager.pool =
      s.manager.pool ++ [OrderEventInterface.orderId e] := pool_onResponse_of_removes hremoves _
  have hlive : ((liveMachine S ends).step s (.onResponse e)).1.live =
      if ends e then s.live.erase (OrderEventInterface.orderId e) else s.live := rfl
  constructor
  · rintro ⟨hnodup, hfree⟩
    rw [hpool] at hnodup hfree
    refine ⟨fun hmem => ?_, ?_⟩
    · have hdisjoint := List.disjoint_of_nodup_append hnodup
      exact hdisjoint hmem (List.mem_singleton_self _)
    · have hid := hfree _ (List.mem_append_right _ (List.mem_singleton_self _))
      rw [hlive] at hid
      cases hends : ends e with
      | true => exact Or.inl rfl
      | false =>
        rw [hends] at hid
        exact Or.inr hid
  · rintro ⟨hnew, hdead⟩
    refine ⟨?_, fun id hid => ?_⟩
    · rw [hpool]
      exact List.nodup_append.mpr ⟨h.poolFree.nodup, List.nodup_singleton _, fun a ha b hb => by
        obtain rfl := List.mem_singleton.mp hb
        exact fun hab => hnew (hab ▸ ha)⟩
    · rw [hpool] at hid
      rw [hlive]
      rcases List.mem_append.mp hid with hid | hid
      · have hnot : id ∉ s.live := h.poolFree.free id hid
        split
        · exact fun hmem => hnot (Finset.mem_of_mem_erase hmem)
        · exact hnot
      · obtain rfl := List.mem_singleton.mp hid
        split
        · exact Finset.notMem_erase _ _
        · next hends => exact hdead.resolve_left hends

/-- The storage and the live orders lose the order that an event removes. -/
theorem liveInv_of_removes (h : LiveInv s) (hremoves : Removes e)
    (hpool : PoolFree ((liveMachine S ends).step s (.onResponse e)).1) :
    LiveInv ((liveMachine S ends).step s (.onResponse e)).1 := by
  refine ⟨hpool, fun id => ?_⟩
  have hdead := ((poolFree_of_removes h hremoves).mp hpool).2
  show ((s.manager.onResponse e).get id).isSome ↔
    id ∈ if ends e then s.live.erase (OrderEventInterface.orderId e) else s.live
  rw [get_onResponse_of_removes hremoves]
  by_cases hid : id = OrderEventInterface.orderId e
  · rw [if_pos hid, hid]
    cases hends : ends e with
    | true => simp
    | false => simpa using hdead.resolve_left (by simp [hends])
  · rw [if_neg hid, h.stored_iff id]
    split
    · simp [hid]
    · rfl

variable [LawfulOrderEvent E]

/-- An event that does not remove its order changes neither the pool nor the live orders. -/
theorem liveInv_of_not_removes (hends : ∀ e : E, ends e = true → Removes e) (h : LiveInv s)
    (hremoves : ¬ Removes e) : LiveInv ((liveMachine S ends).step s (.onResponse e)).1 := by
  have hsame := sameOrders_onResponse hremoves s.manager
  have hlive : ((liveMachine S ends).step s (.onResponse e)).1.live = s.live :=
    if_neg fun he => hremoves (hends e he)
  have hpool : ((liveMachine S ends).step s (.onResponse e)).1.manager.pool = s.manager.pool :=
    congrArg (fun u : UIDManager => u.numberPool.pool) hsame.uidManager
  refine ⟨⟨hpool ▸ h.poolFree.nodup, fun id hid => ?_⟩, fun id => ?_⟩
  · rw [hpool] at hid
    rw [hlive]
    exact h.poolFree.free id hid
  · rw [hlive, ← h.stored_iff id, ← hsame.isSome id]
    rfl

/-! ### Every call -/

omit [LawfulOrderEvent E] in
theorem uniqueIds_placeOrderManualId (h : LiveInv s) {order : PlaceOrderRequest C K} {uid : UInt64}
    (huid : uid ∉ s.live) :
    UniqueIds ends s (.placeOrderManualId order uid : OrderManagerCall E C K) ↔
      uid ∉ s.manager.pool := by
  constructor
  · intro hunique
    exact (poolFree_sendFrom.mp hunique.poolFree).2
  · intro hpool
    refine ⟨fun r hr => ?_, nofun, poolFree_sendFrom.mpr ⟨h.poolFree, hpool⟩⟩
    obtain rfl : r = order.setOrderId uid := SentOrder.placeOrder.inj (List.mem_singleton.mp hr)
    exact (get_saveAndSend (h.get_eq_none huid) _).trans (if_pos rfl)

omit [LawfulOrderEvent E] in
theorem uniqueIds_placeOrderAutoId (h : LiveInv s) {order : PlaceOrderRequest C K} :
    UniqueIds ends s (.placeOrderAutoId order : OrderManagerCall E C K) ↔
      s.manager.uidManager.getUniqueID.1 ∉ s.live := by
  constructor
  · intro hunique
    exact hunique.fresh order rfl _ (List.mem_singleton_self _)
  · intro hfresh
    have hsent : ∀ r, SentOrder.placeOrder r ∈
        (s.manager.call (.placeOrderAutoId order : OrderManagerCall E C K)).2 →
          r = order.setOrderId s.manager.uidManager.getUniqueID.1 :=
      fun r hr => SentOrder.placeOrder.inj (List.mem_singleton.mp hr)
    obtain ⟨hpoolFree, hpool, -⟩ := chooseId_spec h.poolFree
    refine ⟨fun r hr => ?_, fun _ _ r hr => ?_, poolFree_sendFrom.mpr ⟨hpoolFree, hpool⟩⟩
    · obtain rfl := hsent r hr
      have hnone : (chooseId s.manager).get s.manager.uidManager.getUniqueID.1 = none :=
        h.get_eq_none hfresh
      exact (get_saveAndSend hnone _).trans (if_pos rfl)
    · obtain rfl := hsent r hr
      exact hfresh

theorem uniqueIds_onResponse (hends : ∀ e : E, ends e = true → Removes e) (h : LiveInv s) :
    UniqueIds ends s (.onResponse e) ↔ NoClash ends s (.onResponse e) := by
  constructor
  · intro hunique hremoves
    exact (poolFree_of_removes h hremoves).mp hunique.poolFree
  · intro hclash
    refine ⟨fun r hr => absurd hr List.not_mem_nil, nofun, ?_⟩
    by_cases hremoves : Removes e
    · exact (poolFree_of_removes h hremoves).mpr (hclash hremoves)
    · exact (liveInv_of_not_removes hends h hremoves).poolFree

omit [LawfulOrderEvent E] in
/-- A cancellation or an amendment marks the stored order. -/
theorem liveInv_mark (h : LiveInv s) (id : UInt64) (pending : PendingAction) :
    LiveInv ⟨s.manager.mutate (.updateStatus id OrderStatusEnum.kInvalid pending), s.live⟩ :=
  liveInv_of_sameOrders h (sameOrders_updateStatus _ pending)

omit [LawfulOrderEvent E] in
theorem step_cancelOrder (id : UInt64) :
    ((liveMachine S ends).step s (.cancelOrder id)).1 =
      ⟨s.manager.mutate (.updateStatus id OrderStatusEnum.kInvalid .kCancel), s.live⟩ := by
  show LiveOrders.mk _ (s.live ∪ ∅) = _
  rw [Finset.union_empty]
  rfl

omit [LawfulOrderEvent E] in
theorem step_amendOrder (id : UInt64) :
    ((liveMachine S ends).step s (.amendOrder id)).1 =
      ⟨s.manager.mutate (.updateStatus id OrderStatusEnum.kInvalid .kAmend), s.live⟩ := by
  show LiveOrders.mk _ (s.live ∪ ∅) = _
  rw [Finset.union_empty]
  rfl

/-- A call keeps the ids unique exactly when it does not clash. -/
theorem uniqueIds_iff_noClash (hends : ∀ e : E, ends e = true → Removes e) (h : LiveInv s)
    {c : OrderManagerCall E C K} (hc : (liveMachine S ends).enabled s c) :
    UniqueIds ends s c ↔ NoClash ends s c := by
  cases c with
  | placeOrderManualId order uid => exact uniqueIds_placeOrderManualId h hc
  | placeOrderAutoId order =>
    rw [uniqueIds_placeOrderAutoId h]
    exact (chooseId_spec h.poolFree).2.2
  | cancelOrder orderId =>
    refine iff_of_true ⟨fun r hr => ?_, nofun, ?_⟩ trivial
    · cases List.mem_singleton.mp hr
    · rw [step_cancelOrder]
      exact (liveInv_mark h orderId .kCancel).poolFree
  | amendOrder orderId =>
    refine iff_of_true ⟨fun r hr => ?_, nofun, ?_⟩ trivial
    · cases List.mem_singleton.mp hr
    · rw [step_amendOrder]
      exact (liveInv_mark h orderId .kAmend).poolFree
  | onResponse e => exact uniqueIds_onResponse hends h

theorem LiveInv.step (hends : ∀ e : E, ends e = true → Removes e) (h : LiveInv s)
    {c : OrderManagerCall E C K} (hc : (liveMachine S ends).enabled s c)
    (hunique : UniqueIds ends s c) : LiveInv ((liveMachine S ends).step s c).1 := by
  cases c with
  | placeOrderManualId order uid => exact liveInv_sendFrom hunique.poolFree h.stored_iff hc
  | placeOrderAutoId order =>
    have hfresh := hunique.fresh order rfl _ (List.mem_singleton_self _)
    exact liveInv_sendFrom hunique.poolFree h.stored_iff hfresh
  | cancelOrder orderId =>
    rw [step_cancelOrder]
    exact liveInv_mark h orderId .kCancel
  | amendOrder orderId =>
    rw [step_amendOrder]
    exact liveInv_mark h orderId .kAmend
  | onResponse e =>
    by_cases hremoves : Removes e
    · exact liveInv_of_removes h hremoves hunique.poolFree
    · exact liveInv_of_not_removes hends h hremoves

end Step

omit [OrderStatusEnum S] in
/-- The empty manager. -/
theorem LiveInv.empty : LiveInv ({} : LiveOrders C S K) where
  poolFree := ⟨List.nodup_nil, fun _ _ => Finset.notMem_empty _⟩
  stored_iff id := iff_of_false Bool.false_ne_true (Finset.notMem_empty id)

/-- Along a run, the ids stay unique exactly as long as no call clashes. -/
theorem allSteps_uniqueIds_iff [LawfulOrderEvent E] {ends : E → Bool}
    (hends : ∀ e : E, ends e = true → Removes e) {calls : List (OrderManagerCall E C K)}
    (h : (liveMachine S ends).Legal {} calls) :
    (liveMachine S ends).AllSteps (UniqueIds ends) {} calls ↔
      (liveMachine S ends).AllSteps (NoClash ends) {} calls :=
  (liveMachine S ends).allSteps_congr (fun _ _ hinv hc => uniqueIds_iff_noClash hends hinv hc)
    (fun _ _ hinv hc hunique => hinv.step hends hc hunique) LiveInv.empty h

/-- **Ids of live orders**: for both exchanges, what is sent is stored, chosen ids are not in use
and the pool is free of live ids, all along a run, exactly when no call of the run clashes. -/
theorem uniqueIds_iff {K : Type} [Sub K] :
    (∀ calls : List (OrderManagerCall (Bybit.OrderEvent K) Bybit.Category K),
      (liveMachine Bybit.OrderStatus Bybit.OrderEvent.isTerminal).Legal {} calls →
        ((liveMachine Bybit.OrderStatus Bybit.OrderEvent.isTerminal).AllSteps
            (UniqueIds Bybit.OrderEvent.isTerminal) {} calls ↔
          (liveMachine Bybit.OrderStatus Bybit.OrderEvent.isTerminal).AllSteps
            (NoClash Bybit.OrderEvent.isTerminal) {} calls)) ∧
      ∀ calls : List (OrderManagerCall (Binance.OrderEvent K) Binance.Category K),
        (liveMachine Binance.OrderStatus Binance.OrderEvent.isTerminal).Legal {} calls →
          ((liveMachine Binance.OrderStatus Binance.OrderEvent.isTerminal).AllSteps
              (UniqueIds Binance.OrderEvent.isTerminal) {} calls ↔
            (liveMachine Binance.OrderStatus Binance.OrderEvent.isTerminal).AllSteps
              (NoClash Binance.OrderEvent.isTerminal) {} calls) := by
  constructor
  · intro calls h
    exact allSteps_uniqueIds_iff Bybit.OrderEvent.removes_of_isTerminal h
  · intro calls h
    exact allSteps_uniqueIds_iff Binance.OrderEvent.removes_of_isTerminal h

/-- An order to buy `1` for `100`. -/
def buyOne : PlaceOrderRequest Bybit.Category ℤ := ⟨.kSpot, .kBuy, .kLimit, 0, .kBTCUSDT, 100, 1⟩

/-- An order is filled and another one placed; a third one gets an id by hand. -/
def fillThenPlace : List (OrderManagerCall (Bybit.OrderEvent ℤ) Bybit.Category ℤ) :=
  [.placeOrderAutoId buyOne, .onResponse ⟨.new, 0, 100, 1⟩, .onResponse ⟨.filled, 0, 100, 0⟩,
    .placeOrderAutoId buyOne, .placeOrderManualId buyOne 7]

theorem uniqueIds_fillThenPlace :
    (liveMachine Bybit.OrderStatus Bybit.OrderEvent.isTerminal).AllSteps
      (UniqueIds Bybit.OrderEvent.isTerminal) {} fillThenPlace :=
  (uniqueIds_iff.1 fillThenPlace (by decide)).mpr (by decide)

/-- The fill of an order arrives twice, and two more orders are placed. -/
def fillTwice : List (OrderManagerCall (Bybit.OrderEvent ℤ) Bybit.Category ℤ) :=
  [.placeOrderAutoId buyOne, .onResponse ⟨.filled, 0, 100, 0⟩, .onResponse ⟨.filled, 0, 100, 0⟩,
    .placeOrderAutoId buyOne, .placeOrderAutoId buyOne]

/-- The last order of `fillTwice` is sent with the id of the order before it, which still lives. -/
theorem fillTwice_not_unique :
    (liveMachine Bybit.OrderStatus Bybit.OrderEvent.isTerminal).Legal {} fillTwice ∧
      ¬ (liveMachine Bybit.OrderStatus Bybit.OrderEvent.isTerminal).AllSteps
        (UniqueIds Bybit.OrderEvent.isTerminal) {} fillTwice := by
  refine ⟨by decide, fun h => ?_⟩
  obtain ⟨-, -, -, -, hlast, -⟩ := h
  have hfresh := hlast.fresh buyOne rfl _ (List.mem_singleton_self _)
  exact absurd hfresh (by decide)

end CryptobotAlgo.Aoe
