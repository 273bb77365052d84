import CryptobotAlgo.Aoe.MultiOrderManager
import Mathlib.Data.List.Forall2

/-!
# Managers that share nothing do not disturb each other

`Apart` managers refer to different storages, generators and pools.  If a manager is registered only
while the managers of the other exchanges are apart from it, then, however the calls for the
exchanges alternate, and whenever managers are replaced, a manager stores and sends what it would
have stored and sent alone (`multiOrderManager_alone`).  Managers that share their ids do disturb
each other (`sharedIds_disturb`).
-/

namespace CryptobotAlgo.Aoe

open Aos Machine

variable {K : Type}

/-! ### Managers that are apart -/

/-- The ids come from different generators and go back to different pools. -/
def IdsApart (refs refs' : OrderManagerRefs) : Prop :=
  refs.idGenerator ≠ refs'.idGenerator ∧ refs.numberPool ≠ refs'.numberPool

instance (refs refs' : OrderManagerRefs) : Decidable (IdsApart refs refs') :=
  inferInstanceAs (Decidable (_ ∧ _))

/-- Two managers share nothing. -/
def Apart : AnyOrderManagerRefs → AnyOrderManagerRefs → Prop
  | .inl refs, .inl refs' | .inr refs, .inr refs' =>
    refs.orderStorage ≠ refs'.orderStorage ∧ IdsApart refs refs'
  | .inl refs, .inr refs' | .inr refs, .inl refs' => IdsApart refs refs'

section Store

variable {objects : OrderManagerObjects K} {refs refs' : OrderManagerRefs}

theorem uidManager_setUidManager (uidManager : UIDManager) :
    (objects.setUidManager refs uidManager).uidManager refs = uidManager := by
  unfold OrderManagerObjects.uidManager OrderManagerObjects.setUidManager
  dsimp only
  rw [Function.update_self, Function.update_self]

theorem uidManager_setUidManager_of_apart (h : IdsApart refs refs') (uidManager : UIDManager) :
    (objects.setUidManager refs uidManager).uidManager refs' = objects.uidManager refs' := by
  unfold OrderManagerObjects.uidManager OrderManagerObjects.setUidManager
  dsimp only
  rw [Function.update_of_ne (Ne.symm h.1), Function.update_of_ne (Ne.symm h.2)]

/-- A manager reads what it has written. -/
theorem load_store_bybit (om : OrderManager Bybit.Category Bybit.OrderStatus K) :
    (objects.store (.inl refs) (.inl om)).load (.inl refs) = .inl om := by
  show (.inl ⟨Function.update objects.bybitStorages refs.orderStorage om.orderStorage
    refs.orderStorage, (objects.setUidManager refs om.uidManager).uidManager refs⟩ :
      AnyOrderManager K) = .inl om
  rw [Function.update_self, uidManager_setUidManager]

theorem load_store_binance (om : OrderManager Binance.Category Binance.OrderStatus K) :
    (objects.store (.inr refs) (.inr om)).load (.inr refs) = .inr om := by
  show (.inr ⟨Function.update objects.binanceStorages refs.orderStorage om.orderStorage
    refs.orderStorage, (objects.setUidManager refs om.uidManager).uidManager refs⟩ :
      AnyOrderManager K) = .inr om
  rw [Function.update_self, uidManager_setUidManager]

end Store

theorem apart_symm (r r' : AnyOrderManagerRefs) (h : Apart r r') : Apart r' r := by
  have hids : ∀ refs refs' : OrderManagerRefs, IdsApart refs refs' → IdsApart refs' refs :=
    fun _ _ h => ⟨Ne.symm h.1, Ne.symm h.2⟩
  match r, r' with
  | .inl _, .inl _ | .inr _, .inr _ => exact ⟨Ne.symm h.1, hids _ _ h.2⟩
  | .inl _, .inr _ | .inr _, .inl _ => exact hids _ _ h

/-- Managers that are apart do not see what a manager writes. -/
theorem load_store_of_apart (objects : OrderManagerObjects K) (r r' : AnyOrderManagerRefs)
    (om : AnyOrderManager K) (h : Apart r r') : (objects.store r om).load r' = objects.load r' := by
  match r, om, r' with
  | .inl refs, .inl om, .inl refs' =>
    show (.inl ⟨Function.update objects.bybitStorages refs.orderStorage om.orderStorage
      refs'.orderStorage, (objects.setUidManager refs om.uidManager).uidManager refs'⟩ :
        AnyOrderManager K) = _
    rw [Function.update_of_ne (Ne.symm h.1), uidManager_setUidManager_of_apart h.2]
    rfl
  | .inl refs, .inl om, .inr refs' =>
    have huid : (objects.setUidManager refs om.uidManager).uidManager refs' = _ :=
      uidManager_setUidManager_of_apart h om.uidManager
    exact congrArg (fun ids => Sum.inr (OrderManager.mk _ ids)) huid
  | .inr refs, .inr om, .inr refs' =>
    show (.inr ⟨Function.update objects.binanceStorages refs.orderStorage om.orderStorage
      refs'.orderStorage, (objects.setUidManager refs om.uidManager).uidManager refs'⟩ :
        AnyOrderManager K) = _
    rw [Function.update_of_ne (Ne.symm h.1), uidManager_setUidManager_of_apart h.2]
    rfl
  | .inr refs, .inr om, .inl refs' =>
    have huid : (objects.setUidManager refs om.uidManager).uidManager refs' = _ :=
      uidManager_setUidManager_of_apart h om.uidManager
    exact congrArg (fun ids => Sum.inl (OrderManager.mk _ ids)) huid
  | .inl _, .inr _, _ | .inr _, .inl _, _ => rfl

variable [Sub K]

/-! ### Runs -/

/-- The manager, with the calls since its registration, run alone: it ends as `m`, and sends
`out`. -/
inductive RunsAlone : Life (AnyOrderManager K) (AnyOrderManagerCall K) →
    AnyOrderManager K → List (AnySentOrder K) → Prop
  | bybit (om : OrderManager Bybit.Category Bybit.OrderStatus K)
      (calls : List (OrderManagerCall (Bybit.OrderEvent K) Bybit.Category K)) :
      RunsAlone ⟨.inl om, calls.map .inl⟩
        (.inl ((orderManagerMachine (Bybit.OrderEvent K) Bybit.Category Bybit.OrderStatus K).final
          om calls))
        (((orderManagerMachine (Bybit.OrderEvent K) Bybit.Category Bybit.OrderStatus K).trace
          om calls).map .inl)
  | binance (om : OrderManager Binance.Category Binance.OrderStatus K)
      (calls : List (OrderManagerCall (Binance.OrderEvent K) Binance.Category K)) :
      RunsAlone ⟨.inr om, calls.map .inr⟩
        (.inr ((orderManagerMachine (Binance.OrderEvent K) Binance.Category
          Binance.OrderStatus K).final om calls))
        (((orderManagerMachine (Binance.OrderEvent K) Binance.Category
          Binance.OrderStatus K).trace om calls).map .inr)

theorem runsAlone_of_legal {life : Life (AnyOrderManager K) (AnyOrderManagerCall K)}
    (h : (anyOrderManager K).Legal life.party life.calls) :
    RunsAlone life ((anyOrderManager K).final life.party life.calls)
      ((anyOrderManager K).trace life.party life.calls) := by
  obtain ⟨party, calls⟩ := life
  cases party with
  | inl om =>
    obtain ⟨calls, rfl, -, hfinal, htrace⟩ := exists_of_sum_inl h
    have hrun := RunsAlone.bybit om calls
    rw [← hfinal, ← htrace] at hrun
    exact hrun
  | inr om =>
    obtain ⟨calls, rfl, -, hfinal, htrace⟩ := exists_of_sum_inr h
    have hrun := RunsAlone.binance om calls
    rw [← hfinal, ← htrace] at hrun
    exact hrun

theorem keeps_managerStore : Keeps (anyOrderManager K) (managerStore K) Apart where
  load_store objects r e := by
    match r, e with
    | .inl _, .inl _ => exact load_store_bybit _
    | .inr _, .inr _ => exact load_store_binance _
    | .inl _, .inr _ => exact load_store_bybit _
    | .inr _, .inl _ => exact load_store_binance _
  load_store_of_apart := load_store_of_apart
  symm := apart_symm

/-- **Managers that share nothing do not disturb each other**: of each exchange, the manager that is
registered now is what its own calls have made of it, and what has been sent is what each manager in
turn would have sent alone, if what is registered is always apart from the managers of the other
exchanges.  A call throws exactly when it is made before any registration. -/
theorem multiOrderManager_alone (objects : OrderManagerObjects K)
    (es : List (RegistryEvent ExchangeId AnyOrderManagerRefs (AnyOrderManagerCall K)))
    (h : (multiOrderManager K).Legal ⟨objects, fun _ => none⟩ es)
    (hseparate : (multiOrderManager K).AllSteps (Separate Apart) ⟨objects, fun _ => none⟩ es)
    (id : ExchangeId) :
    (∃ runs : List (AnyOrderManager K × List (AnySentOrder K)),
      List.Forall₂ (fun life run => RunsAlone life run.1 run.2)
        (lives id (withParties (anyOrderManager K) (managerStore K) ⟨objects, fun _ => none⟩ es))
        runs ∧
      parties (managerStore K) ((multiOrderManager K).final ⟨objects, fun _ => none⟩ es) id =
        runs.head?.map Prod.fst ∧
      ((multiOrderManager K).trace ⟨objects, fun _ => none⟩ es).filterMap (actOf id) =
        runs.reverse.flatMap Prod.snd) ∧
    (RegistryAction.outOfRange id ∈ (multiOrderManager K).trace ⟨objects, fun _ => none⟩ es ↔
      ∃ pre e post, es = pre ++ .call id e :: post ∧
        ∀ refs, RegistryEvent.register id refs ∉ pre) := by
  have hnobody : AllApart (ι := ExchangeId) Apart
      (⟨objects, fun _ => none⟩ : StoreRegistry (OrderManagerObjects K) _ _) :=
    fun _ _ _ _ hr => nomatch hr
  obtain ⟨hlegal, hfinal, htrace⟩ := registry_of_separate keeps_managerStore hnobody h hseparate
  have hrun := registryRun_of_legal hlegal
  rw [show parties (managerStore K) _ = fun _ => none from rfl] at hfinal htrace
  rw [hfinal, htrace] at hrun
  refine ⟨⟨(lives id (withParties (anyOrderManager K) (managerStore K) ⟨objects, fun _ => none⟩
    es)).map fun life => ((anyOrderManager K).final life.party life.calls,
      (anyOrderManager K).trace life.party life.calls), ?_, ?_, ?_⟩, ?_⟩
  · rw [List.forall₂_map_right_iff, List.forall₂_same]
    exact fun life hlife => runsAlone_of_legal (hrun.legal id life hlife)
  · rw [List.head?_map, Option.map_map]
    exact hrun.final id
  · rw [← List.map_reverse, List.flatMap_map]
    exact hrun.trace id
  · exact (hrun.outOfRange id).trans (exists_early_withParties _ id es)

/-- Orders at two exchanges, whose managers share nothing. -/
def twoExchanges :
    List (RegistryEvent ExchangeId AnyOrderManagerRefs (AnyOrderManagerCall ℤ)) :=
  [.register .kBybit (.inl ⟨0, 0, 0⟩),
    .call .kBybit (.inl (.placeOrderAutoId ⟨.kSpot, .kBuy, .kLimit, 0, .kBTCUSDT, 100, 1⟩)),
    .call .kBinance (.inr (.cancelOrder 0)),
    .register .kBinance (.inr ⟨0, 1, 1⟩),
    .call .kBinance (.inr (.placeOrderAutoId ⟨.kSpot, .kSell, .kLimit, 0, .kBTCUSDT, 100, 1⟩)),
    .call .kBybit (.inl (.cancelOrder 0))]

theorem twoExchanges_legal :
    (multiOrderManager ℤ).Legal ⟨{}, fun _ => none⟩ twoExchanges := by
  refine ⟨trivial, ?_, ?_, trivial, ?_, ?_, trivial⟩
  all_goals
    intro refs hrefs
    cases hrefs
  all_goals trivial

theorem twoExchanges_separate :
    (multiOrderManager ℤ).AllSteps (Separate Apart) ⟨{}, fun _ => none⟩ twoExchanges := by
  refine ⟨nofun, trivial, trivial, fun id hid refs hrefs => ?_, trivial, trivial, trivial⟩
  -- only the manager of Bybit is registered
  cases id with
  | kBybit =>
    obtain rfl : (.inl ⟨0, 0, 0⟩ : AnyOrderManagerRefs) = refs := Option.some.inj hrefs
    exact ⟨by decide, by decide⟩
  | kBinance => exact absurd rfl hid
  | kMexc | kInvalid => exact nomatch hrefs

/-- The first call to Binance throws, and no call to Bybit does. -/
theorem multiOrderManager_alone_twoExchanges :
    RegistryAction.outOfRange .kBinance ∈
        (multiOrderManager ℤ).trace ⟨{}, fun _ => none⟩ twoExchanges ∧
      RegistryAction.outOfRange .kBybit ∉
        (multiOrderManager ℤ).trace ⟨{}, fun _ => none⟩ twoExchanges := by
  have halone := multiOrderManager_alone {} twoExchanges twoExchanges_legal twoExchanges_separate
  refine ⟨(halone .kBinance).2.mpr ?_, ?_⟩
  · refine ⟨twoExchanges.take 2, .inr (.cancelOrder 0), twoExchanges.drop 3, rfl,
      fun refs hrefs => ?_⟩
    simp [twoExchanges] at hrefs
  · rw [(halone .kBybit).2]
    rintro ⟨pre, e, post, heq, hpre⟩
    cases pre with
    | nil => exact absurd (List.cons.inj heq).1 nofun
    | cons f pre => exact hpre (.inl ⟨0, 0, 0⟩) ((List.cons.inj heq).1 ▸ List.mem_cons_self)

/-- Orders at two exchanges, whose managers share the generator and the pool of their ids. -/
def sharedIds : List (RegistryEvent ExchangeId AnyOrderManagerRefs (AnyOrderManagerCall ℤ)) :=
  [.register .kBybit (.inl ⟨0, 0, 0⟩), .register .kBinance (.inr ⟨0, 0, 0⟩),
    .call .kBybit (.inl (.placeOrderAutoId ⟨.kSpot, .kBuy, .kLimit, 0, .kBTCUSDT, 100, 1⟩)),
    .call .kBinance (.inr (.placeOrderAutoId ⟨.kSpot, .kSell, .kLimit, 0, .kBTCUSDT, 100, 1⟩))]

/-- The order for Binance gets the id `1`; alone, its manager gives it the id `0`. -/
theorem sharedIds_disturb :
    ((multiOrderManager ℤ).trace ⟨{}, fun _ => none⟩ sharedIds).filterMap (actOf .kBinance) =
        [.inr (.placeOrder ⟨.kSpot, .kSell, .kLimit, 1, .kBTCUSDT, 100, 1⟩)] ∧
      (orderManagerMachine (Binance.OrderEvent ℤ) Binance.Category Binance.OrderStatus ℤ).trace {}
          [.placeOrderAutoId ⟨.kSpot, .kSell, .kLimit, 0, .kBTCUSDT, 100, 1⟩] =
        [.placeOrder ⟨.kSpot, .kSell, .kLimit, 0, .kBTCUSDT, 100, 1⟩] :=
  ⟨rfl, rfl⟩

end CryptobotAlgo.Aoe
