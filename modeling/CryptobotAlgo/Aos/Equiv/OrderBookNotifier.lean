import CryptobotAlgo.Aos.Equiv.OrderBook
import CryptobotAlgo.Aos.OrderBookNotifier

/-!
# The notifiers end up with the best levels

While an event is on its way to the cache of a notifier, either the notifier is still to be told, or
it has a coroutine that will read after the event (`Covered`).  Once nothing is pending, the cache
is therefore the best level of the book (`notifier_loses_no_update`); a book that was cleared last
has none.
-/

namespace CryptobotAlgo.Aos

open LastWrite

variable {Price Qty ι E : Type} [LinearOrder Price] [DecidableEq Qty] [Zero Qty]

/-! ### Reading -/

namespace CachedTop

omit [LinearOrder Price] [DecidableEq Qty] [Zero Qty] in
def side : CachedTop Price Qty → Side
  | .bestBid _ => .bid
  | .bestAsk _ => .ask
  | .bestBidPrice _ => .bid
  | .bestAskPrice _ => .ask

/-- The cache is the best level of its side. -/
def IsBest (ref : Side × Price → Qty) : CachedTop Price Qty → Prop
  | .bestBid bid =>
    IsGreatest { p | ref (.bid, p) ≠ 0 } bid.bidPrice ∧ bid.bidQty = ref (.bid, bid.bidPrice)
  | .bestAsk ask =>
    IsLeast { p | ref (.ask, p) ≠ 0 } ask.askPrice ∧ ask.askQty = ref (.ask, ask.askPrice)
  | .bestBidPrice price => IsGreatest { p | ref (.bid, p) ≠ 0 } price
  | .bestAskPrice price => IsLeast { p | ref (.ask, p) ≠ 0 } price

/-- The cache is the best level, if its side has a level. -/
def UpToDate (ref : Side × Price → Qty) (c : CachedTop Price Qty) : Prop :=
  (∃ p, ref (c.side, p) ≠ 0) → c.IsBest ref

omit [DecidableEq Qty] in
theorem upToDate_zero (c : CachedTop Price Qty) : c.UpToDate fun _ => (0 : Qty) := by
  rintro ⟨p, hp⟩
  exact absurd rfl hp

end CachedTop

/-- The first level in the order of a side is the best one of the side. -/
theorem isGreatest_of_first {present : Price → Prop} {p : Price} (hp : present p)
    (hbest : ∀ q, present q → p = q ∨ p > q) : IsGreatest { q | present q } p := by
  refine ⟨hp, fun q hq => ?_⟩
  rcases hbest q hq with rfl | hlt
  · exact le_rfl
  · exact le_of_lt hlt

theorem isLeast_of_first {present : Price → Prop} {p : Price} (hp : present p)
    (hbest : ∀ q, present q → p = q ∨ p < q) : IsLeast { q | present q } p := by
  refine ⟨hp, fun q hq => ?_⟩
  rcases hbest q hq with rfl | hlt
  · exact le_rfl
  · exact le_of_lt hlt

/-- A reader of one side, as the reader of a cache `C`. -/
theorem map_updateTop_spec {A : Type} [DecidableEq A] {less : Price → Price → Prop}
    {s : BookSide Price Qty} {ref : Price → Qty} (h : s.Represents less ref)
    (read : OrderBookLevel Price Qty → A) {C : A → CachedTop Price Qty} (hC : C.Injective)
    (old : A) :
    ∃ new, (s.updateTop read old).map (Prod.map id C) = some (decide (C old ≠ C new), C new) ∧
      ((∃ p, ref p ≠ 0) → ∃ p, ref p ≠ 0 ∧ (∀ q, ref q ≠ 0 → p = q ∨ less p q) ∧
        new = read ⟨p, ref p⟩) := by
  obtain ⟨new, hnew, hbest⟩ := BookSide.updateTop_spec h read old
  refine ⟨new, ?_, hbest⟩
  have hne : decide (C old ≠ C new) = decide (old ≠ new) := decide_eq_decide.mpr hC.ne_iff
  rw [hnew, hne]
  rfl

/-- Reading succeeds, brings the cache up to date, and tells whether it has changed. -/
theorem updateTop_spec {b : OrderBook Price Qty} {ref : Side × Price → Qty} (h : b.Represents ref)
    (c : CachedTop Price Qty) :
    ∃ new, b.updateTop c = some (decide (c ≠ new), new) ∧ new.UpToDate ref := by
  cases c with
  | bestBid bid =>
    obtain ⟨new, hnew, hbest⟩ := map_updateTop_spec h.bids
      (fun first => ⟨first.price, first.qty⟩) (fun _ _ => CachedTop.bestBid.inj) bid
    refine ⟨.bestBid new, hnew, fun hside => ?_⟩
    obtain ⟨p, hp, hfirst, rfl⟩ := hbest hside
    exact ⟨isGreatest_of_first hp hfirst, rfl⟩
  | bestAsk ask =>
    obtain ⟨new, hnew, hbest⟩ := map_updateTop_spec h.asks
      (fun first => ⟨first.price, first.qty⟩) (fun _ _ => CachedTop.bestAsk.inj) ask
    refine ⟨.bestAsk new, hnew, fun hside => ?_⟩
    obtain ⟨p, hp, hfirst, rfl⟩ := hbest hside
    exact ⟨isLeast_of_first hp hfirst, rfl⟩
  | bestBidPrice price =>
    obtain ⟨new, hnew, hbest⟩ := map_updateTop_spec h.bids
      (fun first => first.price) (fun _ _ => CachedTop.bestBidPrice.inj) price
    refine ⟨.bestBidPrice new, hnew, fun hside => ?_⟩
    obtain ⟨p, hp, hfirst, rfl⟩ := hbest hside
    exact isGreatest_of_first hp hfirst
  | bestAskPrice price =>
    obtain ⟨new, hnew, hbest⟩ := map_updateTop_spec h.asks
      (fun first => first.price) (fun _ _ => CachedTop.bestAskPrice.inj) price
    refine ⟨.bestAskPrice new, hnew, fun hside => ?_⟩
    obtain ⟨p, hp, hfirst, rfl⟩ := hbest hside
    exact isLeast_of_first hp hfirst

/-! ### What is pending -/

/-- No event is among the handlers. -/
def NoEvents (handlers : List (BookHandler ι E)) : Prop :=
  ∀ ptr, BookHandler.processEvent ptr ∉ handlers

/-- The last event on the strand of the book will reach the cache of the notifier `i`, or has
reached it. -/
inductive Covered (ref : Side × Price → Qty) (s : NotifierSystem ι E Price Qty) (i : ι) : Prop
  /-- a call of `OnEvent` is still to tell it -/
  | notifying {subs : List ι} (hsubs : subs ∈ s.notifying) (hi : i ∈ subs)
  /-- it has a coroutine that has not started -/
  | started (h : .start ∈ s.strand i)
  /-- it has a coroutine on the strand of the book, behind the last event -/
  | dispatched {pre post : List (BookHandler ι E)} (h : s.bookStrand = pre ++ .dispatch i :: post)
      (hpost : NoEvents post)
  /-- it has a coroutine that has come back after the last event -/
  | resumed (h : NoEvents s.bookStrand) (hresume : .resume ∈ s.strand i)
  /-- it has read after the last event -/
  | read (h : NoEvents s.bookStrand) (hread : (s.cache i).UpToDate ref)

/-- The book is sound, and every subscriber is covered. -/
structure NotifierInv (subscribers : List ι) (s : NotifierSystem ι E Price Qty) : Prop where
  sound : ∃ l ref, s.book = some l ∧ l.orderBook.Represents ref ∧
    ∀ i ∈ subscribers, Covered ref s i

/-- No handler is pending, and no call of `OnEvent` has a subscriber left. -/
structure Quiet (s : NotifierSystem ι E Price Qty) : Prop where
  book : s.bookStrand = []
  strand : ∀ i, s.strand i = []
  notifying : ∀ subs ∈ s.notifying, subs = []

/-- The caches of the subscribers are the best levels of the book. -/
def Agreed (subscribers : List ι) (s : NotifierSystem ι E Price Qty) : Prop :=
  ∃ l ref, s.book = some l ∧ l.orderBook.Represents ref ∧
    ∀ i ∈ subscribers, (s.cache i).UpToDate ref

omit [DecidableEq Qty] in
/-- When nothing is pending, the notifiers have read. -/
theorem NotifierInv.agreed {subscribers : List ι} {s : NotifierSystem ι E Price Qty}
    (h : NotifierInv subscribers s) (hquiet : Quiet s) : Agreed subscribers s := by
  obtain ⟨l, ref, hl, href, hcovered⟩ := h.sound
  refine ⟨l, ref, hl, href, fun i hi => ?_⟩
  cases hcovered i hi with
  | notifying hsubs hmem =>
    rw [hquiet.notifying _ hsubs] at hmem
    exact absurd hmem List.not_mem_nil
  | started hstart =>
    rw [hquiet.strand i] at hstart
    exact absurd hstart List.not_mem_nil
  | dispatched hdispatch hpost =>
    rw [hquiet.book] at hdispatch
    exact absurd hdispatch (by simp)
  | resumed _ hresume =>
    rw [hquiet.strand i] at hresume
    exact absurd hresume List.not_mem_nil
  | read _ hread => exact hread

/-! ### Steps -/

section Step

variable {ref ref' : Side × Price → Qty} {s s' : NotifierSystem ι E Price Qty} {i : ι}

omit [DecidableEq Qty] in
/-- More handlers are pending, none of them an event. -/
theorem Covered.grow (h : Covered ref s i)
    (hnotifying : ∀ subs ∈ s.notifying, i ∈ subs → Covered ref s' i)
    (hstrand : s.strand i ⊆ s'.strand i) {extra : List (BookHandler ι E)}
    (hbook : s'.bookStrand = s.bookStrand ++ extra) (hextra : NoEvents extra)
    (hcache : s'.cache i = s.cache i) : Covered ref s' i := by
  have happend : ∀ {hs : List (BookHandler ι E)}, NoEvents hs → NoEvents (hs ++ extra) := by
    intro hs hhs ptr hptr
    rcases List.mem_append.mp hptr with hptr | hptr
    · exact hhs ptr hptr
    · exact hextra ptr hptr
  cases h with
  | notifying hsubs hi => exact hnotifying _ hsubs hi
  | started hstart => exact .started (hstrand hstart)
  | @dispatched pre post hdispatch hpost =>
    have hdispatch' : s'.bookStrand = pre ++ .dispatch i :: (post ++ extra) := by
      rw [hbook, hdispatch, List.append_assoc, List.cons_append]
    exact .dispatched hdispatch' (happend hpost)
  | resumed hno hresume => exact .resumed (hbook ▸ happend hno) (hstrand hresume)
  | read hno hread => exact .read (hbook ▸ happend hno) (hcache ▸ hread)

omit [DecidableEq Qty] in
/-- The strand of the book has run its first handler. -/
theorem Covered.pop (h : Covered ref s i) {handler : BookHandler ι E}
    {rest : List (BookHandler ι E)} (hbook : s.bookStrand = handler :: rest)
    (hbook' : s'.bookStrand = rest) (hnotifying : s'.notifying = s.notifying)
    (hstrand : s.strand i ⊆ s'.strand i)
    (hfirst : handler = .dispatch i → .resume ∈ s'.strand i)
    (hread : (∀ ptr, handler ≠ .processEvent ptr) → (s.cache i).UpToDate ref →
      (s'.cache i).UpToDate ref') : Covered ref' s' i := by
  have hrest : NoEvents s.bookStrand → NoEvents s'.bookStrand := by
    intro hno ptr hptr
    rw [hbook'] at hptr
    exact hno ptr (hbook ▸ List.mem_cons_of_mem _ hptr)
  cases h with
  | notifying hsubs hi => exact .notifying (hnotifying ▸ hsubs) hi
  | started hstart => exact .started (hstrand hstart)
  | @dispatched pre post hdispatch hpost =>
    rw [hbook] at hdispatch
    cases pre with
    | nil =>
      -- the coroutine of `i` is the first handler
      obtain ⟨hhandler, htail⟩ := List.cons.inj hdispatch
      refine .resumed ?_ (hfirst hhandler)
      rw [hbook', htail]
      exact hpost
    | cons first pre =>
      obtain ⟨-, htail⟩ := List.cons.inj hdispatch
      exact .dispatched (hbook'.trans htail) hpost
  | resumed hno hresume => exact .resumed (hrest hno) (hstrand hresume)
  | read hno hread' =>
    refine .read (hrest hno) (hread (fun ptr hhandler => ?_) hread')
    refine hno ptr ?_
    rw [hbook, hhandler]
    exact List.mem_cons_self

variable [DecidableEq ι]

omit [LinearOrder Price] [DecidableEq Qty] [Zero Qty] in
/-- Handlers are added to the strands of notifiers at the end. -/
theorem subset_update_append (strand : ι → List NotifierHandler) (j : ι)
    (handlers : List NotifierHandler) :
    strand i ⊆ Function.update strand j (strand j ++ handlers) i := by
  by_cases hij : i = j
  · subst hij
    rw [Function.update_self]
    exact List.subset_append_left _ _
  · rw [Function.update_of_ne hij]
    exact List.Subset.refl _

variable [OrderBookEventInterface E Price Qty] {subscribers : List ι}

theorem NotifierInv.onEvent (h : NotifierInv subscribers s) (ptr : E) :
    NotifierInv subscribers (s.step subscribers (.onEvent ptr)).1 := by
  obtain ⟨l, ref, hl, href, -⟩ := h.sound
  exact ⟨l, ref, hl, href, fun i hi => .notifying List.mem_cons_self hi⟩

theorem NotifierInv.notify (h : NotifierInv subscribers s) {j : ι} {rest : List ι} :
    NotifierInv subscribers (s.step subscribers (.notify j rest)).1 := by
  obtain ⟨l, ref, hl, href, hcovered⟩ := h.sound
  refine ⟨l, ref, hl, href, fun i hi => (hcovered i hi).grow (fun subs hsubs hmem => ?_)
    (subset_update_append s.strand j [.start]) (List.append_nil _).symm
    (fun _ => List.not_mem_nil) rfl⟩
  by_cases hcall : subs = j :: rest
  · -- this call tells `j` now
    subst hcall
    rcases List.mem_cons.mp hmem with rfl | hrest
    · refine .started ?_
      show _ ∈ Function.update s.strand i (s.strand i ++ [.start]) i
      rw [Function.update_self]
      exact List.mem_append_right _ (List.mem_singleton_self _)
    · exact .notifying List.mem_cons_self hrest
  · refine .notifying (List.mem_cons_of_mem _ ?_) hmem
    exact (List.mem_erase_of_ne hcall).mpr hsubs

theorem NotifierInv.clear (h : NotifierInv subscribers s) :
    NotifierInv subscribers (s.step subscribers .clear).1 := by
  obtain ⟨l, ref, hl, href, hcovered⟩ := h.sound
  refine ⟨l, ref, hl, href, fun i hi => (hcovered i hi).grow
    (fun subs hsubs hmem => .notifying hsubs hmem) (List.Subset.refl _) rfl ?_ rfl⟩
  intro ptr hptr
  exact absurd (List.mem_singleton.mp hptr) nofun

theorem NotifierInv.runBook (h : NotifierInv subscribers s) :
    NotifierInv subscribers (s.step subscribers .runBook).1 := by
  obtain ⟨l, ref, hl, href, hcovered⟩ := h.sound
  unfold NotifierSystem.step
  dsimp only
  cases hbook : s.bookStrand with
  | nil => exact h
  | cons handler rest =>
    cases handler with
    | processEvent ptr =>
      obtain ⟨l', hl', href'⟩ := OrderBookEventListener.processEvent_spec href ptr
      refine ⟨l', _, ?_, href', fun i hi => (hcovered i hi).pop hbook rfl rfl (List.Subset.refl _)
        nofun fun hne => absurd rfl (hne ptr)⟩
      show s.book.bind (fun l => l.processEvent ptr) = some l'
      rw [hl]
      exact hl'
    | processClear =>
      obtain ⟨l', hl', href'⟩ := OrderBookEventListener.processClear_spec href
      refine ⟨l', _, ?_, href', fun i hi => (hcovered i hi).pop hbook rfl rfl (List.Subset.refl _)
        nofun fun _ _ => CachedTop.upToDate_zero _⟩
      show s.book.bind (fun l => l.processClear) = some l'
      rw [hl]
      exact hl'
    | dispatch j =>
      refine ⟨l, ref, hl, href, fun i hi => (hcovered i hi).pop hbook rfl rfl
        (subset_update_append s.strand j [.resume]) ?_ fun _ hread => hread⟩
      intro hj
      obtain rfl := BookHandler.dispatch.inj hj
      show _ ∈ Function.update s.strand j (s.strand j ++ [.resume]) j
      rw [Function.update_self]
      exact List.mem_append_right _ (List.mem_singleton_self _)

theorem NotifierInv.start (h : NotifierInv subscribers s) (j : ι) :
    NotifierInv subscribers (s.step subscribers (.runNotifier j .start)).1 := by
  obtain ⟨l, ref, hl, href, hcovered⟩ := h.sound
  refine ⟨l, ref, hl, href, fun i hi => ?_⟩
  by_cases hij : i = j
  · subst hij
    exact .dispatched rfl fun _ => List.not_mem_nil
  · refine (hcovered i hi).grow (fun subs hsubs hmem => .notifying hsubs hmem) ?_ rfl ?_ rfl
    · show s.strand i ⊆ Function.update s.strand j _ i
      rw [Function.update_of_ne hij]
      exact List.Subset.refl _
    · intro ptr hptr
      exact absurd (List.mem_singleton.mp hptr) nofun

variable (subscribers) in
/-- A coroutine that has come back reads the best level into the cache. -/
theorem step_resume {l : OrderBookEventListener Price Qty} (hl : s.book = some l)
    (href : l.orderBook.Represents ref) (j : ι) :
    ∃ new : CachedTop Price Qty, new.UpToDate ref ∧
      s.step subscribers (.runNotifier j .resume) = ({ s with
        strand := Function.update s.strand j ((s.strand j).erase .resume)
        cache := Function.update s.cache j new }, if s.cache j ≠ new then [⟨j, new⟩] else []) := by
  obtain ⟨new, hnew, hupToDate⟩ := updateTop_spec href (s.cache j)
  have hread : (s.book.bind fun l => l.orderBook.updateTop (s.cache j)) =
      some (decide (s.cache j ≠ new), new) := by
    rw [hl]
    exact hnew
  refine ⟨new, hupToDate, ?_⟩
  unfold NotifierSystem.step NotifierSystem.readTop
  dsimp only
  rw [hread]
  simp only [decide_eq_true_eq]

/-- A coroutine reads: the cache of its notifier is up to date, and the others are left alone. -/
theorem NotifierInv.resume (h : NotifierInv subscribers s) (j : ι) :
    NotifierInv subscribers (s.step subscribers (.runNotifier j .resume)).1 := by
  obtain ⟨l, ref, hl, href, hcovered⟩ := h.sound
  obtain ⟨new, hupToDate, hstep⟩ := step_resume subscribers hl href j
  rw [hstep]
  refine ⟨l, ref, hl, href, fun i hi => ?_⟩
  by_cases hij : i = j
  · subst hij
    have hread : (Function.update s.cache i new i).UpToDate ref := by
      rw [Function.update_self]
      exact hupToDate
    cases hcovered i hi with
    | notifying hsubs hmem => exact .notifying hsubs hmem
    | started hstart =>
      refine .started ?_
      show _ ∈ Function.update s.strand i _ i
      rw [Function.update_self]
      exact (List.mem_erase_of_ne (by decide)).mpr hstart
    | dispatched hdispatch hpost => exact .dispatched hdispatch hpost
    | resumed hno _ => exact .read hno hread
    | read hno _ => exact .read hno hread
  · refine (hcovered i hi).grow (fun subs hsubs hmem => .notifying hsubs hmem) ?_
      (List.append_nil _).symm (fun _ => List.not_mem_nil) (Function.update_of_ne hij _ _)
    show s.strand i ⊆ Function.update s.strand j _ i
    rw [Function.update_of_ne hij]
    exact List.Subset.refl _

theorem NotifierInv.step (h : NotifierInv subscribers s) (e : NotifierEvent ι E) :
    NotifierInv subscribers (s.step subscribers e).1 := by
  cases e with
  | onEvent ptr => exact h.onEvent ptr
  | notify i rest => exact h.notify
  | clear => exact h.clear
  | runBook => exact h.runBook
  | runNotifier i handler =>
    cases handler with
    | start => exact h.start i
    | resume => exact h.resume i

variable (s subscribers) in
theorem cache_runBook : (s.step subscribers .runBook).1.cache = s.cache := by
  unfold NotifierSystem.step NotifierSystem.runBookHandler
  dsimp only
  split
  · rfl
  · split
    · rfl
    · rfl
    · rfl

/-- A step that changes a cache calls the callback of the notifier with the new value. -/
def CallsBack (subscribers : List ι) (s : NotifierSystem ι E Price Qty) (e : NotifierEvent ι E) :
    Prop :=
  ∀ i, (s.step subscribers e).1.cache i ≠ s.cache i →
    ⟨i, (s.step subscribers e).1.cache i⟩ ∈ (s.step subscribers e).2

theorem NotifierInv.callsBack (h : NotifierInv subscribers s) (e : NotifierEvent ι E) :
    CallsBack subscribers s e := by
  intro i hi
  cases e with
  | onEvent ptr => exact absurd rfl hi
  | notify j rest => exact absurd rfl hi
  | clear => exact absurd rfl hi
  | runBook => exact absurd (congrFun (cache_runBook s subscribers) i) hi
  | runNotifier j handler =>
    cases handler with
    | start => exact absurd rfl hi
    | resume =>
      obtain ⟨l, ref, hl, href, -⟩ := h.sound
      obtain ⟨new, -, hstep⟩ := step_resume subscribers hl href j
      rw [hstep] at hi ⊢
      -- only the cache of `j` can have changed
      have hij : i = j := by
        by_contra hij
        exact hi (Function.update_of_ne hij _ _)
      subst hij
      have hcache : Function.update s.cache i new i = new := Function.update_self ..
      have hchanged : s.cache i ≠ new := fun heq => hi (hcache.trans heq.symm)
      dsimp only
      rw [hcache, if_pos hchanged]
      exact List.mem_singleton_self _

end Step

/-! ### Runs -/

section Run

variable [DecidableEq ι] [OrderBookEventInterface E Price Qty] {subscribers : List ι}

omit [DecidableEq Qty] [DecidableEq ι] [OrderBookEventInterface E Price Qty] in
theorem NotifierInv.new {maxLevel : ℕ} (h : 1 ≤ maxLevel) (cache : ι → CachedTop Price Qty) :
    NotifierInv subscribers (NotifierSystem.new maxLevel cache : NotifierSystem ι E Price Qty) where
  sound := ⟨_, fun _ => 0, rfl, OrderBookEventListener.represents_new h, fun i _ =>
    .read (fun _ => List.not_mem_nil) (cache i).upToDate_zero⟩

/-- Every state that is reached is covered. -/
theorem NotifierInv.final {s : NotifierSystem ι E Price Qty} (h : NotifierInv subscribers s)
    (es : List (NotifierEvent ι E)) :
    NotifierInv subscribers ((notifierMachine subscribers).final s es) := by
  induction es generalizing s with
  | nil => exact h
  | cons e es ih => exact ih (h.step e)

end Run

/-- **No lost update**: in every run of a new book and its notifiers, whenever nothing is pending
the caches of the subscribers are the best levels of the book, and every change of a cache calls the
callback with the new value. -/
theorem notifier_loses_no_update [DecidableEq ι] [OrderBookEventInterface E Price Qty]
    {maxLevel : ℕ} (h : 1 ≤ maxLevel) (subscribers : List ι) (cache : ι → CachedTop Price Qty)
    (es : List (NotifierEvent ι E)) :
    (Quiet ((notifierMachine subscribers).final (.new maxLevel cache) es) →
        Agreed subscribers ((notifierMachine subscribers).final (.new maxLevel cache) es)) ∧
      (notifierMachine subscribers).AllSteps (CallsBack subscribers) (.new maxLevel cache) es := by
  constructor
  · intro hquiet
    exact ((NotifierInv.new h cache).final es).agreed hquiet
  · rw [Machine.allSteps_iff]
    intro pre e post _
    exact ((NotifierInv.new h cache).final pre).callsBack e

/-- An event with one bid. -/
structure OneBid where
  price : ℕ
  qty : ℕ
  deriving DecidableEq, Repr

instance : OrderBookEventInterface OneBid ℕ ℕ where
  bids ptr := [⟨ptr.price, ptr.qty⟩]
  asks _ := []

/-- Two bids arrive while the first call still tells the subscribers, a notifier of the best bid
(`false`) and one of its price (`true`); a coroutine of each comes back after both events. -/
def tellBids : List (NotifierEvent Bool OneBid) :=
  [.onEvent ⟨100, 3⟩, .notify false [true], .onEvent ⟨101, 2⟩, .notify true [], .runBook,
    .runNotifier false .start, .runBook, .runBook, .notify false [true],
    .runNotifier false .start, .runNotifier true .start, .runNotifier false .resume,
    .notify true [], .runBook, .runBook, .runNotifier true .resume, .runNotifier false .resume,
    .runNotifier true .start, .runBook, .runNotifier true .resume]

/-- Nothing has been called yet. -/
def twoNotifiers : NotifierSystem Bool OneBid ℕ ℕ :=
  .new 2 fun i => if i then .bestBidPrice 0 else .bestBid ⟨0, 0⟩

/-- Each notifier calls back once, for the second bid. -/
theorem notifier_loses_no_update_tellBids :
    (notifierMachine [false, true]).trace twoNotifiers tellBids =
        [⟨false, .bestBid ⟨101, 2⟩⟩, ⟨true, .bestBidPrice 101⟩] ∧
      Agreed [false, true] ((notifierMachine [false, true]).final twoNotifiers tellBids) := by
  refine ⟨by decide, ?_⟩
  refine (notifier_loses_no_update (by decide) [false, true] _ tellBids).1 ⟨rfl, fun i => ?_, ?_⟩
  · cases i <;> rfl
  · intro subs hsubs
    rcases List.mem_cons.mp hsubs with rfl | hsubs
    · rfl
    · exact List.mem_singleton.mp hsubs

end CryptobotAlgo.Aos
