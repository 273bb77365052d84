import CryptobotAlgo.Aos.Equiv.OrderBook
import CryptobotAlgo.Aos.OrderBookFeed

/-!
# What the calls of a feed leave in the order book

`quantitiesAfter` is the map that the calls of a feed describe, and a new order book stands for it
after the calls (`bookAfter_spec`).
-/

namespace CryptobotAlgo.Aos

open Feed LastWrite OrderBookEventListener

variable {Price Qty S D : Type} [LinearOrder Price] [DecidableEq Qty] [Zero Qty]
  [OrderBookEventInterface S Price Qty] [OrderBookEventInterface D Price Qty]

omit [DecidableEq Qty] in
/-- What one call does to the quantities. -/
def quantitiesAfterCall (ref : Side × Price → Qty) : Call S D → Side × Price → Qty
  | .clear => fun _ => 0
  | .snapshot ptr => writes ref (eventWrites ptr)
  | .diff ptr => writes ref (eventWrites ptr)

omit [DecidableEq Qty] in
/-- The quantities after the calls, starting from none. -/
def quantitiesAfter (calls : List (Call S D)) : Side × Price → Qty :=
  calls.foldl quantitiesAfterCall fun _ => 0

omit [DecidableEq Qty] in
theorem quantitiesAfter_concat (calls : List (Call S D)) (c : Call S D) :
    (quantitiesAfter (calls ++ [c]) : Side × Price → Qty) =
      quantitiesAfterCall (quantitiesAfter calls) c := by
  unfold quantitiesAfter
  rw [List.foldl_append]
  rfl

theorem handle_refines :
    Refines (fun (l : OrderBookEventListener Price Qty) ref => l.orderBook.Represents ref)
      (handle : OrderBookEventListener Price Qty → Call S D → _) quantitiesAfterCall := by
  intro l ref h c
  cases c with
  | clear => exact processClear_spec h
  | snapshot ptr => exact processEvent_spec h ptr
  | diff ptr => exact processEvent_spec h ptr

/-- A new order book stands for the quantities after the calls. -/
theorem bookAfter_spec {maxLevel : ℕ} (h : 1 ≤ maxLevel) (calls : List (Call S D)) :
    ∃ l : OrderBookEventListener Price Qty, bookAfter maxLevel calls = some l ∧
      l.orderBook.Represents (quantitiesAfter calls) :=
  handle_refines.foldlM (represents_new h) calls

/-- The book stands for `ref` after the calls exactly when these are the quantities. -/
theorem bookAfter_represents_iff {maxLevel : ℕ} (h : 1 ≤ maxLevel) (calls : List (Call S D))
    (ref : Side × Price → Qty) :
    (∃ l : OrderBookEventListener Price Qty, bookAfter maxLevel calls = some l ∧
      l.orderBook.Represents ref) ↔ quantitiesAfter calls = ref := by
  obtain ⟨l, hl, hrep⟩ : ∃ l : OrderBookEventListener Price Qty, bookAfter maxLevel calls = some l ∧
      l.orderBook.Represents (quantitiesAfter calls) := bookAfter_spec h calls
  constructor
  · rintro ⟨l', hl', hrep'⟩
    obtain rfl := Option.some.inj (hl.symm.trans hl')
    exact hrep.unique hrep'
  · rintro rfl
    exact ⟨l, hl, hrep⟩

end CryptobotAlgo.Aos
