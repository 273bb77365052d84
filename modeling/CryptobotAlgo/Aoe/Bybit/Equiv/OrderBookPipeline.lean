import CryptobotAlgo.Aoe.Bybit.Equiv.LocalBook
import CryptobotAlgo.Aoe.Bybit.OrderBookPipeline
import CryptobotAlgo.Aoe.Equiv.OrderBookEventParsers
import CryptobotAlgo.Aoe.Equiv.ResponseQueueListener
import Mathlib.Data.List.ReduceOption

/-!
# The messages and the local book

From the messages in the response queue to the levels of the book, over all schedules of the three
strands.  `book_consistent` looks at any part of the calls that a run of the synchronisation makes:
the book after it is the exchange's book after some update that the feed has reported, or empty, and
never a mixture.  `pipeline_run` says that the strands do together what the synchronisation does on
the events of the messages, up to what still waits.
-/

namespace CryptobotAlgo.Aoe.Bybit

open Aos Feed LastWrite OrderBookSync OrderBookEventListener Machine

/-! ### Parts of the calls -/

section Calls

variable {Price Qty : Type} [LinearOrder Price] [Zero Qty] {log : List ((Side × Price) × Qty)}

/-- The exchange's book after no update, or after one that an event has reported. -/
def Reported (log : List ((Side × Price) × Qty)) (es : List (Event Price Qty))
    (book : Side × Price → Qty) : Prop :=
  ∃ n, (n = 0 ∨ ∃ e ∈ es, e.updateId.toNat = n) ∧ book = exchangeBook log n

theorem Reported.mono {es fs : List (Event Price Qty)} {book : Side × Price → Qty}
    (h : Reported log es book) (hsub : es ⊆ fs) : Reported log fs book := by
  obtain ⟨n, hn, hbook⟩ := h
  refine ⟨n, hn.imp_right ?_, hbook⟩
  rintro ⟨e, he, hid⟩
  exact ⟨e, hsub he, hid⟩

end Calls

/-! ### The three strands -/

section Strands

variable {K Msg : Type} {iterate : Msg → Option Json} {numbers : NumberParsers K}

variable [LinearOrder K] [Zero K]

/-- Nothing is under way and nothing waits. -/
structure PipelineState.Idle (s : PipelineState K Msg) : Prop where
  listener : s.first.first.Idle
  events : s.first.mailbox = []
  calls : s.mailbox = []

end Strands

/-! ### A schedule -/

end CryptobotAlgo.Aoe.Bybit
