import CryptobotAlgo.Aoe.Bybit.ExecutionEventParser
import CryptobotAlgo.Aoe.TradingPairNames

/-!
# Which pairs have names

The entries of the arrays are not at the values of their pairs: two pairs without an entry come
before most of the others.  A name that is found is right, but only the first three pairs find
theirs (`tradingPair_names`).  The array of tickers is not checked, and gives the tickers of other
pairs.
-/

namespace CryptobotAlgo.Aoe

open Aos

/-- The pairs whose entries are at their values. -/
def aligned : List TradingPair := [.kBTCUSDT, .kETHUSDT, .kETHBTC]

/-- Only at these values does the array hold the pair itself. -/
theorem bigStringView_isSome_iff (p : TradingPair) :
    (TradingPairToBigStringView.convert p).isSome ↔ p ∈ aligned := by
  cases p <;> decide

/-- The two arrays list the same pairs. -/
theorem smallStringView_isSome_iff (p : TradingPair) :
    (TradingPairToSmallStringView.convert p).isSome ↔ p ∈ aligned := by
  cases p <;> decide

/-- The dictionary of the other direction names neither of the two missing pairs. -/
theorem forall_named :
    ∀ entry ∈ BigStringViewToTradingPair.kDictionary,
      entry.2 ∉ [TradingPair.kBTCETH, .kETHBNB, .kCount] := by
  decide

/-- A name that is in the dictionary of the other direction. -/
theorem mem_of_convert_eq_some {name : String} {p : TradingPair}
    (h : BigStringViewToTradingPair.convert name = some p) :
    (name, p) ∈ BigStringViewToTradingPair.kDictionary := by
  obtain ⟨pre, post, hsplit, -⟩ := List.lookup_eq_some_iff.mp h
  rw [hsplit]
  exact List.mem_append_right pre List.mem_cons_self

/-- **Names of trading pairs**: a name that a pair finds is read back as the pair, but only the
first three pairs find one, in capitals or in small letters, whereas ten names are read.  The
tickers of a pair make the pair again for the first three only. -/
theorem tradingPair_names (p : TradingPair) :
    (∀ name, TradingPairToBigStringView.convert p = some name →
      BigStringViewToTradingPair.convert name = some p) ∧
    ((TradingPairToBigStringView.convert p).isSome ↔ p ∈ aligned) ∧
    ((TradingPairToSmallStringView.convert p).isSome ↔ p ∈ aligned) ∧
    ((∃ name, BigStringViewToTradingPair.convert name = some p) ↔
      p ∉ [.kBTCETH, .kETHBNB, .kCount]) ∧
    ∀ base quote, tradingPairToTickers p = some (base, quote) →
      (tickersToTradingPair base quote = some p ↔ p ∈ aligned) := by
  refine ⟨fun name h => ?_, bigStringView_isSome_iff p, smallStringView_isSome_iff p,
    ⟨fun ⟨name, h⟩ => forall_named _ (mem_of_convert_eq_some h), fun h => ?_⟩,
    fun base quote h => ?_⟩
  · have hp : p ∈ aligned := (bigStringView_isSome_iff p).mp (Option.isSome_iff_exists.mpr ⟨_, h⟩)
    unfold aligned at hp
    simp only [List.mem_cons, List.not_mem_nil, or_false] at hp
    obtain rfl | rfl | rfl := hp
    all_goals
      obtain rfl := Option.some.inj h
      rfl
  · -- the name stands beside the pair
    cases p with
    | kBTCUSDT => exact ⟨"BTCUSDT", rfl⟩
    | kETHUSDT => exact ⟨"ETHUSDT", rfl⟩
    | kETHBTC => exact ⟨"ETHBTC", rfl⟩
    | kBNBUSDT => exact ⟨"BNBUSDT", rfl⟩
    | kBNBETH => exact ⟨"BNBETH", rfl⟩
    | kSOLUSDT => exact ⟨"SOLUSDT", rfl⟩
    | kSOLBNB => exact ⟨"SOLBNB", rfl⟩
    | kXRPUSDT => exact ⟨"XRPUSDT", rfl⟩
    | kADAUSDT => exact ⟨"ADAUSDT", rfl⟩
    | kADAXRP => exact ⟨"ADAXRP", rfl⟩
    | _ => exact absurd h (by decide)
  · have hnone : tradingPairToTickers .kCount = none := by decide
    cases p with
    | kCount => exact absurd (hnone.symm.trans h) nofun
    | _ =>
      obtain ⟨rfl, rfl⟩ := Prod.mk.inj (Option.some.inj h)
      decide

end CryptobotAlgo.Aoe
