import CryptobotAlgo.Aos.Equiv.NetPnl

/-!
# The average price of a net position

The average price is the price at which what was paid since the position was last flat breaks even:
every call that leaves the position open adds its cash flow to `netQty * avgPrice`, whether it is an
addition, a partial close or a flip, and a full close resets the average (`net_breakEven`).
-/

namespace CryptobotAlgo.Aos

/-- What is paid in a call. -/
def PositionCall.paid {K : Type} [Field K] : PositionCall K → K
  | .addPosition price qty => price * qty
  | .removePosition price qty => -(price * qty)

variable {U K : Type} [Field K] [LinearOrder K] [PnlUnRealizedStorageInterface U K]

/-- What was paid for the position. -/
def costBasis (s : NetPositionState U K) : K := s.1.netQty * s.1.avgPrice

/-- A flat position has no average price. -/
def FlatAverage (s : NetPositionState U K) : Prop := s.1.netQty = 0 → s.1.avgPrice = 0

variable {exchangeId : ExchangeId} {tradingPair : TradingPair}

section Step

variable {s : NetPositionState U K} {c : PositionCall K}

/-- A call that leaves the position open adds what is paid in it. -/
theorem costBasis_step (h : (c.apply exchangeId tradingPair s).1.netQty ≠ 0) :
    costBasis (c.apply exchangeId tradingPair s) = costBasis s + c.paid := by
  cases c with
  | addPosition price qty =>
    have hopen : s.1.netQty + qty ≠ 0 := h
    show (s.1.netQty + qty) * ((s.1.netQty * s.1.avgPrice + qty * price) / (s.1.netQty + qty)) =
      s.1.netQty * s.1.avgPrice + price * qty
    rw [mul_div_cancel₀ _ hopen]
    ring
  | removePosition price qty =>
    have hopen : s.1.netQty - qty ≠ 0 := h
    show (s.1.netQty - qty) * (if s.1.netQty - qty ≠ 0 then
        (s.1.avgPrice * (s.1.netQty - qty + qty) - price * qty) / (s.1.netQty - qty) else 0) =
      s.1.netQty * s.1.avgPrice + -(price * qty)
    rw [if_pos hopen, mul_div_cancel₀ _ hopen]
    ring

/-- Only a removal makes the position flat, and it resets the average. -/
theorem flatAverage_step (h : (netPositionMachine exchangeId tradingPair).enabled s c) :
    FlatAverage (c.apply exchangeId tradingPair s) := by
  intro hflat
  cases c with
  | addPosition price qty => exact absurd hflat h
  | removePosition price qty =>
    have hclosed : s.1.netQty - qty = 0 := hflat
    show (if s.1.netQty - qty ≠ 0 then _ else (0 : K)) = 0
    rw [if_neg (not_not.mpr hclosed)]

end Step

/-- The position is open after the call. -/
def StaysOpen (exchangeId : ExchangeId) (tradingPair : TradingPair) (s : NetPositionState U K)
    (c : PositionCall K) : Prop :=
  (c.apply exchangeId tradingPair s).1.netQty ≠ 0

/-- The position was last flat after the calls `pre`, and `post` are the calls since then. -/
structure LastFlat (exchangeId : ExchangeId) (tradingPair : TradingPair) (s : NetPositionState U K)
    (calls pre post : List (PositionCall K)) : Prop where
  calls : calls = pre ++ post
  flat : ((netPositionMachine exchangeId tradingPair).final s pre).1.netQty = 0
  stillOpen : (netPositionMachine exchangeId tradingPair).AllSteps
    (StaysOpen exchangeId tradingPair) ((netPositionMachine exchangeId tradingPair).final s pre)
    post

theorem exists_lastFlat {s : NetPositionState U K} (hflat : s.1.netQty = 0)
    (calls : List (PositionCall K)) :
    ∃ pre post, LastFlat exchangeId tradingPair s calls pre post := by
  induction calls using List.reverseRecOn with
  | nil => exact ⟨[], [], rfl, hflat, trivial⟩
  | append_singleton calls c ih =>
    by_cases hclosed : ((netPositionMachine exchangeId tradingPair).final s
        (calls ++ [c])).1.netQty = 0
    · exact ⟨calls ++ [c], [], (List.append_nil _).symm, hclosed, trivial⟩
    · obtain ⟨pre, post, rfl, hpre, hpost⟩ := ih
      refine ⟨pre, post ++ [c], by rw [List.append_assoc], hpre, ?_⟩
      rw [Machine.allSteps_append]
      rw [Machine.final_concat, Machine.final_append] at hclosed
      exact ⟨hpost, hclosed, trivial⟩

/-- As long as the position stays open, what is paid adds up. -/
theorem costBasis_final {s : NetPositionState U K} {post : List (PositionCall K)}
    (h : (netPositionMachine exchangeId tradingPair).AllSteps (StaysOpen exchangeId tradingPair) s
      post) :
    costBasis ((netPositionMachine exchangeId tradingPair).final s post) =
      costBasis s + (post.map PositionCall.paid).sum := by
  induction post generalizing s with
  | nil => exact (add_zero _).symm
  | cons c post ih =>
    rw [Machine.final_cons, ih h.2, List.map_cons, List.sum_cons, ← add_assoc]
    exact congrArg (· + _) (costBasis_step h.1)

/-- **Break-even**: for a position that starts flat and that no addition makes flat, after every run
the average price times the net quantity is what was paid since the position was last flat, and the
average price of a flat position is `0`. -/
theorem net_breakEven (st : PnlStorages (RealizedPnlStorageDefault K) U)
    (calls : List (PositionCall K))
    (h : (netPositionMachine exchangeId tradingPair).Legal (.new, st) calls) :
    let s := (netPositionMachine exchangeId tradingPair).final (.new, st) calls
    (s.1.netQty = 0 → s.1.avgPrice = 0) ∧
      (∃ pre post, LastFlat exchangeId tradingPair (.new, st) calls pre post) ∧
      ∀ pre post, LastFlat exchangeId tradingPair (.new, st) calls pre post →
        s.1.netQty * s.1.avgPrice = (post.map PositionCall.paid).sum := by
  intro s
  refine ⟨?_, exists_lastFlat rfl calls, ?_⟩
  · exact (netPositionMachine exchangeId tradingPair).invariant (P := fun s _ => FlatAverage s)
      (fun _ _ _ hc _ => flatAverage_step hc) (fun _ => rfl) h
  · rintro pre post ⟨rfl, hflat, hopen⟩
    have hcost := costBasis_final hopen
    have hzero : costBasis ((netPositionMachine exchangeId tradingPair).final (.new, st) pre) =
        0 := by
      rw [costBasis, hflat, zero_mul]
    rw [← Machine.final_append, hzero, zero_add] at hcost
    exact hcost

/-- `3` are bought at `100`, and `5` sold at `120`: the position is `-2`, at an average of `150`. -/
def flipShort : List (PositionCall ℚ) := [.addPosition 100 3, .removePosition 120 5]

theorem net_breakEven_flipShort :
    let s := (netPositionMachine .kBinance .kBTCUSDT).final
      ((.new, emptyStorages) : NetPositionState (NetUnRealizedPnlStorageDefault ℚ) ℚ) flipShort
    s.1.netQty * s.1.avgPrice = (flipShort.map PositionCall.paid).sum := by
  have hadd : (0 : ℚ) + 3 ≠ 0 := by norm_num
  have hremove : (0 : ℚ) + 3 - 5 ≠ 0 := by norm_num
  exact (net_breakEven emptyStorages flipShort ⟨hadd, trivial, trivial⟩).2.2 [] flipShort
    ⟨rfl, rfl, hadd, hremove, trivial⟩

end CryptobotAlgo.Aos
