import CryptobotAlgo.Aos.DeviationAndMutualInformation
import CryptobotAlgo.Aos.Equiv.MutualInformationArithmetic

/-!
# The strategy as a function of the history

The engine keeps windows, sums and extrema up to date and sends hashes through a queue, from action
to action.  What it logs is a function of the values that have come in: `specTrace` says which, with
no state but the history (`engine_trace_eq`).  The rest follows from there.

* `faultless_iff`: undefined behaviour is met exactly where a candidate is compared with an asset,
  their windows are full, and the width of the bins of one of these is `0`; exactly computed, that
  is a constant window (`defined_exact_iff`).
* `signals_connected`: the assets that are logged are connected to the allowed one, and the same are
  logged to buy and to sell.
-/

namespace CryptobotAlgo.Aos.DeviationAndMutualInformation

open MutualInformationCalculatorDefault SlidingWindowStorageDefault

variable {H K : Type} [DecidableEq H] [Field K] [LinearOrder K]

/-! ### The specification -/

/-- The mean of a window; that of the empty one is `0`. -/
def mean (window : List K) : K := window.sum / window.length

/-- How far the value is above the mean, in means. -/
def ratioOf (window : List K) (value : K) : K :=
  if mean window = 0 then 0 else (value - mean window) / mean window

/-- The elements that pass a test, which may fail. -/
def filterOk {E A : Type} (test : A → Except E Bool) : List A → Except E (List A)
  | [] => .ok []
  | a :: as => do
    let passed ← test a
    let rest ← filterOk test as
    .ok (if passed then a :: rest else rest)

section Specification

variable (A : Arithmetic K K) (market : MarketTripletManagerDefault H) (config : Config H K)

/-- The windows after the values `adds`. -/
def window (adds : List (H × K)) (asset : H) : List K :=
  windowOf config.windowSize.toInt32 adds asset

/-- The length of a full window. -/
def fullLength : ℕ := config.windowSize.toInt32.toNatClampNeg

/-- The value is one of the allowed asset, and is far enough above its mean. -/
def Candidate (adds : List (H × K)) (asset : H) (value : K) : Prop :=
  asset = config.allowedAssetHash ∧
    config.deviationRatioThreshold < ratioOf (window config adds asset) value

instance (adds : List (H × K)) (asset : H) (value : K) :
    Decidable (Candidate config adds asset value) :=
  inferInstanceAs (Decidable (_ ∧ _))

omit [DecidableEq H] in
/-- Both windows are full, and their mutual information is high enough. -/
def testWindows (x y : List K) : Except Fault Bool :=
  if x.length = fullLength config ∧ y.length = fullLength config then
    (A.mutualInformation x y config.numberBins.toInt32).map (config.miThreshold < ·)
  else .ok false

/-- The assets that are logged. -/
def wanted (adds : List (H × K)) (asset : H) (value : K) : Except Fault (List H) :=
  if Candidate config adds asset value then
    filterOk (fun pair => testWindows A config (window config adds asset)
      (window config adds pair)) (market.getPairs asset)
  else .ok []

omit [DecidableEq H] [Field K] [LinearOrder K] in
/-- The signals for the assets. -/
def signalsFor (need : H → K → Signal H K) (value : K) : Except Fault (List H) → List (Signal H K)
  | .error fault => [.fault fault]
  | .ok hashes => hashes.map (need · value)

/-- What an event gives, after the values `adds`. -/
def specSignals (adds : List (H × K)) : EngineEvent H K → List (Signal H K)
  | .addData asset value =>
    signalsFor .needBuy value (wanted A market config adds asset value) ++
      signalsFor .needSell value (wanted A market config adds asset value)
  | .setBidPrice _ _ => []
  | .setAskPrice _ _ => []

omit [DecidableEq H] [Field K] [LinearOrder K] in
/-- The values that an event adds. -/
def EngineEvent.added : EngineEvent H K → List (H × K)
  | addData asset value => [(asset, value)]
  | setBidPrice _ _ => []
  | setAskPrice _ _ => []

/-- What a run gives, after the values `adds`. -/
def specTrace : List (H × K) → List (EngineEvent H K) → List (Signal H K)
  | _, [] => []
  | adds, e :: es => specSignals A market config adds e ++ specTrace (adds ++ e.added) es

end Specification

/-! ### The stages -/

section Stages

variable {S T : Type}

omit [DecidableEq H] in
/-- A stage for one hash. -/
theorem runActions_singleton (value : T) (action : Action S H T) (actions : List (Action S H T))
    (world : S) (hash : H) :
    (runActions value (action :: actions) world [hash]).map Prod.fst =
      (runActions value actions (action world [hash] hash value).1
        (action world [hash] hash value).2).map Prod.fst := by
  have hstage : runStage action value 1 world [hash] = some ((action world [hash] hash value).1,
      (action world [hash] hash value).2, [⟨action, world, [hash], hash, value⟩]) := rfl
  show Option.map Prod.fst ((runStage action value 1 world [hash]).bind fun r =>
    (runActions value actions r.1 r.2.1).bind fun r' => some (r'.1, r.2.2 :: r'.2)) = _
  rw [hstage, Option.bind_some, Option.map_bind]
  cases runActions value actions (action world [hash] hash value).1
    (action world [hash] hash value).2 with
  | none => rfl
  | some r => rfl

omit [DecidableEq H] in
theorem runActions_nil (value : T) (actions : List (Action S H T)) (world : S) :
    runActions value actions world [] = some (world, []) := by
  cases actions <;> rfl

omit [DecidableEq H] [Field K] [LinearOrder K] in
/-- The last stage logs its hashes. -/
theorem runStage_logNeed (analysis : Analysis H K) (hashes : List H) (value : K) :
    ∃ calls, runStage logNeed value hashes.length analysis hashes =
      some ({ analysis with needs := analysis.needs ++ hashes.map (·, value) }, [], calls) := by
  induction hashes generalizing analysis with
  | nil =>
    rw [List.map_nil, List.append_nil]
    exact ⟨[], rfl⟩
  | cons hash hashes ih =>
    obtain ⟨calls, hcalls⟩ :=
      ih { analysis with needs := analysis.needs ++ [(hash, value)] }
    rw [List.append_assoc] at hcalls
    refine ⟨⟨logNeed, analysis, hash :: hashes, hash, value⟩ :: calls, ?_⟩
    show (runStage logNeed value hashes.length
      { analysis with needs := analysis.needs ++ [(hash, value)] } (hashes ++ [])).bind _ = _
    rw [List.append_nil, hcalls]
    rfl

omit [DecidableEq H] [Field K] [LinearOrder K] in
theorem runActions_logNeed (analysis : Analysis H K) (hashes : List H) (value : K) :
    (runActions value [logNeed] analysis hashes).map Prod.fst =
      some { analysis with needs := analysis.needs ++ hashes.map (·, value) } := by
  cases hashes with
  | nil =>
    rw [List.map_nil, List.append_nil]
    rfl
  | cons hash hashes =>
    obtain ⟨calls, hcalls⟩ := runStage_logNeed analysis (hash :: hashes) value
    show Option.map Prod.fst ((runStage logNeed value (hash :: hashes).length analysis
      (hash :: hashes)).bind _) = _
    rw [hcalls]
    rfl

end Stages

section Analysis

variable (A : Arithmetic K K) (market : MarketTripletManagerDefault H) (config : Config H K)

/-- The assets that an analysis logs. -/
def logged (slidingWindow : SlidingWindowStorageDefault H K) (asset : H) (value : K) :
    Except Fault (List H) :=
  if asset = config.allowedAssetHash ∧
      config.deviationRatioThreshold < (getDeviationRatio slidingWindow asset value).2 then
    relatedPairs A config slidingWindow asset (market.getPairs asset)
  else .ok []

/-- The four stages, in the signals that they lead to. -/
theorem signalsOf_stages (need : H → K → Signal H K)
    (slidingWindow : SlidingWindowStorageDefault H K) (asset : H) (value : K) :
    signalsOf need ((runActions value
      [allowedAsset config, deviates config, related A market config, logNeed]
      { slidingWindow } [asset]).map Prod.fst) =
    signalsFor need value (logged A market config slidingWindow asset value) := by
  unfold logged
  rw [runActions_singleton]
  unfold allowedAsset
  dsimp only
  by_cases hallowed : asset = config.allowedAssetHash
  · rw [if_pos hallowed, runActions_singleton]
    unfold deviates
    dsimp only
    by_cases hratio :
        config.deviationRatioThreshold < (getDeviationRatio slidingWindow asset value).2
    · rw [if_pos hratio, runActions_singleton, if_pos ⟨hallowed, hratio⟩]
      unfold related
      dsimp only
      split_ifs with hpair
      · -- an asset without pairs
        have hnone : market.getPairs asset = [] := by
          rw [Bool.not_eq_true', MarketTripletManagerDefault.hasPair,
            Option.isSome_eq_false_iff, Option.isNone_iff_eq_none] at hpair
          rw [MarketTripletManagerDefault.getPairs, hpair]
          rfl
        rw [hnone, runActions_nil]
        rfl
      · cases hrelated : relatedPairs A config slidingWindow asset (market.getPairs asset) with
        | error fault =>
          dsimp only
          rw [runActions_nil]
          rfl
        | ok pushed =>
          dsimp only
          rw [runActions_logNeed]
          show List.map _ ([] ++ pushed.map (·, value)) = _
          rw [List.nil_append, List.map_map]
          rfl
    · rw [if_neg hratio, runActions_nil, if_neg fun h => hratio h.2]
      rfl
  · rw [if_neg hallowed, runActions_nil, if_neg fun h => hallowed h.1]
    rfl

omit [DecidableEq H] in
/-- The loop over the pairs takes those whose test passes. -/
theorem relatedPairs_eq (slidingWindow : SlidingWindowStorageDefault H K) (hash : H)
    (pairs : List H) :
    relatedPairs A config slidingWindow hash pairs =
      filterOk (fun pair => (A.computeMutualInformationOfStorage slidingWindow hash pair
        config.numberBins.toInt32).map fun r => r.1 && r.2 > config.miThreshold) pairs := by
  induction pairs with
  | nil => rfl
  | cons pair pairs ih =>
    unfold relatedPairs filterOk
    rw [ih]
    cases A.computeMutualInformationOfStorage slidingWindow hash pair config.numberBins.toInt32 with
    | error fault => rfl
    | ok r => rfl

end Analysis

/-! ### The windows -/

section Windows

variable {config : Config H K}

theorem reports_window (hsize : 1 ≤ config.windowSize.toInt32) (adds : List (H × K)) (asset : H) :
    (afterAdds config.windowSize.toInt32 adds).Reports asset (window config adds asset) := by
  have hbound := (toNatClampNeg_bounds hsize).2
  exact (follows_afterAdds hsize adds asset).reports
    (lt_of_le_of_lt (length_rtake_le ..) (by omega))

/-- The ratio is that of the window. -/
theorem getDeviationRatio_afterAdds (hsize : 1 ≤ config.windowSize.toInt32)
    (adds : List (H × K)) (asset : H) (value : K) :
    (getDeviationRatio (afterAdds config.windowSize.toInt32 adds) asset value).2 =
      ratioOf (window config adds asset) value := by
  have havg : (afterAdds config.windowSize.toInt32 adds).avgTracker.getAvg asset = _ :=
    (reports_window hsize adds asset).avg
  unfold getDeviationRatio DeviationTrackerDefault.getDeviationRatio
  rw [havg]
  by_cases hempty : window config adds asset = []
  · have hmean : mean (window config adds asset) = 0 := by
      unfold mean
      rw [hempty, List.sum_nil, zero_div]
    rw [if_pos hempty, ratioOf, if_pos hmean]
    rfl
  · rw [if_neg hempty]
    show (if (!true || decide (mean (window config adds asset) = 0)) = true then _ else _ :
      Bool × K).2 = ratioOf _ value
    unfold ratioOf
    by_cases hzero : mean (window config adds asset) = 0
    · rw [if_pos hzero, decide_eq_true hzero]
      rfl
    · rw [if_neg hzero, decide_eq_false hzero]
      rfl

/-- There is enough data where the window is full. -/
theorem hasEnoughData_iff (hsize : 1 ≤ config.windowSize.toInt32) (adds : List (H × K))
    (asset : H) :
    (afterAdds config.windowSize.toInt32 adds).hasEnoughData asset = true ↔
      (window config adds asset).length = fullLength config := by
  have hbounds := toNatClampNeg_bounds hsize
  constructor
  · intro henough
    obtain ⟨lo, hi, hwindow⟩ := exists_enough hsize henough
    exact hwindow.length
  · intro hfull
    unfold fullLength at hfull
    have hne : window config adds asset ≠ [] := by
      rintro hnil
      rw [hnil, List.length_nil] at hfull
      omega
    have hdata : (afterAdds config.windowSize.toInt32 adds).data asset = _ :=
      (reports_window hsize adds asset).data
    rw [if_neg hne] at hdata
    unfold hasEnoughData
    rw [hdata]
    dsimp only
    rw [decide_eq_true_iff, sizeLimit_toNat (by rw [windowSize_afterAdds]; exact hsize),
      windowSize_afterAdds, hfull]

/-- The mutual information is that of the windows, where they are full. -/
theorem computeMutualInformation_afterAdds (A : Arithmetic K K)
    (hsize : 1 ≤ config.windowSize.toInt32) (adds : List (H × K)) (asset pair : H) (bins : Int32) :
    A.computeMutualInformationOfStorage (afterAdds config.windowSize.toInt32 adds) asset pair
      bins =
    if (window config adds asset).length = fullLength config ∧
        (window config adds pair).length = fullLength config then
      (A.mutualInformation (window config adds asset) (window config adds pair) bins).map
        (true, ·)
    else .ok (false, 0) := by
  by_cases hfull : (window config adds asset).length = fullLength config ∧
      (window config adds pair).length = fullLength config
  · have hx := (hasEnoughData_iff hsize adds asset).mpr hfull.1
    have hy := (hasEnoughData_iff hsize adds pair).mpr hfull.2
    obtain ⟨minX, maxX, hX⟩ := exists_enough hsize hx
    obtain ⟨minY, maxY, hY⟩ := exists_enough hsize hy
    rw [if_pos hfull, Arithmetic.compute_of_enough bins hx hy hX hY]
    rfl
  · rw [if_neg hfull]
    unfold Arithmetic.computeMutualInformationOfStorage
    have hnot : (!(afterAdds config.windowSize.toInt32 adds).hasEnoughData asset ||
        !(afterAdds config.windowSize.toInt32 adds).hasEnoughData pair) = true := by
      rw [Bool.or_eq_true, Bool.not_eq_true', Bool.not_eq_true', ← Bool.not_eq_true,
        ← Bool.not_eq_true, hasEnoughData_iff hsize, hasEnoughData_iff hsize]
      exact not_and_or.mp hfull
    rw [hnot]
    rfl

/-- The test of a pair is that of the windows. -/
theorem test_afterAdds (A : Arithmetic K K) (hsize : 1 ≤ config.windowSize.toInt32)
    (adds : List (H × K)) (asset pair : H) :
    (A.computeMutualInformationOfStorage (afterAdds config.windowSize.toInt32 adds) asset pair
        config.numberBins.toInt32).map (fun r => r.1 && r.2 > config.miThreshold) =
      testWindows A config (window config adds asset) (window config adds pair) := by
  unfold testWindows
  rw [computeMutualInformation_afterAdds A hsize]
  split_ifs with hfull
  · cases A.mutualInformation (window config adds asset) (window config adds pair)
      config.numberBins.toInt32 with
    | error fault => rfl
    | ok mi => rfl
  · rfl

/-- An analysis logs the assets that are wanted. -/
theorem logged_afterAdds (A : Arithmetic K K) (market : MarketTripletManagerDefault H)
    (hsize : 1 ≤ config.windowSize.toInt32) (adds : List (H × K)) (asset : H) (value : K) :
    logged A market config (afterAdds config.windowSize.toInt32 adds) asset value =
      wanted A market config adds asset value := by
  unfold logged wanted
  rw [getDeviationRatio_afterAdds hsize, relatedPairs_eq]
  simp only [test_afterAdds A hsize]
  rfl

end Windows

/-! ### Runs -/

section Runs

variable (A : Arithmetic K K) (market : MarketTripletManagerDefault H) {config : Config H K}

/-- What an event gives. -/
theorem step_signals (s : StrategyState H K) (asset : H) (value : K) :
    (s.step A market config (.addData asset value)).2 =
      signalsFor .needBuy value (logged A market config s.slidingWindow asset value) ++
        signalsFor .needSell value (logged A market config s.slidingWindow asset value) :=
  congrArg₂ (· ++ ·) (signalsOf_stages A market config .needBuy s.slidingWindow asset value)
    (signalsOf_stages A market config .needSell s.slidingWindow asset value)

/-- One event. -/
theorem step_eq (hsize : 1 ≤ config.windowSize.toInt32) {adds : List (H × K)}
    {s : StrategyState H K} (hs : s.slidingWindow = afterAdds config.windowSize.toInt32 adds)
    (e : EngineEvent H K) :
    (s.step A market config e).1.slidingWindow =
        afterAdds config.windowSize.toInt32 (adds ++ e.added) ∧
      (s.step A market config e).2 = specSignals A market config adds e := by
  cases e with
  | addData asset value =>
    refine ⟨?_, ?_⟩
    · show s.slidingWindow.addData asset value = _
      rw [hs]
      exact (afterAdds_concat _ adds asset value).symm
    · rw [step_signals, hs, logged_afterAdds A market hsize]
      rfl
  | setBidPrice asset value => exact ⟨hs.trans (by rw [EngineEvent.added, List.append_nil]), rfl⟩
  | setAskPrice asset value => exact ⟨hs.trans (by rw [EngineEvent.added, List.append_nil]), rfl⟩

theorem trace_eq_specTrace (hsize : 1 ≤ config.windowSize.toInt32) {adds : List (H × K)}
    {s : StrategyState H K} (hs : s.slidingWindow = afterAdds config.windowSize.toInt32 adds)
    (es : List (EngineEvent H K)) :
    (engine A market config).trace s es = specTrace A market config adds es := by
  induction es generalizing s adds with
  | nil => rfl
  | cons e es ih =>
    obtain ⟨hnext, hsignals⟩ := step_eq A market hsize hs e
    rw [Machine.trace_cons]
    exact congrArg₂ (· ++ ·) hsignals (ih hnext)

/-- **The engine** logs what the specification says of the history: at every value of the allowed
asset that is far enough above the mean of the window before it, to buy and to sell, the connected
assets whose full windows have enough mutual information with the full window of its asset. -/
theorem engine_trace_eq (hsize : 1 ≤ config.windowSize.toInt32) (es : List (EngineEvent H K)) :
    (engine A market config).trace (.new config) es = specTrace A market config [] es :=
  trace_eq_specTrace A market hsize rfl es

/-- Two connected assets, and windows of two values. -/
def pairMarket : MarketTripletManagerDefault String :=
  MarketTripletManagerDefault.connect {} "a" "b"

def pairConfig : Config String ℚ where
  windowSize := 2
  numberBins := 2
  allowedAssetHash := "a"
  deviationRatioThreshold := 1
  miThreshold := 0

/-- Both assets grow, and then the allowed one jumps. -/
def pairEvents : List (EngineEvent String ℚ) :=
  [.addData "b" 1, .addData "a" 1, .setBidPrice "a" 1, .addData "b" 3, .addData "a" 2,
    .addData "a" 5]

theorem engine_trace_eq_pairEvents :
    (engine (.exact (· - 1)) pairMarket pairConfig).trace (.new pairConfig) pairEvents =
      [.needBuy "b" 5, .needSell "b" 5] :=
  (engine_trace_eq (.exact (· - 1)) pairMarket (by decide) pairEvents).trans (by decide +kernel)

end Runs

/-! ### Undefined behaviour -/

section Faults

variable (A : Arithmetic K K) (market : MarketTripletManagerDefault H) {config : Config H K}

/-- The windows of the candidate, and of the assets that are compared with it, have a width. -/
def Defined (config : Config H K) (adds : List (H × K)) : EngineEvent H K → Prop
  | .addData asset value => Candidate config adds asset value →
    ∀ pair ∈ market.getPairs asset,
      (window config adds asset).length = fullLength config →
      (window config adds pair).length = fullLength config →
      A.HasWidth (window config adds asset) config.numberBins.toInt32 ∧
        A.HasWidth (window config adds pair) config.numberBins.toInt32
  | .setBidPrice _ _ => True
  | .setAskPrice _ _ => True

theorem filterOk_isOk_iff {E A : Type} {test : A → Except E Bool} {as : List A} :
    (∃ passed, filterOk test as = .ok passed) ↔ ∀ a ∈ as, ∃ result, test a = .ok result := by
  induction as with
  | nil => exact iff_of_true ⟨[], rfl⟩ nofun
  | cons a as ih =>
    rw [List.forall_mem_cons, ← ih, filterOk]
    constructor
    · rintro ⟨passed, hpassed⟩
      obtain ⟨result, hresult, hrest⟩ := bind_eq_ok_iff.mp hpassed
      obtain ⟨rest, hrest, -⟩ := bind_eq_ok_iff.mp hrest
      exact ⟨⟨result, hresult⟩, rest, hrest⟩
    · rintro ⟨⟨result, hresult⟩, rest, hrest⟩
      rw [hresult, hrest]
      exact ⟨_, rfl⟩

variable {A}

omit [DecidableEq H] in
theorem testWindows_isOk_iff (hA : A.Lawful) (hsize : 1 ≤ config.windowSize.toInt32)
    (hbins : 1 ≤ config.numberBins.toInt32) (x y : List K) :
    (∃ passed, testWindows A config x y = .ok passed) ↔
      (x.length = fullLength config → y.length = fullLength config →
        A.HasWidth x config.numberBins.toInt32 ∧ A.HasWidth y config.numberBins.toInt32) := by
  unfold testWindows
  by_cases hfull : x.length = fullLength config ∧ y.length = fullLength config
  · have hpos := toNatClampNeg_bounds hsize
    have hne : x ≠ [] := by
      rintro rfl
      have hzero := hfull.1
      unfold fullLength at hzero
      rw [List.length_nil] at hzero
      omega
    have hlength : x.length < 2 ^ 31 := by
      have hfull := hfull.1
      unfold fullLength at hfull
      omega
    rw [if_pos hfull, ← Arithmetic.mutualInformation_isOk_iff hA hbins hne hlength
      (hfull.1.trans hfull.2.symm)]
    cases A.mutualInformation x y config.numberBins.toInt32 with
    | error fault =>
      exact iff_of_false nofun fun h => absurd (h hfull.1 hfull.2) nofun
    | ok mi => exact iff_of_true ⟨_, rfl⟩ fun _ _ => ⟨mi, rfl⟩
  · rw [if_neg hfull]
    exact iff_of_true ⟨false, rfl⟩ fun hx hy => absurd ⟨hx, hy⟩ hfull

theorem wanted_isOk_iff (hA : A.Lawful) (hsize : 1 ≤ config.windowSize.toInt32)
    (hbins : 1 ≤ config.numberBins.toInt32) (adds : List (H × K)) (asset : H) (value : K) :
    (∃ hashes, wanted A market config adds asset value = .ok hashes) ↔
      Defined A market config adds (.addData asset value) := by
  unfold wanted Defined
  dsimp only
  by_cases hcandidate : Candidate config adds asset value
  · rw [if_pos hcandidate, filterOk_isOk_iff]
    refine ⟨fun h _ pair hpair => ?_, fun h pair hpair => ?_⟩
    · exact (testWindows_isOk_iff hA hsize hbins _ _).mp (h pair hpair)
    · exact (testWindows_isOk_iff hA hsize hbins _ _).mpr (h hcandidate pair hpair)
  · rw [if_neg hcandidate]
    exact iff_of_true ⟨[], rfl⟩ fun h => absurd h hcandidate

/-- One event. -/
theorem faultless_specSignals_iff (hA : A.Lawful) (hsize : 1 ≤ config.windowSize.toInt32)
    (hbins : 1 ≤ config.numberBins.toInt32) (adds : List (H × K)) (e : EngineEvent H K) :
    (∀ fault, Signal.fault fault ∉ specSignals A market config adds e) ↔
      Defined A market config adds e := by
  cases e with
  | addData asset value =>
    rw [← wanted_isOk_iff market hA hsize hbins, specSignals]
    cases wanted A market config adds asset value with
    | error fault => exact iff_of_false (fun h => h fault List.mem_cons_self) nofun
    | ok hashes =>
      refine iff_of_true (fun fault hmem => ?_) ⟨hashes, rfl⟩
      unfold signalsFor at hmem
      rcases List.mem_append.mp hmem with hmem | hmem
      · obtain ⟨hash, -, heq⟩ := List.mem_map.mp hmem
        exact absurd heq nofun
      · obtain ⟨hash, -, heq⟩ := List.mem_map.mp hmem
        exact absurd heq nofun
  | setBidPrice asset value => exact iff_of_true (fun _ => List.not_mem_nil) trivial
  | setAskPrice asset value => exact iff_of_true (fun _ => List.not_mem_nil) trivial

theorem faultless_specTrace_iff (hA : A.Lawful) (hsize : 1 ≤ config.windowSize.toInt32)
    (hbins : 1 ≤ config.numberBins.toInt32) (adds : List (H × K)) (es : List (EngineEvent H K)) :
    (∀ fault, Signal.fault fault ∉ specTrace A market config adds es) ↔
      ∀ pre e post, es = pre ++ e :: post →
        Defined A market config (adds ++ pre.flatMap EngineEvent.added) e := by
  induction es generalizing adds with
  | nil =>
    refine iff_of_true (fun _ => List.not_mem_nil) fun pre e post h => ?_
    exact absurd h.symm (List.append_ne_nil_of_right_ne_nil pre (List.cons_ne_nil e post))
  | cons e es ih =>
    have hsplit : (∀ fault, Signal.fault fault ∉ specTrace A market config adds (e :: es)) ↔
        (∀ fault, Signal.fault fault ∉ specSignals A market config adds e) ∧
          ∀ fault, Signal.fault fault ∉ specTrace A market config (adds ++ e.added) es := by
      rw [specTrace, ← forall_and]
      exact forall_congr' fun fault => by rw [List.mem_append, not_or]
    rw [hsplit, faultless_specSignals_iff market hA hsize hbins, ih]
    constructor
    · rintro ⟨hfirst, hrest⟩ pre f post heq
      cases pre with
      | nil =>
        obtain ⟨rfl, -⟩ := List.cons.inj heq
        rw [List.flatMap_nil, List.append_nil]
        exact hfirst
      | cons g pre =>
        obtain ⟨rfl, hpost⟩ := List.cons.inj heq
        rw [List.flatMap_cons, ← List.append_assoc]
        exact hrest pre f post hpost
    · intro hall
      refine ⟨?_, fun pre f post heq => ?_⟩
      · have hfirst := hall [] e es rfl
        rwa [List.flatMap_nil, List.append_nil] at hfirst
      · have hrest := hall (e :: pre) f post (by rw [heq, List.cons_append])
        rwa [List.flatMap_cons, ← List.append_assoc] at hrest

/-- **Undefined behaviour** is met in a run exactly when, at some value of the allowed asset that is
far enough above the mean, its window and that of an asset connected to it are full and the bins of
one of them have the width `0`. -/
theorem faultless_iff (hA : A.Lawful) (hsize : 1 ≤ config.windowSize.toInt32)
    (hbins : 1 ≤ config.numberBins.toInt32) (es : List (EngineEvent H K)) :
    (∀ fault, Signal.fault fault ∉ (engine A market config).trace (.new config) es) ↔
      ∀ pre e post, es = pre ++ e :: post →
        Defined A market config (pre.flatMap EngineEvent.added) e := by
  have htrace : (engine A market config).trace (.new config) es =
      specTrace A market config [] es := trace_eq_specTrace A market hsize rfl es
  rw [htrace]
  exact faultless_specTrace_iff market hA hsize hbins [] es

/-- The allowed asset jumps after a window of one value. -/
def constantEvents : List (EngineEvent String ℚ) :=
  [.addData "b" 1, .addData "a" 1, .addData "b" 2, .addData "a" 1, .addData "a" 5]

theorem faultless_iff_twoRuns :
    (∀ pre e post, pairEvents = pre ++ e :: post →
        Defined (.exact (· - 1)) pairMarket pairConfig (pre.flatMap EngineEvent.added) e) ∧
      ¬ ∀ pre e post, constantEvents = pre ++ e :: post →
        Defined (.exact (· - 1)) pairMarket pairConfig (pre.flatMap EngineEvent.added) e := by
  have hA := Arithmetic.exact_lawful (K := ℚ) (· - 1)
  have htrace : (engine (.exact (· - 1)) pairMarket pairConfig).trace (.new pairConfig)
      pairEvents = [.needBuy "b" 5, .needSell "b" 5] := by decide +kernel
  constructor
  · apply (faultless_iff pairMarket hA (by decide) (by decide) pairEvents).mp
    rw [htrace]
    simp
  · rw [← faultless_iff pairMarket hA (by decide) (by decide)]
    intro h
    exact h .divisionByZero (by decide +kernel)

/-- Exactly computed, the width is `0` for constant windows. -/
theorem defined_exact_iff [FloorRing K] [IsStrictOrderedRing K] (log2 : K → K)
    (hbins : 1 ≤ config.numberBins.toInt32) (adds : List (H × K)) (asset : H) (value : K) :
    Defined (.exact log2) market config adds (.addData asset value) ↔
      (Candidate config adds asset value → ∀ pair ∈ market.getPairs asset,
        (window config adds asset).length = fullLength config →
        (window config adds pair).length = fullLength config →
        NonConstant (window config adds asset) ∧ NonConstant (window config adds pair)) := by
  unfold Defined
  simp only [Arithmetic.exact_hasWidth_iff log2 _ hbins]

end Faults

/-! ### The assets that are logged -/

section Connected

omit [Field K] [LinearOrder K] in
theorem mem_getPairs_insert {m : MarketTripletManagerDefault H} {x y asset pair : H} :
    pair ∈ (m.insert x y).getPairs asset ↔
      pair ∈ m.getPairs asset ∨ (x, y) = (asset, pair) := by
  unfold MarketTripletManagerDefault.getPairs MarketTripletManagerDefault.insert
  dsimp only
  by_cases hasset : asset = x
  · rw [hasset, Function.update_self, Option.getD_some, List.mem_insert_iff, Prod.mk.injEq]
    constructor
    · rintro (rfl | hmem)
      · exact .inr ⟨rfl, rfl⟩
      · exact .inl hmem
    · rintro (hmem | ⟨-, rfl⟩)
      · exact .inr hmem
      · exact .inl rfl
  · rw [Function.update_of_ne hasset, Prod.mk.injEq]
    refine ⟨.inl, ?_⟩
    rintro (hmem | ⟨heq, -⟩)
    · exact hmem
    · exact absurd heq.symm hasset

omit [Field K] [LinearOrder K] in
theorem mem_getPairs_connect {m : MarketTripletManagerDefault H} {x y asset pair : H} :
    pair ∈ (m.connect x y).getPairs asset ↔
      pair ∈ m.getPairs asset ∨ (asset, pair) = (x, y) ∨ (pair, asset) = (x, y) := by
  unfold MarketTripletManagerDefault.connect
  rw [mem_getPairs_insert, mem_getPairs_insert, or_assoc]
  simp only [Prod.mk.injEq]
  tauto

/-- The market after the calls of `Connect`. -/
def connected (connects : List (H × H)) : MarketTripletManagerDefault H :=
  connects.foldl (fun market c => market.connect c.1 c.2) {}

omit [Field K] [LinearOrder K] in
theorem mem_getPairs_connected {connects : List (H × H)} {asset pair : H} :
    pair ∈ (connected connects).getPairs asset ↔
      (asset, pair) ∈ connects ∨ (pair, asset) ∈ connects := by
  unfold connected
  induction connects using List.reverseRecOn with
  | nil => exact iff_of_false List.not_mem_nil fun h => h.elim List.not_mem_nil List.not_mem_nil
  | append_singleton connects c ih =>
    obtain ⟨x, y⟩ := c
    rw [List.foldl_concat, mem_getPairs_connect, ih]
    simp only [List.mem_append, List.mem_singleton]
    tauto

variable (A : Arithmetic K K) (config : Config H K)

/-- What a signal to buy says. -/
def Signal.buy? : Signal H K → Option (H × K)
  | needBuy hash value => some (hash, value)
  | needSell _ _ => none
  | fault _ => none

/-- What a signal to sell says. -/
def Signal.sell? : Signal H K → Option (H × K)
  | needBuy _ _ => none
  | needSell hash value => some (hash, value)
  | fault _ => none

theorem filterOk_subset {E A : Type} {test : A → Except E Bool} {as passed : List A}
    (h : filterOk test as = .ok passed) : ∀ a ∈ passed, a ∈ as := by
  induction as generalizing passed with
  | nil =>
    obtain rfl := Except.ok.inj h
    exact fun a ha => ha
  | cons a as ih =>
    rw [filterOk] at h
    obtain ⟨result, -, h⟩ := bind_eq_ok_iff.mp h
    obtain ⟨rest, hrest, h⟩ := bind_eq_ok_iff.mp h
    obtain rfl := Except.ok.inj h
    intro b hb
    split_ifs at hb
    · rcases List.mem_cons.mp hb with rfl | hb
      · exact List.mem_cons_self
      · exact List.mem_cons_of_mem a (ih hrest b hb)
    · exact List.mem_cons_of_mem a (ih hrest b hb)

/-- The assets that an analysis logs are pairs of the allowed one. -/
theorem mem_logged {market : MarketTripletManagerDefault H}
    {slidingWindow : SlidingWindowStorageDefault H K} {asset : H} {value : K} {hashes : List H}
    (h : logged A market config slidingWindow asset value = .ok hashes) :
    ∀ hash ∈ hashes, asset = config.allowedAssetHash ∧ hash ∈ market.getPairs asset := by
  unfold logged at h
  split_ifs at h with hcandidate
  · rw [relatedPairs_eq] at h
    exact fun hash hmem => ⟨hcandidate.1, filterOk_subset h hash hmem⟩
  · obtain rfl := Except.ok.inj h
    exact nofun

/-- One event logs the same to buy and to sell, and only assets that are connected. -/
theorem step_connected (market : MarketTripletManagerDefault H) (s : StrategyState H K)
    (e : EngineEvent H K) :
    (s.step A market config e).2.filterMap Signal.buy? =
        (s.step A market config e).2.filterMap Signal.sell? ∧
      ∀ hash value, .needBuy hash value ∈ (s.step A market config e).2 →
        e = .addData config.allowedAssetHash value ∧
          hash ∈ market.getPairs config.allowedAssetHash := by
  cases e with
  | addData asset value =>
    rw [step_signals]
    cases hlogged : logged A market config s.slidingWindow asset value with
    | error fault => exact ⟨rfl, fun hash v h => by simp [signalsFor] at h⟩
    | ok hashes =>
      refine ⟨?_, fun hash v hmem => ?_⟩
      · unfold signalsFor
        simp [List.filterMap_append, List.filterMap_map, Function.comp_def, Signal.buy?,
          Signal.sell?]
      · unfold signalsFor at hmem
        rcases List.mem_append.mp hmem with hmem | hmem
        · obtain ⟨hash', hhash, heq⟩ := List.mem_map.mp hmem
          obtain ⟨rfl, rfl⟩ := Signal.needBuy.inj heq
          obtain ⟨rfl, hpair⟩ := mem_logged A config hlogged _ hhash
          exact ⟨rfl, hpair⟩
        · obtain ⟨hash', -, heq⟩ := List.mem_map.mp hmem
          exact absurd heq nofun
  | setBidPrice asset value => exact ⟨rfl, nofun⟩
  | setAskPrice asset value => exact ⟨rfl, nofun⟩

theorem trace_connected (market : MarketTripletManagerDefault H) (s : StrategyState H K)
    (es : List (EngineEvent H K)) :
    ((engine A market config).trace s es).filterMap Signal.buy? =
        ((engine A market config).trace s es).filterMap Signal.sell? ∧
      ∀ hash value, .needBuy hash value ∈ (engine A market config).trace s es →
        .addData config.allowedAssetHash value ∈ es ∧
          hash ∈ market.getPairs config.allowedAssetHash := by
  induction es generalizing s with
  | nil => exact ⟨rfl, nofun⟩
  | cons e es ih =>
    obtain ⟨hsame, hconnected⟩ := step_connected A config market s e
    obtain ⟨hsame', hconnected'⟩ := ih (s.step A market config e).1
    rw [Machine.trace_cons, List.filterMap_append, List.filterMap_append]
    refine ⟨congrArg₂ (· ++ ·) hsame hsame', fun hash value hmem => ?_⟩
    rcases List.mem_append.mp hmem with hmem | hmem
    · obtain ⟨rfl, hpair⟩ := hconnected hash value hmem
      exact ⟨List.mem_cons_self, hpair⟩
    · obtain ⟨hadd, hpair⟩ := hconnected' hash value hmem
      exact ⟨List.mem_cons_of_mem e hadd, hpair⟩

/-- **The assets that are logged** to buy and to sell are the same, in the same order, at the same
values; each is connected to the allowed one, and its value is one that the allowed one has had. -/
theorem signals_connected (connects : List (H × H)) (es : List (EngineEvent H K)) :
    ((engine A (connected connects) config).trace (.new config) es).filterMap Signal.buy? =
        ((engine A (connected connects) config).trace (.new config) es).filterMap
          Signal.sell? ∧
      ∀ hash value,
        .needBuy hash value ∈ (engine A (connected connects) config).trace (.new config) es →
        .addData config.allowedAssetHash value ∈ es ∧
          ((config.allowedAssetHash, hash) ∈ connects ∨
            (hash, config.allowedAssetHash) ∈ connects) := by
  obtain ⟨hsame, hconnected⟩ := trace_connected A config (connected connects) (.new config) es
  refine ⟨hsame, fun hash value hmem => ?_⟩
  obtain ⟨hadd, hpair⟩ := hconnected hash value hmem
  exact ⟨hadd, mem_getPairs_connected.mp hpair⟩

theorem signals_connected_pairEvents :
    .addData "a" 5 ∈ pairEvents ∧ (("a", "b") ∈ [("a", "b")] ∨ ("b", "a") ∈ [("a", "b")]) :=
  (signals_connected (.exact (· - 1)) pairConfig [("a", "b")] pairEvents).2 "b" 5
    (by decide +kernel)

end Connected

end CryptobotAlgo.Aos.DeviationAndMutualInformation
