import FuturesBot.Core.Uuids
import FuturesBot.Decision.Aggregator
import FuturesBot.Signals.QuantSignals
import FuturesBot.Signals.Sweeps
import Mathlib.Data.List.Sort

namespace FuturesBot

namespace QuantSignalsFields

instance (f : QuantSignalsFields) : Decidable f.Valid := inferInstanceAs (Decidable (_ ∧ _))

end QuantSignalsFields

namespace MarketData
open Lib

def signalVersion : String := "1.0"

structure RawFeatureRefs where
  momentum : MomentumResult
  breakout : BreakoutResult
  orderFlowImbalance : OrderFlowResult
  liquiditySweeps : LiquiditySweepResult

/-- Each analysis of a snapshot carries the identifier, the time and the symbol of it. -/
structure AnalysisKey where
  snapshotId : String
  timestampUtc : DateTime
  symbol : Symbol

/-- A UUID, an allowed symbol, and a time that is given in UTC: another timezone is refused even
where it shows the same moment. -/
def AnalysisKey.Valid (k : AnalysisKey) : Prop :=
  isUuid k.snapshotId ∧ k.symbol ∈ allowedSymbols ∧ k.timestampUtc.utcOffset = some 0

instance AnalysisKey.decidableValid (k : AnalysisKey) : Decidable k.Valid :=
  inferInstanceAs (Decidable (_ ∧ _))

def MarketSnapshot.key (s : MarketSnapshot φ) : AnalysisKey where
  snapshotId := s.snapshotId
  timestampUtc := s.timestampUtc
  symbol := s.symbol

/-- What the packages ask of a snapshot beyond what it has been checked for itself: any text may
be its identifier. -/
def MarketSnapshot.Identified (s : MarketSnapshot φ) : Prop :=
  isUuid s.snapshotId ∧ s.timestampUtc.utcOffset = some 0

instance MarketSnapshot.decidableIdentified (s : MarketSnapshot φ) : Decidable s.Identified :=
  inferInstanceAs (Decidable (_ ∧ _))

theorem MarketSnapshot.key_valid_iff (s : MarketSnapshot φ) : s.key.Valid ↔ s.Identified :=
  ⟨fun h => ⟨h.1, h.2.2⟩, fun h => ⟨h.1, s.valid.2.1, h.2⟩⟩

theorem MarketSnapshot.lastPrice_pos (s : MarketSnapshot φ) : 0 < s.lastPrice.value :=
  s.valid.1.1

structure QuantSignalsPackageFields extends AnalysisKey where
  signalId : String
  timeframesUsed : List String
  signals : QuantSignalsFields
  signalConfidence : Option Amount
  rawFeatureRefs : Option RawFeatureRefs

def allowedTimeframes : List String := allTimeframes.map StrEnum.value

def QuantSignalsPackageFields.Valid (f : QuantSignalsPackageFields) : Prop :=
  (f.toAnalysisKey.Valid ∧ isUuid f.signalId) ∧
    (f.timeframesUsed ≠ [] ∧ ∀ tf ∈ f.timeframesUsed, tf ∈ allowedTimeframes) ∧
  f.signals.Valid ∧ ∀ s ∈ f.signalConfidence, 0 ≤ s ∧ s ≤ 1

instance QuantSignalsPackageFields.decidableValid (f : QuantSignalsPackageFields) :
    Decidable f.Valid :=
  inferInstanceAs (Decidable (_ ∧ _))

structure QuantSignalsPackage extends QuantSignalsPackageFields where
  valid : toQuantSignalsPackageFields.Valid

def QuantSignalsPackage.build (f : QuantSignalsPackageFields) :
    Except PyError QuantSignalsPackage :=
  if h : f.Valid then .ok ⟨f, h⟩ else .error (.validationError "QuantSignalsPackage")

def momentumTimeframes : List Timeframe := allTimeframes

def breakoutTimeframes : List Timeframe := [.tf5m, .tf1h, .tf4h]

def orderFlowTimeframes : List Timeframe := allTimeframes

def liquiditySweepTimeframes : List Timeframe := allTimeframes

/-- The names of all timeframes that some signal has used, once each, in the order of texts. -/
def timeframesUsed : List String :=
  ((momentumTimeframes ∪ breakoutTimeframes ∪ orderFlowTimeframes ∪ liquiditySweepTimeframes).map
    StrEnum.value).insertionSort (· ≤ ·)

/-- The fields of a package, once the two signals that may fail are known. What is not implemented
yet stays empty; the strength of the signals and the conflict between them are among it. -/
def quantSignalsFields (M : FloatMath) (signalId : Uuid) (s : MarketSnapshot Amount)
    (breakout : BreakoutResult) (meanReversion : Amount) : QuantSignalsPackageFields :=
  let cs := s.candles
  let momentum := calculateMomentum M cs
  let ofi := calculateOrderFlowImbalance M cs
  let sweep := calculateLiquiditySweeps M cs
  { toAnalysisKey := s.key
    signalId := signalId.text
    timeframesUsed := timeframesUsed
    signals :=
      { momentumSignal := some momentum.signal
        meanReversionSignal := some meanReversion
        breakoutSignal := some breakout.signal
        fundingSignal := some (computeFundingSignal M s.fundingRate)
        openInterestSignal := some
          (computeOpenInterestSignal M (s.openInterest.map Decimal.value) s.volume.value)
        orderFlowImbalanceSignal := some ofi.signal
        liquiditySweepSignal := some sweep.signal }
    signalConfidence := none
    rawFeatureRefs := some ⟨momentum, breakout, ofi, sweep⟩ }

def computeQuantSignals (M : FloatMath) (signalId : Uuid) (s : MarketSnapshot Amount) :
    Except PyError QuantSignalsPackage := do
  let breakout ← calculateBreakout M s.candles s.lastPrice.value
  let meanReversion ← computeMeanReversionSignal M s.candles s.lastPrice.value
  QuantSignalsPackage.build (quantSignalsFields M signalId s breakout meanReversion)

theorem timeframesUsed_valid :
    timeframesUsed ≠ [] ∧ ∀ tf ∈ timeframesUsed, tf ∈ allowedTimeframes := by
  have hmem : ∀ tf : String, tf ∈ timeframesUsed ↔ tf ∈ allowedTimeframes := by
    intro tf
    rw [timeframesUsed, (List.perm_insertionSort _ _).mem_iff]
    rfl
  have hfive : StrEnum.value Timeframe.tf5m ∈ timeframesUsed :=
    (hmem _).mpr (List.mem_map_of_mem (mem_allTimeframes .tf5m))
  exact ⟨List.ne_nil_of_mem hfive, fun tf h => (hmem tf).mp h⟩

/-- The candles let all signals be computed: the range of the last four hours does not end at
zero, and neither do the closes add up to it. -/
def Candles.Computable (M : FloatMath) (cs : Candles) : Prop :=
  (cs.at .tf4h).high ≠ 0 ∧ meanClose M cs ≠ 0

instance Candles.decidableComputable (M : FloatMath) (cs : Candles) : Decidable (cs.Computable M) :=
  inferInstanceAs (Decidable (_ ∧ _))

section
variable {M : FloatMath} {s : MarketSnapshot Amount} (signalId : Uuid)

theorem computeQuantSignals_eq_build
    (hbreakout : calculateBreakout M s.candles s.lastPrice.value = .ok breakout)
    (hmean : computeMeanReversionSignal M s.candles s.lastPrice.value = .ok mean) :
    computeQuantSignals M signalId s =
      QuantSignalsPackage.build (quantSignalsFields M signalId s breakout mean) := by
  rw [computeQuantSignals, hbreakout, hmean]
  exact (pure_bind breakout _).trans (pure_bind mean _)

/-- Every signal that the calculations give stands in the bounds of the package. -/
theorem quantSignalsFields_valid (hid : s.Identified)
    (hbreakout : -1 ≤ breakout.signal ∧ breakout.signal ≤ 1) (hmean : -1 ≤ mean ∧ mean ≤ 1) :
    (quantSignalsFields M signalId s breakout mean).Valid := by
  refine ⟨⟨s.key_valid_iff.mpr hid, signalId.valid⟩, timeframesUsed_valid, ⟨?_, ?_, ?_⟩, ?_⟩
  · intro v hv
    simp only [quantSignalsFields, QuantSignalsFields.individual, List.filterMap_cons,
      List.filterMap_nil, id_eq, List.mem_cons, List.not_mem_nil, or_false] at hv
    rcases hv with rfl | rfl | rfl | rfl | rfl | rfl | rfl
    · exact calculateMomentum_range M _
    · exact hmean
    · exact hbreakout
    · exact computeFundingSignal_range M _
    · exact computeOpenInterestSignal_range M _ _
    · exact clip_range _
    · exact clip_range _
  · exact fun _ hs => absurd hs (Option.not_mem_none _)
  · exact fun _ hs => absurd hs (Option.not_mem_none _)
  · exact fun _ hs => absurd hs (Option.not_mem_none _)

theorem computeQuantSignals_of_computable (h : s.candles.Computable M) (hid : s.Identified) :
    ∃ p, computeQuantSignals M signalId s = .ok p ∧
      (p.toAnalysisKey = s.key ∧ p.signalId = signalId.text) ∧
        p.signals.individual.length = 7 ∧
        p.signals.signalStrengthScore = none ∧
      p.signals.signalConflictScore = none := by
  obtain ⟨breakout, hbreakout, hbrange⟩ := calculateBreakout_ok M s.lastPrice_pos h.1
  obtain ⟨mean, hmean, hmrange⟩ := computeMeanReversionSignal_ok M h.2 s.lastPrice.value
  rw [computeQuantSignals_eq_build signalId hbreakout hmean]
  exact ⟨_, dif_pos (quantSignalsFields_valid signalId hid hbrange hmrange), ⟨rfl, rfl⟩, rfl, rfl,
    rfl⟩

theorem computeQuantSignals_error (h : ¬s.candles.Computable M) :
    computeQuantSignals M signalId s = .error .zeroDivisionError := by
  by_cases htop : (s.candles.at .tf4h).high = 0
  · rw [computeQuantSignals, calculateBreakout_error M s.lastPrice_pos htop]
    rfl
  · have hmean : meanClose M s.candles = 0 := by
      by_contra hne
      exact h ⟨htop, hne⟩
    obtain ⟨breakout, hbreakout, -⟩ := calculateBreakout_ok M s.lastPrice_pos htop
    rw [computeQuantSignals, hbreakout, computeMeanReversionSignal_error M hmean]
    rfl

theorem computeQuantSignals_refused (h : s.candles.Computable M) (hid : ¬s.Identified) :
    computeQuantSignals M signalId s = .error (.validationError "QuantSignalsPackage") := by
  obtain ⟨breakout, hbreakout, -⟩ := calculateBreakout_ok M s.lastPrice_pos h.1
  obtain ⟨mean, hmean, -⟩ := computeMeanReversionSignal_ok M h.2 s.lastPrice.value
  rw [computeQuantSignals_eq_build signalId hbreakout hmean]
  exact dif_neg fun hvalid => hid (s.key_valid_iff.mp hvalid.1.1)

end

/-- A candle that has doubled the price without looking back. -/
def surgeFields (nCandles : ℤ) : CandleFields Decimal where
  openPrice := ⟨false, 100, 0⟩
  high := ⟨false, 200, 0⟩
  low := ⟨false, 100, 0⟩
  close := ⟨false, 200, 0⟩
  volume := ⟨false, 60, 0⟩
  nCandles := nCandles

theorem surgeFields_valid : ∀ n ∈ [1, 3, 12, 48], ((surgeFields n).map Decimal.value).Valid := by
  decide +kernel

def surgeCandles : Candles where
  tf5m := ⟨surgeFields 1, surgeFields_valid 1 (by decide)⟩
  tf15m := ⟨surgeFields 3, surgeFields_valid 3 (by decide)⟩
  tf1h := ⟨surgeFields 12, surgeFields_valid 12 (by decide)⟩
  tf4h := ⟨surgeFields 48, surgeFields_valid 48 (by decide)⟩

def noonFields : DateTimeFields := ⟨2024, 2, 29, 12, 0, 0, 0, some 0⟩

theorem noonFields_valid : noonFields.Valid := by decide +kernel

def noon : DateTime := ⟨noonFields, noonFields_valid⟩

/-- The price has gone on far above the range of the last four hours. -/
def surgeSnapshotFields : MarketSnapshotFields Decimal DateTime Amount where
  snapshotId := "6f1c2a54-7d0e-4b39-9a61-2f8d5c3e7b10"
  timestampUtc := noon
  exchange := .paper
  environment := .paper
  symbol := "BTCUSDT"
  lastPrice := ⟨false, 300, 0⟩
  bid := ⟨false, 300, 0⟩
  ask := ⟨false, 303, 0⟩
  spreadAbsolute := ⟨false, 3, 0⟩
  spreadPercent := ⟨false, 1, 0⟩
  candles := surgeCandles
  volume := ⟨false, 1000, 0⟩
  volatility := none
  fundingRate := none
  openInterest := none
  accountBalanceUsdt := ⟨false, 1000, 0⟩
  openPositionsCount := 0
  activeOrdersCount := 0
  latencyMs := 35
  exchangeServerTime := noon
  localTime := noon
  clockSkewMs := 0
  dataFreshnessStatus := .fresh
  coherenceStatus := .ok

theorem surgeSnapshotFields_valid : surgeSnapshotFields.values.Valid := by decide +kernel

def surgeSnapshot : MarketSnapshot Amount := ⟨surgeSnapshotFields, surgeSnapshotFields_valid⟩

theorem surgeSnapshot_identified : surgeSnapshot.Identified := by decide +kernel

theorem isUuid_surge : isUuid "c0a8017e-5b1d-4f62-8e34-91d7f02b6a45" = true := by decide +kernel

/-- The identifier of each package of the surge. -/
def surgeId : Uuid := ⟨_, isUuid_surge⟩

/-- The platform's functions on the numbers of the surge, which are zero or far from it. -/
def surgeMath : FloatMath where
  arithmetic := .python
  tanh := clipSquashing ℚ
  sqrt := id
  sqrt_zero := rfl

end MarketData

end FuturesBot
