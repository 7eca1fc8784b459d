import FuturesBot.Signals.QuantSignals
import FuturesBot.Signals.Sweeps
import Mathlib.Algebra.Order.Group.MinMax

namespace FuturesBot.MarketData
open Lib

/-- The candle with its prices turned over: what was high is low. -/
def CandleFields.mirror (axis : ℚ) (c : CandleFields ℚ) : CandleFields ℚ where
  openPrice := axis - c.openPrice
  high := axis - c.low
  low := axis - c.high
  close := axis - c.close
  volume := c.volume
  nCandles := c.nCandles

/-- The second market is the first one turned over. -/
structure Candles.Mirrored (axis : ℚ) (cs cs' : Candles) : Prop where
  at_eq : ∀ tf, cs'.at tf = (cs.at tf).mirror axis
  history_eq : ∀ tf, cs'.history tf = (cs.history tf).map (CandleFields.mirror axis)

@[simp] theorem mirror_range (axis : ℚ) (c : CandleFields ℚ) : (c.mirror axis).range = c.range :=
  sub_sub_sub_cancel_left _ _ _

section Candle
variable {M : FloatMath} (hM : M.arithmetic = .exact) (axis : ℚ) (c : CandleFields ℚ)
include hM

theorem sweepDenom_mirror : sweepDenom M (c.mirror axis) = sweepDenom M c := by
  simp only [sweepDenom, FloatMath.float_exact hM, Rounding.exact_sub, CandleFields.mirror,
    sub_sub_sub_cancel_left]

theorem candleOfi_mirror : candleOfi M (c.mirror axis) = -candleOfi M c := by
  have hnum : 2 * (c.mirror axis).close - (c.mirror axis).high - (c.mirror axis).low =
      -(2 * c.close - c.high - c.low) := by
    simp only [CandleFields.mirror]
    ring
  simp only [candleOfi, FloatMath.float_exact hM, FloatMath.decimal_exact hM,
    Rounding.exact_apply]
  rw [mirror_range, hnum, neg_div, clip_neg]
  split
  · exact neg_zero.symm
  · rfl

theorem wickMetrics_mirror : wickMetrics M (c.mirror axis) =
    ⟨(wickMetrics M c).candleRange, (wickMetrics M c).upperWick,
      (wickMetrics M c).lowerWick⟩ := by
  have hmin := min_sub_sub_left axis c.openPrice c.close
  have hmax := max_sub_sub_left axis c.openPrice c.close
  simp only [wickMetrics, FloatMath.float_exact hM, Rounding.exact_sub, CandleFields.mirror, hmin,
    hmax, sub_sub_sub_cancel_left]

theorem proxyScore_mirror (threshold : Amount) :
    (proxyScore M (c.mirror axis) threshold).normalized =
      -(proxyScore M c threshold).normalized := by
  unfold proxyScore
  rw [wickMetrics_mirror hM]
  dsimp only
  split
  · have hodd : ∀ l u r : Amount, (u - l) / r * ((u + l) / r) / threshold =
        -((l - u) / r * ((l + u) / r) / threshold) := by
      intro l u r
      ring
    simp only [FloatMath.float_exact hM, Rounding.exact_sub, Rounding.exact_add,
      Rounding.exact_mul, Rounding.exact_div]
    rw [hodd, M.tanh.neg]
  · exact neg_zero.symm

theorem sweepsLow_mirror (level : Amount) :
    sweepsLow M (c.mirror axis) (axis - level) = sweepsHigh M c level := by
  simp only [sweepsLow, sweepsHigh, FloatMath.float_exact hM, Rounding.exact_apply,
    CandleFields.mirror, sub_lt_sub_iff_left]

theorem sweepsHigh_mirror (level : Amount) :
    sweepsHigh M (c.mirror axis) (axis - level) = sweepsLow M c level := by
  simp only [sweepsLow, sweepsHigh, FloatMath.float_exact hM, Rounding.exact_apply,
    CandleFields.mirror, sub_lt_sub_iff_left]

theorem bullScore_mirror (level : Amount) :
    bullScore M (c.mirror axis) (axis - level) = bearScore M c level := by
  simp only [bullScore, bearScore, sweepScore, sweepDenom_mirror hM]
  simp only [FloatMath.float_exact hM, Rounding.exact_sub, CandleFields.mirror,
    sub_sub_sub_cancel_left]

theorem bearScore_mirror (level : Amount) :
    bearScore M (c.mirror axis) (axis - level) = bullScore M c level := by
  simp only [bullScore, bearScore, sweepScore, sweepDenom_mirror hM]
  simp only [FloatMath.float_exact hM, Rounding.exact_sub, CandleFields.mirror,
    sub_sub_sub_cancel_left]

end Candle

/-- What both sides of the market claim for themselves: the score of a candle that has swept a
low and a high and is worth as much by one as by the other. -/
def tiedScore (M : FloatMath) (c : CandleFields ℚ) (history : List (CandleFields ℚ))
    (lookback : ℕ) : Amount :=
  if (bestBull M c history lookback).score = (bestBear M c history lookback).score then
    (bestBull M c history lookback).score
  else 0

section History
variable {M : FloatMath} (hM : M.arithmetic = .exact) (axis : ℚ) (c : CandleFields ℚ)
  (history : List (CandleFields ℚ)) (lookback : ℕ)
include hM

theorem findSwingLows_mirror : findSwingLows M (history.map (CandleFields.mirror axis)) lookback =
    (findSwingHighs M history lookback).map (axis - ·) := by
  have hlow : (history.map (CandleFields.mirror axis)).map (fun x => M.float x.low) =
      (history.map fun x => M.float x.high).map (axis - ·) := by
    rw [List.map_map, List.map_map, FloatMath.float_exact hM]
    rfl
  rw [findSwingLows, hlow]
  exact extremes_map (fun x y => sub_lt_sub_iff_left axis) lookback _

theorem findSwingHighs_mirror : findSwingHighs M (history.map (CandleFields.mirror axis)) lookback =
    (findSwingLows M history lookback).map (axis - ·) := by
  have hhigh : (history.map (CandleFields.mirror axis)).map (fun x => M.float x.high) =
      (history.map fun x => M.float x.low).map (axis - ·) := by
    rw [List.map_map, List.map_map, FloatMath.float_exact hM]
    rfl
  rw [findSwingHighs, hhigh]
  exact extremes_map (fun _ _ => gt_iff_lt.trans (sub_lt_sub_iff_left axis)) lookback _

theorem bestBull_mirror :
    (bestBull M (c.mirror axis) (history.map (CandleFields.mirror axis)) lookback).score =
      (bestBear M c history lookback).score := by
  rw [bestBull, findSwingLows_mirror hM]
  exact bestOf_map rfl (sweepsLow_mirror hM axis c) (bullScore_mirror hM axis c) _

theorem bestBear_mirror :
    (bestBear M (c.mirror axis) (history.map (CandleFields.mirror axis)) lookback).score =
      (bestBull M c history lookback).score := by
  rw [bestBear, findSwingHighs_mirror hM]
  exact bestOf_map rfl (sweepsHigh_mirror hM axis c) (bearScore_mirror hM axis c) _

theorem historicalScore_mirror :
    (historicalScore M (c.mirror axis) (history.map (CandleFields.mirror axis))
        lookback).historicalScore =
      -(historicalScore M c history lookback).historicalScore +
        2 * tiedScore M c history lookback := by
  simp only [historicalScore, bestBull_mirror hM, bestBear_mirror hM, tiedScore]
  rcases lt_trichotomy (bestBull M c history lookback).score
      (bestBear M c history lookback).score with hlt | heq | hgt
  · rw [if_pos hlt.le, if_neg (not_le_of_gt hlt), if_neg hlt.ne]
    ring
  · rw [if_pos heq.le, if_pos heq.ge, if_pos heq, ← heq]
    ring
  · rw [if_neg (not_le_of_gt hgt), if_pos hgt.le, if_neg hgt.ne']
    ring

end History

/-- The tie of a timeframe that has candles enough before it. -/
def Candles.tied (M : FloatMath) (cs : Candles) (tf : Timeframe) : Amount :=
  if minHistoryLen ≤ (cs.history tf).length then
    tiedScore M (cs.at tf) (cs.history tf) swingLookback
  else 0

section
variable {M : FloatMath} (hM : M.arithmetic = .exact) {cs cs' : Candles}
  (h : cs.Mirrored axis cs')
include hM h

theorem sweepEntry_mirror (tf : Timeframe) :
    (sweepEntry M (cs'.at tf) (cs'.history tf) tf).blendedScore =
      -(sweepEntry M (cs.at tf) (cs.history tf) tf).blendedScore +
        2 * historicalWeight * cs.tied M tf := by
  rw [h.at_eq, h.history_eq, Candles.tied]
  unfold sweepEntry
  dsimp only
  rw [List.length_map]
  split
  · simp only [historicalScore_mirror hM, proxyScore_mirror hM, FloatMath.float_exact hM,
      Rounding.exact_add, Rounding.exact_mul, Rounding.exact_sub]
    ring
  · dsimp only
    rw [proxyScore_mirror hM]
    ring

theorem calculateLiquiditySweeps_mirror :
    (calculateLiquiditySweeps M cs').signal = -(calculateLiquiditySweeps M cs).signal +
      2 * historicalWeight * weightedSum tfWeights (cs.tied M) allTimeframes := by
  rw [calculateLiquiditySweeps_signal hM, calculateLiquiditySweeps_signal hM]
  simp only [sweepEntry_mirror hM h, weightedSum, allTimeframes, List.map_cons, List.map_nil,
    List.sum_cons, List.sum_nil]
  ring

end

theorem Candles.tied_nonneg (M : FloatMath) (cs : Candles) (tf : Timeframe) : 0 ≤ cs.tied M tf := by
  unfold tied tiedScore
  split_ifs
  · exact (bestBull_range M _ _ _).1
  · exact le_rfl
  · exact le_rfl

/-- A timeframe on which a swept low and a swept high are worth the same. -/
def Candles.TieAt (M : FloatMath) (cs : Candles) (tf : Timeframe) : Prop :=
  minHistoryLen ≤ (cs.history tf).length ∧
    0 < (bestBull M (cs.at tf) (cs.history tf) swingLookback).score ∧
    (bestBull M (cs.at tf) (cs.history tf) swingLookback).score =
      (bestBear M (cs.at tf) (cs.history tf) swingLookback).score

theorem Candles.tied_eq_zero_iff (M : FloatMath) (cs : Candles) (tf : Timeframe) :
    cs.tied M tf = 0 ↔ ¬cs.TieAt M tf := by
  have hrange := (bestBull_range M (cs.at tf) (cs.history tf) swingLookback).1
  unfold tied tiedScore TieAt
  split_ifs with hlen htie
  · constructor
    · rintro hzero ⟨-, hpos, -⟩
      exact hpos.ne' hzero
    · intro hno
      exact le_antisymm (not_lt.mp fun hpos => hno ⟨hlen, hpos, htie⟩) hrange
  · exact iff_of_true rfl fun htie' => htie htie'.2.2
  · exact iff_of_true rfl fun htie' => hlen htie'.1

/-- Where nothing is rounded, turning the market over turns the signals of its candles over. Only
where the two sides are worth the same does the sweep signal prefer the bulls in both markets. -/
theorem signals_mirror {M : FloatMath} (hM : M.arithmetic = .exact) {cs cs' : Candles}
    (h : cs.Mirrored axis cs') :
    (calculateOrderFlowImbalance M cs').signal = -(calculateOrderFlowImbalance M cs).signal ∧
    -(calculateLiquiditySweeps M cs).signal ≤ (calculateLiquiditySweeps M cs').signal ∧
    ((calculateLiquiditySweeps M cs').signal = -(calculateLiquiditySweeps M cs).signal ↔
      ∀ tf, ¬cs.TieAt M tf) := by
  have hterm : ∀ tf, 0 ≤ tfWeights tf * cs.tied M tf := fun tf =>
    mul_nonneg (tfWeights_pos tf).le (cs.tied_nonneg M tf)
  have hsum : 0 ≤ weightedSum tfWeights (cs.tied M) allTimeframes := by
    refine List.sum_nonneg fun x hx => ?_
    obtain ⟨tf, -, rfl⟩ := List.mem_map.mp hx
    exact hterm tf
  have hweight : 0 < 2 * historicalWeight := by norm_num [historicalWeight]
  rw [calculateLiquiditySweeps_mirror hM h]
  refine ⟨?_, ?_, ?_⟩
  · simp only [calculateOrderFlowImbalance, h.at_eq, candleOfi_mirror hM,
      FloatMath.weighted_exact hM]
    rw [← clip_neg]
    congr 1
    simp only [weightedSum, allTimeframes, List.map_cons, List.map_nil, List.sum_cons,
      List.sum_nil]
    ring
  · exact le_add_of_nonneg_right (mul_nonneg hweight.le hsum)
  · rw [add_eq_left, mul_eq_zero, or_iff_right hweight.ne']
    constructor
    · intro hzero tf
      rw [← cs.tied_eq_zero_iff]
      have hle : tfWeights tf * cs.tied M tf ≤ weightedSum tfWeights (cs.tied M) allTimeframes := by
        refine List.single_le_sum (fun x hx => ?_) _ (List.mem_map_of_mem (mem_allTimeframes tf))
        obtain ⟨tf', -, rfl⟩ := List.mem_map.mp hx
        exact hterm tf'
      have hprod : tfWeights tf * cs.tied M tf = 0 :=
        le_antisymm (hle.trans hzero.le) (hterm tf)
      exact (mul_eq_zero.mp hprod).resolve_left (tfWeights_pos tf).ne'
    · intro hno
      have hzero : cs.tied M = fun _ => 0 :=
        funext fun tf => (cs.tied_eq_zero_iff M tf).mpr (hno tf)
      rw [hzero, weightedSum_const, mul_zero]

/-- A candle that opens and closes in the middle between `10 - reach` and `10 + reach`. -/
def middleFields (reach : ℕ) : CandleFields Decimal where
  openPrice := ⟨false, 10, 0⟩
  high := ⟨false, 10 + reach, 0⟩
  low := ⟨false, 10 - reach, 0⟩
  close := ⟨false, 10, 0⟩
  volume := ⟨false, 1, 0⟩
  nCandles := 1

theorem middleFields_valid : ((middleFields 0).map Decimal.value).Valid ∧
    ((middleFields 1).map Decimal.value).Valid ∧ ((middleFields 2).map Decimal.value).Valid := by
  decide +kernel

def flatCandle : CandleData := ⟨middleFields 0, middleFields_valid.1⟩

def swingCandle : CandleData := ⟨middleFields 1, middleFields_valid.2.1⟩

def sweepCandle : CandleData := ⟨middleFields 2, middleFields_valid.2.2⟩

/-- The last four hours have swept the low and the high of the candle that stood out before. -/
def doubleSweep : Candles where
  tf5m := flatCandle
  tf15m := flatCandle
  tf1h := flatCandle
  tf4h := sweepCandle
  history4h :=
    [flatCandle, flatCandle, flatCandle, swingCandle, flatCandle, flatCandle, flatCandle]

theorem doubleSweep_mirrored : doubleSweep.Mirrored 20 doubleSweep := by
  have hflat : flatCandle.values = flatCandle.values.mirror 20 := by
    norm_num [flatCandle, CandleData.values, middleFields, CandleFields.map, CandleFields.mirror,
      Decimal.value]
  have hswing : swingCandle.values = swingCandle.values.mirror 20 := by
    norm_num [swingCandle, CandleData.values, middleFields, CandleFields.map, CandleFields.mirror,
      Decimal.value]
  have hsweep : sweepCandle.values = sweepCandle.values.mirror 20 := by
    norm_num [sweepCandle, CandleData.values, middleFields, CandleFields.map, CandleFields.mirror,
      Decimal.value]
  constructor
  · rintro (_ | _ | _ | _)
    · exact hflat
    · exact hflat
    · exact hflat
    · exact hsweep
  · rintro (_ | _ | _ | _)
    · rfl
    · rfl
    · rfl
    · simp only [Candles.history, doubleSweep, List.map_cons, List.map_nil, ← hflat, ← hswing]

/-- Here the market is its own mirror image and still bullish. -/
theorem signals_mirror_doubleSweep :
    doubleSweep.Mirrored 20 doubleSweep ∧
    ∃ M : FloatMath, M.arithmetic = .exact ∧ 0 < (calculateLiquiditySweeps M doubleSweep).signal ∧
      ¬∀ tf, ¬doubleSweep.TieAt M tf := by
  let M : FloatMath := ⟨.exact, clipSquashing ℚ, id, rfl⟩
  have h := signals_mirror (M := M) rfl doubleSweep_mirrored
  have hpos : 0 < (calculateLiquiditySweeps M doubleSweep).signal := by decide +kernel
  refine ⟨doubleSweep_mirrored, M, rfl, hpos, fun hno => ?_⟩
  have hturned := h.2.2.mpr hno
  linarith

end FuturesBot.MarketData
