import FuturesBot.Lib.Drawdown
import FuturesBot.Lib.Swings
import FuturesBot.Signals.Candles
import Mathlib.Tactic.FieldSimp

namespace FuturesBot.MarketData
open Lib

/-- The raw score that makes a strong signal of the wicks alone. -/
def tfSweepThreshold : Timeframe → Amount
  | .tf5m | .tf15m => 25 / 100
  | .tf1h => 28 / 100
  | .tf4h => 30 / 100

def minRange : Amount := 1 / 10 ^ 8

def swingLookback : ℕ := 3

def minHistoryLen : ℕ := 2 * swingLookback + 1

def historicalWeight : Amount := 6 / 10

structure WickMetrics where
  candleRange : Amount
  lowerWick : Amount
  upperWick : Amount

def wickMetrics (M : FloatMath) (c : CandleFields ℚ) : WickMetrics where
  candleRange := M.float.sub c.high c.low
  lowerWick := M.float.sub (min c.openPrice c.close) c.low
  upperWick := M.float.sub c.high (max c.openPrice c.close)

structure ProxyMetrics extends WickMetrics where
  wickImbalance : Amount
  wickFraction : Amount
  rawScore : Amount
  normalized : Amount

/-- The score of a candle by its wicks. One with hardly a range has none. -/
def proxyScore (M : FloatMath) (c : CandleFields ℚ) (threshold : Amount) : ProxyMetrics :=
  let w := wickMetrics M c
  let imbalance := M.float.div (M.float.sub w.lowerWick w.upperWick) w.candleRange
  let fraction := M.float.div (M.float.add w.lowerWick w.upperWick) w.candleRange
  let raw := M.float.mul imbalance fraction
  if M.float minRange ≤ w.candleRange then
    ⟨w, imbalance, fraction, raw, M.tanh (M.float.div raw threshold)⟩
  else ⟨w, 0, 0, 0, 0⟩

def findSwingLows (M : FloatMath) (history : List (CandleFields ℚ)) (lookback : ℕ) :
    List Amount :=
  extremes (· < ·) lookback (history.map fun x => M.float x.low)

def findSwingHighs (M : FloatMath) (history : List (CandleFields ℚ)) (lookback : ℕ) :
    List Amount :=
  extremes (· > ·) lookback (history.map fun x => M.float x.high)

/-- What a sweep is measured by. -/
def sweepDenom (M : FloatMath) (c : CandleFields ℚ) : Amount :=
  let range := M.float.sub c.high c.low
  if M.float minRange ≤ range then range else 1

/-- The low goes below the level and the close comes back above it. -/
def sweepsLow (M : FloatMath) (c : CandleFields ℚ) (level : Amount) : Bool :=
  decide (M.float c.low < level ∧ level < M.float c.close)

/-- The high goes above the level and the close comes back below it. -/
def sweepsHigh (M : FloatMath) (c : CandleFields ℚ) (level : Amount) : Bool :=
  decide (level < M.float c.high ∧ M.float c.close < level)

/-- How deep a level was broken and how far it was given back. -/
def sweepScore (M : FloatMath) (c : CandleFields ℚ) (penetration recovery : Amount) : Amount :=
  M.tanh (M.float.add (M.float.div penetration (sweepDenom M c))
    (M.float.div recovery (sweepDenom M c)))

def bullScore (M : FloatMath) (c : CandleFields ℚ) (level : Amount) : Amount :=
  sweepScore M c (M.float.sub level c.low) (M.float.sub c.close level)

def bearScore (M : FloatMath) (c : CandleFields ℚ) (level : Amount) : Amount :=
  sweepScore M c (M.float.sub c.high level) (M.float.sub level c.close)

def bestBull (M : FloatMath) (c : CandleFields ℚ) (history : List (CandleFields ℚ))
    (lookback : ℕ) : Best Amount Amount :=
  bestOf (sweepsLow M c) (bullScore M c) ⟨0, none⟩ (findSwingLows M history lookback)

def bestBear (M : FloatMath) (c : CandleFields ℚ) (history : List (CandleFields ℚ))
    (lookback : ℕ) : Best Amount Amount :=
  bestOf (sweepsHigh M c) (bearScore M c) ⟨0, none⟩ (findSwingHighs M history lookback)

structure HistoricalMetrics where
  swingLows : List Amount
  swingHighs : List Amount
  sweptLow : Option Amount
  sweptHigh : Option Amount
  historicalScore : Amount

/-- The score of a candle by the levels that it has broken and given back. Of equal ones the
bullish is taken. -/
def historicalScore (M : FloatMath) (c : CandleFields ℚ) (history : List (CandleFields ℚ))
    (lookback : ℕ) : HistoricalMetrics :=
  let bull := bestBull M c history lookback
  let bear := bestBear M c history lookback
  ⟨findSwingLows M history lookback, findSwingHighs M history lookback, bull.place, bear.place,
    if bear.score ≤ bull.score then bull.score else -bear.score⟩

def noHistory : HistoricalMetrics := ⟨[], [], none, none, 0⟩

inductive DetectionMethod
  | historicalLevels | wickProxy
  deriving DecidableEq, Repr

structure SweepEntry extends ProxyMetrics where
  weight : Amount
  threshold : Amount
  detectionMethod : DetectionMethod
  historical : HistoricalMetrics
  blendedScore : Amount

/-- One timeframe: with enough candles before it the levels count along with the wicks. -/
def sweepEntry (M : FloatMath) (c : CandleFields ℚ) (history : List (CandleFields ℚ))
    (tf : Timeframe) : SweepEntry :=
  let proxy := proxyScore M c (tfSweepThreshold tf)
  if minHistoryLen ≤ history.length then
    let hist := historicalScore M c history swingLookback
    ⟨proxy, tfWeights tf, tfSweepThreshold tf, .historicalLevels, hist,
      M.float.add (M.float.mul historicalWeight hist.historicalScore)
        (M.float.mul (M.float.sub 1 historicalWeight) proxy.normalized)⟩
  else ⟨proxy, tfWeights tf, tfSweepThreshold tf, .wickProxy, noHistory, proxy.normalized⟩

structure LiquiditySweepResult where
  timeframes : Timeframe → SweepEntry
  signal : Amount

def calculateLiquiditySweeps (M : FloatMath) (cs : Candles) : LiquiditySweepResult :=
  let perTf := fun tf => sweepEntry M (cs.at tf) (cs.history tf) tf
  ⟨perTf, clip (M.weighted fun tf => (perTf tf).blendedScore)⟩

theorem minRange_pos : 0 < minRange := by norm_num [minRange]

theorem sweepDenom_pos (M : FloatMath) (c : CandleFields ℚ) : 0 < sweepDenom M c := by
  unfold sweepDenom
  dsimp only
  split
  · rename_i h
    exact lt_of_lt_of_le (M.float.pos minRange_pos) h
  · exact one_pos

/-- An earlier candle whose price beats those of the `lookback` candles on each side of it. -/
structure SwingAt (beats : Amount → Amount → Prop) (price : CandleFields ℚ → Amount)
    (history : List (CandleFields ℚ)) (lookback i : ℕ) (x : CandleFields ℚ) : Prop where
  get : history[i]? = some x
  inside : lookback ≤ i ∧ i + lookback < history.length
  beats_all : ∀ j y, history[j]? = some y → j ≠ i → i ≤ j + lookback → j ≤ i + lookback →
    beats (price x) (price y)

theorem mem_extremes_price_iff {beats : Amount → Amount → Prop} [DecidableRel beats]
    {price : CandleFields ℚ → Amount} {history : List (CandleFields ℚ)} {level : Amount} :
    level ∈ extremes beats lookback (history.map price) ↔
      ∃ i x, SwingAt beats price history lookback i x ∧ price x = level := by
  rw [mem_extremes_iff]
  simp only [List.length_map, List.getElem?_map, Option.map_eq_some_iff]
  constructor
  · rintro ⟨i, hlow, hhigh, ⟨x, hx, rfl⟩, hbeats⟩
    exact ⟨i, x, ⟨hx, ⟨hlow, hhigh⟩, fun j y hy => hbeats j _ ⟨y, hy, rfl⟩⟩, rfl⟩
  · rintro ⟨i, x, hswing, rfl⟩
    refine ⟨i, hswing.inside.1, hswing.inside.2, ⟨x, hswing.get, rfl⟩, ?_⟩
    rintro j - ⟨y, hy, rfl⟩
    exact hswing.beats_all j y hy

/-- The low of an earlier candle, lower than those around it, which the candle goes below and
closes above. -/
structure LowSwept (M : FloatMath) (c : CandleFields ℚ) (history : List (CandleFields ℚ))
    (lookback : ℕ) (level : Amount) : Prop where
  swing : ∃ i x, SwingAt (· < ·) (fun x => M.float x.low) history lookback i x ∧
    M.float x.low = level
  broken : M.float c.low < level
  givenBack : level < M.float c.close

/-- The high of an earlier candle, higher than those around it, which the candle goes above and
closes below. -/
structure HighSwept (M : FloatMath) (c : CandleFields ℚ) (history : List (CandleFields ℚ))
    (lookback : ℕ) (level : Amount) : Prop where
  swing : ∃ i x, SwingAt (· > ·) (fun x => M.float x.high) history lookback i x ∧
    M.float x.high = level
  broken : level < M.float c.high
  givenBack : M.float c.close < level

section
variable (M : FloatMath) (c : CandleFields ℚ) (history : List (CandleFields ℚ)) (lookback : ℕ)

theorem lowSwept_iff : LowSwept M c history lookback level ↔
    level ∈ findSwingLows M history lookback ∧ sweepsLow M c level := by
  rw [findSwingLows, mem_extremes_price_iff, sweepsLow, decide_eq_true_eq]
  exact ⟨fun h => ⟨h.swing, h.broken, h.givenBack⟩, fun h => ⟨h.1, h.2.1, h.2.2⟩⟩

theorem highSwept_iff : HighSwept M c history lookback level ↔
    level ∈ findSwingHighs M history lookback ∧ sweepsHigh M c level := by
  rw [findSwingHighs, mem_extremes_price_iff, sweepsHigh, decide_eq_true_eq]
  exact ⟨fun h => ⟨h.swing, h.broken, h.givenBack⟩, fun h => ⟨h.1, h.2.1, h.2.2⟩⟩

theorem sweepScore_pos (hpenetration : 0 < penetration) (hrecovery : 0 < recovery) :
    0 < sweepScore M c penetration recovery :=
  M.tanh.pos _ (M.float.zero_lt_add (M.float.zero_lt_div hpenetration (sweepDenom_pos M c))
    (M.float.zero_lt_div hrecovery (sweepDenom_pos M c)))

variable {M c history lookback}

theorem LowSwept.score_pos (h : LowSwept M c history lookback level) : 0 < bullScore M c level := by
  obtain ⟨i, x, -, rfl⟩ := h.swing
  refine sweepScore_pos M c (M.float.zero_lt_sub ?_) (M.float.zero_lt_sub ?_)
  · rw [M.float.idem]
    exact h.broken
  · rw [M.float.idem]
    exact h.givenBack

theorem HighSwept.score_pos (h : HighSwept M c history lookback level) :
    0 < bearScore M c level := by
  obtain ⟨i, x, -, rfl⟩ := h.swing
  refine sweepScore_pos M c (M.float.zero_lt_sub ?_) (M.float.zero_lt_sub ?_)
  · rw [M.float.idem]
    exact h.broken
  · rw [M.float.idem]
    exact h.givenBack

/-- The best of positive scores is their maximum. -/
theorem bestOf_isMaximum {counts : Amount → Bool} {score : Amount → Amount} {levels : List Amount}
    {swept : Amount → Prop} (hswept : ∀ level, swept level ↔ level ∈ levels ∧ counts level)
    (hpos : ∀ level, swept level → 0 < score level) :
    IsMaximum {s | ∃ level, swept level ∧ s = score level}
        (bestOf counts score ⟨0, none⟩ levels).score ∧
      (0 < (bestOf counts score ⟨0, none⟩ levels).score ↔ ∃ level, swept level) := by
  have hset : {s | ∃ level ∈ levels, counts level ∧ s = score level} =
      {s | ∃ level, swept level ∧ s = score level} := by
    ext s
    constructor
    · rintro ⟨level, hm, hcounts, hs⟩
      exact ⟨level, (hswept level).mpr ⟨hm, hcounts⟩, hs⟩
    · rintro ⟨level, h, hs⟩
      exact ⟨level, ((hswept level).mp h).1, ((hswept level).mp h).2, hs⟩
  obtain ⟨hmem, hbound⟩ := bestOf_isGreatest counts score ⟨0, none⟩ levels
  rw [hset] at hmem hbound
  by_cases hany : ∃ level, swept level
  · obtain ⟨level, hlevel⟩ := hany
    have hbest : 0 < (bestOf counts score ⟨0, none⟩ levels).score :=
      (hpos level hlevel).trans_le (hbound (.inr ⟨level, hlevel, rfl⟩))
    refine ⟨.inl ⟨?_, fun s hs => hbound (.inr hs)⟩, iff_of_true hbest ⟨level, hlevel⟩⟩
    exact hmem.resolve_left hbest.ne'
  · have hzero : (bestOf counts score ⟨0, none⟩ levels).score = 0 := by
      rcases hmem with hzero | ⟨level, hlevel, -⟩
      · exact hzero
      · exact absurd ⟨level, hlevel⟩ hany
    refine ⟨.inr ⟨?_, hzero⟩, iff_of_false hzero.not_gt hany⟩
    refine Set.eq_empty_of_forall_notMem ?_
    rintro s ⟨level, hlevel, -⟩
    exact hany ⟨level, hlevel⟩

theorem bestBull_isMaximum : IsMaximum
      {s | ∃ level, LowSwept M c history lookback level ∧ s = bullScore M c level}
      (bestBull M c history lookback).score ∧
    (0 < (bestBull M c history lookback).score ↔ ∃ level, LowSwept M c history lookback level) :=
  bestOf_isMaximum (fun _ => lowSwept_iff M c history lookback) fun _ h => h.score_pos

theorem bestBear_isMaximum : IsMaximum
      {s | ∃ level, HighSwept M c history lookback level ∧ s = bearScore M c level}
      (bestBear M c history lookback).score ∧
    (0 < (bestBear M c history lookback).score ↔ ∃ level, HighSwept M c history lookback level) :=
  bestOf_isMaximum (fun _ => highSwept_iff M c history lookback) fun _ h => h.score_pos

end

theorem IsMaximum.range {scores : Set Amount} {best : Amount} (h : IsMaximum scores best)
    (hscores : ∀ s ∈ scores, 0 ≤ s ∧ s ≤ 1) : 0 ≤ best ∧ best ≤ 1 := by
  rcases h with h | ⟨-, rfl⟩
  · exact hscores best h.1
  · exact ⟨le_rfl, zero_le_one⟩

theorem bestBull_range (M : FloatMath) (c : CandleFields ℚ) (history : List (CandleFields ℚ))
    (lookback : ℕ) : 0 ≤ (bestBull M c history lookback).score ∧
      (bestBull M c history lookback).score ≤ 1 := by
  refine IsMaximum.range bestBull_isMaximum.1 ?_
  rintro s ⟨level, hlevel, rfl⟩
  exact ⟨hlevel.score_pos.le, M.tanh.le_one _⟩

theorem bestBear_range (M : FloatMath) (c : CandleFields ℚ) (history : List (CandleFields ℚ))
    (lookback : ℕ) : 0 ≤ (bestBear M c history lookback).score ∧
      (bestBear M c history lookback).score ≤ 1 := by
  refine IsMaximum.range bestBear_isMaximum.1 ?_
  rintro s ⟨level, hlevel, rfl⟩
  exact ⟨hlevel.score_pos.le, M.tanh.le_one _⟩

/-- The score of a candle is that of the best level that it has swept, with the sign of the side
that this is on. Where nothing is rounded all levels of a side are worth the same: only where the
candle closes between its own low and high counts. -/
theorem historicalScore_cases (M : FloatMath) (c : CandleFields ℚ)
    (history : List (CandleFields ℚ)) (lookback : ℕ) :
    ∃ bull bear,
      (|(historicalScore M c history lookback).historicalScore| = max bull bear ∧
        (0 ≤ (historicalScore M c history lookback).historicalScore ↔ bear ≤ bull)) ∧
      (IsMaximum {s | ∃ level, LowSwept M c history lookback level ∧ s = bullScore M c level} bull ∧
        (0 < bull ↔ ∃ level, LowSwept M c history lookback level)) ∧
      (IsMaximum {s | ∃ level, HighSwept M c history lookback level ∧ s = bearScore M c level}
          bear ∧
        (0 < bear ↔ ∃ level, HighSwept M c history lookback level)) ∧
      (M.arithmetic = .exact → ∀ level,
        bullScore M c level = M.tanh ((c.close - c.low) / sweepDenom M c) ∧
        bearScore M c level = M.tanh ((c.high - c.close) / sweepDenom M c)) := by
  have hbull := (bestBull_range M c history lookback).1
  have hbear := (bestBear_range M c history lookback).1
  refine ⟨_, _, ⟨?_, ?_⟩, bestBull_isMaximum, bestBear_isMaximum, fun hexact level => ?_⟩
  · unfold historicalScore
    dsimp only
    split
    · rename_i hle
      rw [abs_of_nonneg hbull, max_eq_left hle]
    · rename_i hlt
      rw [abs_neg, abs_of_nonneg hbear, max_eq_right (not_le.mp hlt).le]
  · unfold historicalScore
    dsimp only
    split
    · rename_i hle
      exact iff_of_true hbull hle
    · rename_i hlt
      refine iff_of_false ?_ hlt
      have hpos := hbull.trans_lt (not_le.mp hlt)
      linarith
  · simp only [bullScore, bearScore, sweepScore, FloatMath.float_exact hexact, Rounding.exact_sub,
      Rounding.exact_add, Rounding.exact_div]
    constructor
    · rw [← add_div, add_comm, sub_add_sub_cancel]
    · rw [← add_div, sub_add_sub_cancel]

theorem historicalScore_range (M : FloatMath) (c : CandleFields ℚ)
    (history : List (CandleFields ℚ)) (lookback : ℕ) :
    |(historicalScore M c history lookback).historicalScore| ≤ 1 := by
  obtain ⟨hbull, hbull'⟩ := bestBull_range M c history lookback
  obtain ⟨hbear, hbear'⟩ := bestBear_range M c history lookback
  unfold historicalScore
  dsimp only
  rw [abs_le]
  split <;> constructor <;> linarith

theorem proxyScore_range (M : FloatMath) (c : CandleFields ℚ) (threshold : Amount) :
    -1 ≤ (proxyScore M c threshold).normalized ∧ (proxyScore M c threshold).normalized ≤ 1 := by
  unfold proxyScore
  dsimp only
  split
  · exact M.tanh.range _
  · norm_num

theorem sweepEntry_range {M : FloatMath} (h : M.arithmetic = .exact) (c : CandleFields ℚ)
    (history : List (CandleFields ℚ)) (tf : Timeframe) :
    -1 ≤ (sweepEntry M c history tf).blendedScore ∧
      (sweepEntry M c history tf).blendedScore ≤ 1 := by
  have hproxy := proxyScore_range M c (tfSweepThreshold tf)
  obtain ⟨hlow, hhigh⟩ := abs_le.mp (historicalScore_range M c history swingLookback)
  unfold sweepEntry
  dsimp only
  split
  · simp only [FloatMath.float_exact h, Rounding.exact_add, Rounding.exact_mul,
      Rounding.exact_sub, historicalWeight]
    constructor <;> linarith
  · exact hproxy

/-- Where nothing is rounded the sum is never clipped. -/
theorem calculateLiquiditySweeps_signal {M : FloatMath} (h : M.arithmetic = .exact)
    (cs : Candles) :
    (calculateLiquiditySweeps M cs).signal = weightedSum tfWeights
      (fun tf => (sweepEntry M (cs.at tf) (cs.history tf) tf).blendedScore) allTimeframes := by
  unfold calculateLiquiditySweeps
  dsimp only
  rw [FloatMath.weighted_exact h]
  exact clip_weightedSum fun tf => sweepEntry_range h (cs.at tf) (cs.history tf) tf

end FuturesBot.MarketData
