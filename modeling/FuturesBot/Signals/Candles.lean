import FuturesBot.Core.Arithmetic
import FuturesBot.Lib.Scores
import FuturesBot.Market.Snapshot

namespace FuturesBot.MarketData
open Lib

inductive Timeframe
  | tf5m | tf15m | tf1h | tf4h
  deriving DecidableEq, Repr

instance : StrEnum Timeframe where
  entries := [(.tf5m, "5m"), (.tf15m, "15m"), (.tf1h, "1h"), (.tf4h, "4h")]
  mem_entries e := by cases e <;> simp
  nodup := by decide +kernel

def allTimeframes : List Timeframe := [.tf5m, .tf15m, .tf1h, .tf4h]

theorem mem_allTimeframes (tf : Timeframe) : tf ∈ allTimeframes := by cases tf <;> decide

/-- What each timeframe counts for; the longer ones count for more. -/
def tfWeights : Timeframe → Amount
  | .tf5m => 10 / 100
  | .tf15m => 20 / 100
  | .tf1h => 30 / 100
  | .tf4h => 40 / 100

theorem tfWeights_pos (tf : Timeframe) : 0 < tfWeights tf := by
  cases tf <;> norm_num [tfWeights]

theorem tfWeights_sum : (allTimeframes.map tfWeights).sum = 1 := by
  norm_num [allTimeframes, tfWeights]

/-- Scores of all timeframes in `[-1, 1]` are not clipped when they are added up. -/
theorem clip_weightedSum {score : Timeframe → Amount} (h : ∀ tf, -1 ≤ score tf ∧ score tf ≤ 1) :
    clip (weightedSum tfWeights score allTimeframes) =
      weightedSum tfWeights score allTimeframes :=
  clip_of_range
    (weightedSum_between (fun tf _ => (tfWeights_pos tf).le) tfWeights_sum fun tf _ => h tf)

/-- The candle as the numbers that are computed with. -/
def CandleData.values (c : CandleData) : CandleFields ℚ := c.toCandleFields.map Decimal.value

def Candles.at (cs : Candles) : Timeframe → CandleFields ℚ
  | .tf5m => cs.tf5m.values
  | .tf15m => cs.tf15m.values
  | .tf1h => cs.tf1h.values
  | .tf4h => cs.tf4h.values

/-- The candles before the last one, the oldest first. -/
def Candles.history (cs : Candles) : Timeframe → List (CandleFields ℚ)
  | .tf5m => cs.history5m.map CandleData.values
  | .tf15m => cs.history15m.map CandleData.values
  | .tf1h => cs.history1h.map CandleData.values
  | .tf4h => cs.history4h.map CandleData.values

theorem Candles.at_valid (cs : Candles) (tf : Timeframe) : (cs.at tf).Valid := by
  cases tf
  · exact cs.tf5m.valid
  · exact cs.tf15m.valid
  · exact cs.tf1h.valid
  · exact cs.tf4h.valid

/-- The parts of `math` that the signals use, and how what is calculated in between is rounded. -/
structure FloatMath where
  arithmetic : Arithmetic
  tanh : Squashing Amount
  sqrt : Amount → Amount
  sqrt_zero : sqrt 0 = 0

namespace FloatMath

variable (M : FloatMath)

abbrev float : Rounding := M.arithmetic.float

abbrev decimal : Rounding := M.arithmetic.decimal

/-- The scores of all timeframes, each with its weight. -/
def weighted (score : Timeframe → Amount) : Amount :=
  M.float.sum (allTimeframes.map fun tf => M.float.mul (tfWeights tf) (score tf))

variable {M : FloatMath} (h : M.arithmetic = .exact)
include h

theorem float_exact : M.float = .exact := by
  rw [float, h]
  rfl

theorem decimal_exact : M.decimal = .exact := by
  rw [decimal, h]
  rfl

theorem weighted_exact (score : Timeframe → Amount) :
    M.weighted score = weightedSum tfWeights score allTimeframes := by
  rw [weighted, float_exact h, Rounding.exact_sum]
  rfl

end FloatMath

namespace CandleFields

def range (c : CandleFields ℚ) : Amount := c.high - c.low

variable {c : CandleFields ℚ} (h : c.Valid)
include h

theorem Valid.range_nonneg : 0 ≤ c.range := by
  have hlow := h.2.1
  unfold range
  linarith [hlow.1, hlow.2]

theorem Valid.body_le_range : |c.close - c.openPrice| ≤ c.range := by
  obtain ⟨-, ⟨hlo, hoh⟩, ⟨hlc, hch⟩, -⟩ := h
  unfold range
  rw [abs_le]
  constructor <;> linarith

end CandleFields

end FuturesBot.MarketData
