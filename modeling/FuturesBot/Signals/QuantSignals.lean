import FuturesBot.Signals.Candles

namespace FuturesBot.MarketData
open Lib

/-- The move within a candle that makes a strong signal. -/
def tfRocThreshold : Timeframe → Amount
  | .tf5m => 2 / 1000
  | .tf15m => 4 / 1000
  | .tf1h => 10 / 1000
  | .tf4h => 20 / 1000

def roc (M : FloatMath) (c : CandleFields ℚ) : Amount :=
  if c.openPrice = 0 then 0
  else M.float (M.decimal (M.decimal (c.close - c.openPrice) / c.openPrice))

structure MomentumEntry where
  roc : Amount
  normalized : Amount
  weight : Amount
  threshold : Amount

structure MomentumResult where
  timeframes : Timeframe → MomentumEntry
  signal : Amount

def calculateMomentum (M : FloatMath) (cs : Candles) : MomentumResult :=
  let perTf := fun tf =>
    ⟨roc M (cs.at tf), M.tanh (M.float.div (roc M (cs.at tf)) (tfRocThreshold tf)),
      tfWeights tf, tfRocThreshold tf⟩
  ⟨perTf, clip (M.weighted fun tf => (perTf tf).normalized)⟩

/-- Where in its range a candle closes, from `-1` at the low to `1` at the high. -/
def candleOfi (M : FloatMath) (c : CandleFields ℚ) : Amount :=
  let range := M.decimal c.range
  let above := M.decimal (M.decimal (M.decimal (2 * c.close) - c.high) - c.low)
  if range = 0 then 0 else clip (M.float (M.decimal (above / range)))

structure OrderFlowEntry where
  ofi : Amount
  weight : Amount

structure OrderFlowResult where
  timeframes : Timeframe → OrderFlowEntry
  signal : Amount

def calculateOrderFlowImbalance (M : FloatMath) (cs : Candles) : OrderFlowResult :=
  let perTf := fun tf => ⟨candleOfi M (cs.at tf), tfWeights tf⟩
  ⟨perTf, clip (M.weighted fun tf => (perTf tf).ofi)⟩

def breakoutThreshold : Amount := 1 / 100

def insideAttenuation : Amount := 1 / 10

def minVolFactor : Amount := 2 / 10

inductive RangePosition
  | aboveRange | belowRange | insideRange
  deriving DecidableEq, Repr

structure BreakoutRange where
  boxTop : Amount
  boxBottom : Amount
  lastPrice : Amount
  position : RangePosition
  breakoutPct : Option Amount

structure BreakoutVolume where
  volRate5m : Amount
  volRate1h : Amount
  volRate4h : Amount
  baselineRate : Amount
  volRatio : Amount
  volumeFactor : Amount

structure BreakoutResult where
  range : BreakoutRange
  volume : BreakoutVolume
  rawBreakout : Amount
  signal : Amount

/-- A division of two numbers that are already in the arithmetic of the result. -/
def pyDiv (r : Rounding) (x y : Amount) : Except PyError Amount :=
  if y = 0 then .error .zeroDivisionError else .ok (r (x / y))

theorem pyDiv_of_ne (r : Rounding) (x : Amount) (h : y ≠ 0) : pyDiv r x y = .ok (r (x / y)) :=
  if_neg h

/-- How far the price is out of the range of the last four hours, and the squashed signal of
it. Inside of the range the signal only says on which side of the middle the price is. -/
def breakoutRange (M : FloatMath) (boxTop boxBottom lastPrice : Amount) :
    Except PyError (BreakoutRange × Amount) :=
  if boxTop < lastPrice then
    (pyDiv M.float (M.float (lastPrice - boxTop)) boxTop).map fun pct =>
      (⟨boxTop, boxBottom, lastPrice, .aboveRange, some pct⟩,
        M.tanh (M.float.div pct breakoutThreshold))
  else if lastPrice < boxBottom then
    (pyDiv M.float (M.float (lastPrice - boxBottom)) boxBottom).map fun pct =>
      (⟨boxTop, boxBottom, lastPrice, .belowRange, some pct⟩,
        M.tanh (M.float.div pct breakoutThreshold))
  else
    let mid := M.float (M.float (boxTop + boxBottom) / 2)
    let pct := M.float (M.float (lastPrice - mid) / mid)
    .ok (⟨boxTop, boxBottom, lastPrice, .insideRange, none⟩,
      if mid = 0 then 0
      else M.float.mul (M.tanh (M.float.div pct breakoutThreshold)) insideAttenuation)

/-- How much the volume of the last five minutes confirms. -/
def breakoutVolume (M : FloatMath) (volume5m volume1h volume4h : Amount) : BreakoutVolume :=
  let rate5m := M.float.div volume5m 5
  let rate1h := M.float.div volume1h 60
  let rate4h := M.float.div volume4h 240
  let baseline := M.float.div (M.float.add rate1h rate4h) 2
  let ratio := M.float.div rate5m baseline
  if baseline ≤ 0 then ⟨rate5m, rate1h, rate4h, baseline, 1, 1⟩
  else ⟨rate5m, rate1h, rate4h, baseline, ratio, max (M.float minVolFactor) (min 1 ratio)⟩

def calculateBreakout (M : FloatMath) (cs : Candles) (lastPrice : Amount) :
    Except PyError BreakoutResult := do
  let (range, raw) ←
    breakoutRange M (M.float (cs.at .tf4h).high) (M.float (cs.at .tf4h).low) (M.float lastPrice)
  let volume := breakoutVolume M (cs.at .tf5m).volume (cs.at .tf1h).volume (cs.at .tf4h).volume
  pure ⟨range, volume, raw, clip (M.float.mul raw volume.volumeFactor)⟩

def fundingScale : Amount := 3 / 10000

/-- Those who pay for their positions are too many: the signal goes against them. -/
def computeFundingSignal (M : FloatMath) (fundingRate : Option Amount) : Amount :=
  match fundingRate with
  | none => 0
  | some rate => clip (-M.tanh (M.float.div rate fundingScale))

def oiNeutralRatio : Amount := 1

def oiScale : Amount := 1

def computeOpenInterestSignal (M : FloatMath) (openInterest : Option Amount) (volume : Amount) :
    Amount :=
  match openInterest with
  | none => 0
  | some oi =>
    if volume = 0 then 0
    else
      clip (-M.tanh (M.float.div (M.float.sub (M.float.div oi volume) oiNeutralRatio) oiScale))

def minCv : Amount := 1 / 10 ^ 6

def meanClose (M : FloatMath) (cs : Candles) : Amount :=
  M.float.div (M.float.sum (allTimeframes.map fun tf => (cs.at tf).close)) allTimeframes.length

def varianceClose (M : FloatMath) (cs : Candles) : Amount :=
  let square := fun tf =>
    let d := M.float.sub (cs.at tf).close (meanClose M cs)
    M.float.mul d d
  M.float.div (M.float.sum (allTimeframes.map square)) allTimeframes.length

def stdClose (M : FloatMath) (cs : Candles) : Amount := M.sqrt (varianceClose M cs)

/-- How far the price is from the mean of the closes. A flat market gives no signal. -/
def computeMeanReversionSignal (M : FloatMath) (cs : Candles) (lastPrice : Amount) :
    Except PyError Amount := do
  let cv ← pyDiv M.float (stdClose M cs) (meanClose M cs)
  if cv < M.float minCv then pure 0
  else
    let z ← pyDiv M.float (M.float.sub (meanClose M cs) lastPrice) (stdClose M cs)
    pure (M.tanh z)

theorem calculateMomentum_range (M : FloatMath) (cs : Candles) :
    -1 ≤ (calculateMomentum M cs).signal ∧ (calculateMomentum M cs).signal ≤ 1 :=
  clip_range _

theorem candleOfi_range (M : FloatMath) (c : CandleFields ℚ) :
    -1 ≤ candleOfi M c ∧ candleOfi M c ≤ 1 := by
  unfold candleOfi
  dsimp only
  split
  · norm_num
  · exact clip_range _

/-- The breakout is undefined only where the range of the last four hours ends at zero. -/
theorem calculateBreakout_ok (M : FloatMath) {cs : Candles} (hlast : 0 < lastPrice)
    (htop : (cs.at .tf4h).high ≠ 0) : ∃ r, calculateBreakout M cs lastPrice = .ok r ∧
      -1 ≤ r.signal ∧ r.signal ≤ 1 := by
  have hrange : ∃ r, breakoutRange M (M.float (cs.at .tf4h).high) (M.float (cs.at .tf4h).low)
      (M.float lastPrice) = .ok r := by
    unfold breakoutRange
    split
    · exact ⟨_, by rw [pyDiv_of_ne _ _ (mt M.float.eq_zero_iff.mp htop)]; rfl⟩
    · split
      · rename_i hbelow
        exact ⟨_, by rw [pyDiv_of_ne _ _ ((M.float.pos hlast).trans hbelow).ne']; rfl⟩
      · exact ⟨_, rfl⟩
  obtain ⟨⟨range, raw⟩, hr⟩ := hrange
  refine ⟨_, by rw [calculateBreakout, hr]; rfl, clip_range _⟩

theorem calculateBreakout_error (M : FloatMath) {cs : Candles} (hlast : 0 < lastPrice)
    (htop : (cs.at .tf4h).high = 0) :
    calculateBreakout M cs lastPrice = .error .zeroDivisionError := by
  rw [calculateBreakout, htop, M.float.zero, breakoutRange, if_pos (M.float.pos hlast), pyDiv,
    if_pos rfl]
  rfl

theorem computeFundingSignal_range (M : FloatMath) (fundingRate : Option Amount) :
    -1 ≤ computeFundingSignal M fundingRate ∧ computeFundingSignal M fundingRate ≤ 1 := by
  cases fundingRate with
  | none => norm_num [computeFundingSignal]
  | some rate => exact clip_range _

theorem computeOpenInterestSignal_range (M : FloatMath) (openInterest : Option Amount)
    (volume : Amount) : -1 ≤ computeOpenInterestSignal M openInterest volume ∧
      computeOpenInterestSignal M openInterest volume ≤ 1 := by
  cases openInterest with
  | none => norm_num [computeOpenInterestSignal]
  | some oi =>
    rw [computeOpenInterestSignal]
    split
    · norm_num
    · exact clip_range _

/-- The deviation is never divided by when it is zero: a flat market has been told apart. -/
theorem computeMeanReversionSignal_ok (M : FloatMath) (hmean : meanClose M cs ≠ 0)
    (lastPrice : Amount) : ∃ v, computeMeanReversionSignal M cs lastPrice = .ok v ∧
      -1 ≤ v ∧ v ≤ 1 := by
  unfold computeMeanReversionSignal
  rw [pyDiv_of_ne _ _ hmean]
  change ∃ v, (if M.float (stdClose M cs / meanClose M cs) < M.float minCv then pure 0 else _) =
    Except.ok v ∧ _
  split
  · exact ⟨0, rfl, by norm_num⟩
  · rename_i hcv
    have hstd : stdClose M cs ≠ 0 := by
      intro hzero
      rw [hzero, zero_div, M.float.zero] at hcv
      exact hcv (M.float.pos (by norm_num [minCv]))
    rw [pyDiv_of_ne _ _ hstd]
    exact ⟨_, rfl, M.tanh.range _⟩

theorem computeMeanReversionSignal_error (M : FloatMath) (hmean : meanClose M cs = 0)
    (lastPrice : Amount) :
    computeMeanReversionSignal M cs lastPrice = .error .zeroDivisionError := by
  unfold computeMeanReversionSignal
  rw [pyDiv, if_pos hmean]
  rfl

end FuturesBot.MarketData
