import FuturesBot.Signals.Package

namespace FuturesBot.MarketData
open Lib

def regimeVersion : String := "1.0"

inductive VolatilityState
  | high | normal | low
  deriving DecidableEq, Repr

inductive LiquidityState
  | high | normal | low
  deriving DecidableEq, Repr

inductive FundingState
  | positive | neutral | negative | extreme
  deriving DecidableEq, Repr

inductive OpenInterestState
  | rising | stable | falling | unknown
  deriving DecidableEq, Repr

inductive TrendAlignment
  | bullish | bearish | mixed | neutral
  deriving DecidableEq, Repr

def highVolRangePct : Amount := 4

def lowVolRangePct : Amount := 3 / 10

def highSpreadPct : Amount := 15 / 10

def lowSpreadPct : Amount := 5 / 100

def bodyRatioWeak : Amount := 35 / 100

def closePosBullish : Amount := 70 / 100

def closePosBearish : Amount := 30 / 100

def breakoutBodyRatio : Amount := 75 / 100

def breakoutRangePct : Amount := 15 / 10

def trendBody1h : Amount := 50 / 100

def trendBody4h : Amount := 40 / 100

def fundingExtreme : Amount := 2 / 1000

def fundingPositive : Amount := 1 / 10000

def fundingNegative : Amount := -1 / 10000

structure CandleMetrics where
  bodyRatio : Amount
  closePosition : Amount

/-- The body of a candle and the place of its close, both as parts of the range. -/
def candleMetrics (M : FloatMath) (c : CandleFields ℚ) : CandleMetrics :=
  let candleRange := M.float (M.decimal c.range)
  let body := |M.float (M.decimal (c.close - c.openPrice))|
  if candleRange = 0 then ⟨0, 1 / 2⟩
  else ⟨M.float (body / candleRange), M.float (M.float (M.decimal (c.close - c.low)) / candleRange)⟩

def rangePct (M : FloatMath) (c : CandleFields ℚ) : Amount :=
  let close := M.float c.close
  if close = 0 then 0 else M.float (M.float (M.float (M.decimal c.range) / close) * 100)

def isBullishClose (M : FloatMath) (closePosition : Amount) : Bool :=
  decide (M.float closePosBullish ≤ closePosition)

def isBearishClose (M : FloatMath) (closePosition : Amount) : Bool :=
  decide (closePosition ≤ M.float closePosBearish)

def assessVolatilityState (M : FloatMath) (cs : Candles) : VolatilityState :=
  let range1h := rangePct M (cs.at .tf1h)
  if M.float highVolRangePct ≤ range1h then .high
  else if range1h ≤ M.float lowVolRangePct then .low
  else .normal

def assessLiquidityState (M : FloatMath) (spreadPercent : Amount) : LiquidityState :=
  if M.float highSpreadPct ≤ M.float spreadPercent then .low
  else if M.float spreadPercent ≤ M.float lowSpreadPct then .high
  else .normal

def assessFundingState (M : FloatMath) (fundingRate : Option Amount) : FundingState :=
  match fundingRate with
  | none => .neutral
  | some rate =>
    if M.float fundingExtreme ≤ |M.float rate| then .extreme
    else if M.float fundingPositive ≤ M.float rate then .positive
    else if M.float rate ≤ M.float fundingNegative then .negative
    else .neutral

/-- One snapshot does not tell whether the open interest rises or falls. -/
def assessOpenInterestState (openInterest : Option Amount) : OpenInterestState :=
  if openInterest.isNone then .unknown else .stable

def assessTrendAlignment (M : FloatMath) (cs : Candles) : TrendAlignment :=
  let closes := allTimeframes.map fun tf => (candleMetrics M (cs.at tf)).closePosition
  let bullish := closes.countP (isBullishClose M)
  let bearish := closes.countP fun p => !isBullishClose M p && isBearishClose M p
  if 3 ≤ bullish then .bullish
  else if 3 ≤ bearish then .bearish
  else if 0 < bullish ∧ 0 < bearish then .mixed
  else .neutral

def TrendAlignment.aligned (t : TrendAlignment) : Bool := t = .bullish || t = .bearish

def classifySecondaryRegime (primary : PrimaryRegime) (volatility : VolatilityState)
    (trend : TrendAlignment) : Option PrimaryRegime :=
  if primary = .breakout then some .trending
  else if (primary = .trending ∨ primary = .ranging) ∧ volatility = .high then some .highVolatility
  else if (primary = .trending ∨ primary = .ranging) ∧ volatility = .low then some .lowVolatility
  else if primary = .unclear ∧ trend.aligned then some .trending
  else none

/-- The numbers that a note shows beside its fixed text. -/
inductive RegimeNote
  | highVolatility (range1hPct : Amount)
  | lowVolatility (range1hPct : Amount)
  | breakout (bodyRatio1h closePos1h range1hPct : Amount)
  | trending (bodyRatio1h bodyRatio4h : Amount) (alignment : TrendAlignment)
  | ranging (bodyRatio1h closePos1h : Amount)
  | unclear (bodyRatio1h closePos1h : Amount) (alignment : TrendAlignment)

structure RegimeClass where
  regime : PrimaryRegime
  confidence : Amount
  notes : List RegimeNote

/-- A confidence is rounded to three places after it has been kept from going over one. The
`float` that comes of it is taken for the decimal that it shows. -/
def confidenceOf (x : Amount) : Amount := quantizeWith roundHalfEven 3 (min 1 x)

/-- The first rule that applies decides. -/
def classifyPrimaryRegime (M : FloatMath) (cs : Candles) (volatility : VolatilityState)
    (trend : TrendAlignment) : RegimeClass :=
  let m1h := candleMetrics M (cs.at .tf1h)
  let m4h := candleMetrics M (cs.at .tf4h)
  let range1h := rangePct M (cs.at .tf1h)
  if volatility = .high then
    ⟨.highVolatility,
      confidenceOf (M.float.add (6 / 10)
        (M.float.div (M.float.sub range1h highVolRangePct) highVolRangePct)),
      [.highVolatility range1h]⟩
  else if volatility = .low then
    ⟨.lowVolatility,
      confidenceOf (M.float.add (6 / 10)
        (M.float.div (M.float.sub lowVolRangePct range1h) lowVolRangePct)),
      [.lowVolatility range1h]⟩
  else if M.float breakoutBodyRatio ≤ m1h.bodyRatio ∧
      (isBullishClose M m1h.closePosition || isBearishClose M m1h.closePosition) ∧
      M.float breakoutRangePct ≤ range1h then
    ⟨.breakout, confidenceOf (M.float.add (M.float.mul m1h.bodyRatio (1 / 2)) (1 / 2)),
      [.breakout m1h.bodyRatio m1h.closePosition range1h]⟩
  else if M.float trendBody1h ≤ m1h.bodyRatio ∧ M.float trendBody4h ≤ m4h.bodyRatio ∧
      trend.aligned then
    ⟨.trending,
      confidenceOf (M.float.add
        (M.float.mul (M.float.div (M.float.add m1h.bodyRatio m4h.bodyRatio) 2) (8 / 10))
        (2 / 10)),
      [.trending m1h.bodyRatio m4h.bodyRatio trend]⟩
  else if m1h.bodyRatio ≤ M.float bodyRatioWeak ∧
      M.float closePosBearish < m1h.closePosition ∧
      m1h.closePosition < M.float closePosBullish then
    ⟨.ranging,
      confidenceOf (M.float.add (1 / 2)
        (M.float.mul (M.float.div (M.float.sub bodyRatioWeak m1h.bodyRatio) bodyRatioWeak)
          (1 / 2))),
      [.ranging m1h.bodyRatio m1h.closePosition]⟩
  else
    ⟨.unclear, 3 / 10, [.unclear m1h.bodyRatio m1h.closePosition trend]⟩

structure MarketRegimeFields extends AnalysisKey where
  regimeId : String
  primaryRegime : PrimaryRegime
  secondaryRegime : Option PrimaryRegime
  regimeConfidence : Amount
  volatilityState : VolatilityState
  liquidityState : LiquidityState
  fundingState : FundingState
  openInterestState : OpenInterestState
  trendAlignment : TrendAlignment
  notes : List RegimeNote

def MarketRegimeFields.Valid (f : MarketRegimeFields) : Prop :=
  (f.toAnalysisKey.Valid ∧ isUuid f.regimeId) ∧ 0 ≤ f.regimeConfidence ∧ f.regimeConfidence ≤ 1

instance MarketRegimeFields.decidableValid (f : MarketRegimeFields) : Decidable f.Valid :=
  inferInstanceAs (Decidable (_ ∧ _))

structure MarketRegimeAssessment extends MarketRegimeFields where
  valid : toMarketRegimeFields.Valid

def MarketRegimeAssessment.build (f : MarketRegimeFields) : Except PyError MarketRegimeAssessment :=
  if h : f.Valid then .ok ⟨f, h⟩ else .error (.validationError "MarketRegimeAssessment")

namespace MarketRegimeEngine

def assess (M : FloatMath) (regimeId : Uuid) (s : MarketSnapshot Amount) :
    Except PyError MarketRegimeAssessment :=
  let volatility := assessVolatilityState M s.candles
  let trend := assessTrendAlignment M s.candles
  let primary := classifyPrimaryRegime M s.candles volatility trend
  MarketRegimeAssessment.build
    { toAnalysisKey := s.key
      regimeId := regimeId.text
      primaryRegime := primary.regime
      secondaryRegime := classifySecondaryRegime primary.regime volatility trend
      regimeConfidence := primary.confidence
      volatilityState := volatility
      liquidityState := assessLiquidityState M s.spreadPercent.value
      fundingState := assessFundingState M s.fundingRate
      openInterestState := assessOpenInterestState (s.openInterest.map Decimal.value)
      trendAlignment := trend
      notes := primary.notes }

end MarketRegimeEngine

theorem CandleFields.Valid.metrics_range {c : CandleFields ℚ} (M : FloatMath) (h : c.Valid) :
    0 ≤ (candleMetrics M c).bodyRatio ∧ (candleMetrics M c).bodyRatio ≤ 1 := by
  have hrange := M.float.nonneg (M.decimal.nonneg h.range_nonneg)
  unfold candleMetrics
  dsimp only
  split
  · norm_num
  · have hbody : |M.float (M.decimal (c.close - c.openPrice))| ≤ M.float (M.decimal c.range) := by
      rw [Rounding.abs_apply, Rounding.abs_apply]
      exact M.float.mono (M.decimal.mono h.body_le_range)
    exact ⟨M.float.nonneg (div_nonneg (abs_nonneg _) hrange),
      M.float.le_one (div_le_one_of_le₀ hbody hrange)⟩

theorem confidenceOf_mono : Monotone confidenceOf := fun _ _ h =>
  quantizeWith_mono (fun _ _ hle => roundHalfEven_mono hle) (min_le_min le_rfl h)

theorem confidenceOf_le_one (x : Amount) : confidenceOf x ≤ 1 :=
  quantizeWith_le (fun _ _ => roundHalfEven_le) ⟨1000, by norm_num⟩ (min_le_left _ _)

/-- What the confidence in a regime is never below. -/
def confidenceFloor : PrimaryRegime → Amount
  | .highVolatility | .lowVolatility => 600 / 1000
  | .breakout => 875 / 1000
  | .trending => 560 / 1000
  | .ranging => 500 / 1000
  | .unclear => 300 / 1000

/-- What a rule calculates where it only just applies. -/
def leastConfidence (r : Rounding) : PrimaryRegime → Amount
  | .highVolatility | .lowVolatility => r.add (6 / 10) 0
  | .breakout => r.add (r.mul (r breakoutBodyRatio) (1 / 2)) (1 / 2)
  | .trending =>
    r.add (r.mul (r.div (r.add (r trendBody1h) (r trendBody4h)) 2) (8 / 10)) (2 / 10)
  | .ranging => r.add (1 / 2) 0
  | .unclear => 3 / 10

/-- The rounding of the confidence takes back what the calculation has rounded off. -/
theorem confidenceOf_least (A : Arithmetic) (regime : PrimaryRegime) :
    confidenceOf (leastConfidence A.float regime) = confidenceFloor regime := by
  cases A <;> cases regime <;> decide +kernel

section
variable {M : FloatMath} {cs : Candles}

theorem highVolRangePct_le (h : assessVolatilityState M cs = .high) :
    M.float highVolRangePct ≤ rangePct M (cs.at .tf1h) := by
  unfold assessVolatilityState at h
  dsimp only at h
  split at h
  · assumption
  · split at h <;> cases h

theorem rangePct_le (h : assessVolatilityState M cs = .low) :
    rangePct M (cs.at .tf1h) ≤ M.float lowVolRangePct := by
  unfold assessVolatilityState at h
  dsimp only at h
  split at h
  · cases h
  · split at h
    · assumption
    · cases h

/-- How far a measure is past its threshold, as a part of this. -/
theorem excess_nonneg (r : Rounding) {x y threshold : Amount} (h : r y ≤ r x)
    (hthreshold : 0 ≤ threshold) : 0 ≤ r.div (r.sub x y) threshold :=
  r.zero_le_div (r.zero_le_sub h) hthreshold

end

/-- Each rule gives a confidence that is as high as the rule asks at least. -/
theorem classifyPrimaryRegime_confidence (M : FloatMath) (cs : Candles) (trend : TrendAlignment) :
    let r := classifyPrimaryRegime M cs (assessVolatilityState M cs) trend
    confidenceFloor r.regime ≤ r.confidence ∧ r.confidence ≤ 1 := by
  have hbetween : ∀ regime x, leastConfidence M.float regime ≤ x →
      confidenceFloor regime ≤ confidenceOf x ∧ confidenceOf x ≤ 1 := fun regime x h =>
    ⟨(confidenceOf_least M.arithmetic regime).symm.trans_le (confidenceOf_mono h),
      confidenceOf_le_one x⟩
  unfold classifyPrimaryRegime
  dsimp only
  split
  · rename_i hvol
    refine hbetween .highVolatility _ (M.float.add_mono le_rfl (excess_nonneg M.float ?_ ?_))
    · exact M.float.apply_le_apply (highVolRangePct_le hvol)
    · norm_num [highVolRangePct]
  · split
    · rename_i hvol
      refine hbetween .lowVolatility _ (M.float.add_mono le_rfl (excess_nonneg M.float ?_ ?_))
      · exact M.float.apply_le_of_le (rangePct_le hvol)
      · norm_num [lowVolRangePct]
    · split
      · rename_i hbreak
        refine hbetween .breakout _ (M.float.add_mono ?_ le_rfl)
        exact M.float.mul_mono_left (by norm_num) hbreak.1
      · split
        · rename_i htrend
          obtain ⟨h1h, h4h, -⟩ := htrend
          refine hbetween .trending _ (M.float.add_mono ?_ le_rfl)
          refine M.float.mul_mono_left (by norm_num) (M.float.div_mono_left (by norm_num) ?_)
          exact M.float.add_mono h1h h4h
        · split
          · rename_i hrange
            refine hbetween .ranging _ (M.float.add_mono le_rfl (M.float.zero_le_mul ?_ ?_))
            · exact excess_nonneg M.float (M.float.apply_le_of_le hrange.1)
                (by norm_num [bodyRatioWeak])
            · norm_num
          · norm_num [confidenceFloor]

/-- The regimes of volatility are just the states of volatility that are not normal. -/
theorem classifyPrimaryRegime_volatility (M : FloatMath) (cs : Candles)
    (volatility : VolatilityState) (trend : TrendAlignment) :
    ((classifyPrimaryRegime M cs volatility trend).regime = .highVolatility ↔ volatility = .high) ∧
      ((classifyPrimaryRegime M cs volatility trend).regime = .lowVolatility ↔
        volatility = .low) := by
  unfold classifyPrimaryRegime
  dsimp only
  cases volatility with
  | high => simp
  | low => simp
  | normal =>
    simp only [reduceCtorEq, if_false]
    split
    · simp
    · split
      · simp
      · split <;> simp

/-- Volatility is never the second regime: where it is not normal, it is the first. -/
theorem classifySecondaryRegime_primary (M : FloatMath) (cs : Candles)
    (volatility : VolatilityState) (trend : TrendAlignment) :
    classifySecondaryRegime (classifyPrimaryRegime M cs volatility trend).regime volatility trend =
      if (classifyPrimaryRegime M cs volatility trend).regime = .breakout ∨
          ((classifyPrimaryRegime M cs volatility trend).regime = .unclear ∧ trend.aligned) then
        some .trending
      else none := by
  obtain ⟨hhigh, hlow⟩ := classifyPrimaryRegime_volatility M cs volatility trend
  generalize (classifyPrimaryRegime M cs volatility trend).regime = r at hhigh hlow
  cases r <;> cases volatility <;> cases trend <;> first | rfl | simp at hhigh hlow

namespace MarketRegimeEngine

/-- Only the identifier and the timezone of a snapshot can keep it from being assessed. -/
theorem assess_ok_iff (M : FloatMath) (regimeId : Uuid) (s : MarketSnapshot Amount) :
    (∃ r, assess M regimeId s = .ok r) ↔ s.Identified := by
  unfold assess MarketRegimeAssessment.build
  dsimp only
  constructor
  · intro hex
    obtain ⟨r, hr⟩ := hex
    split at hr
    · rename_i hvalid
      exact s.key_valid_iff.mp hvalid.1.1
    · cases hr
  · intro hid
    have hconf := classifyPrimaryRegime_confidence M s.candles (assessTrendAlignment M s.candles)
    have hfloor : ∀ r, 0 ≤ confidenceFloor r := by
      intro r
      cases r <;> norm_num [confidenceFloor]
    rw [dif_pos ⟨⟨s.key_valid_iff.mpr hid, regimeId.valid⟩, (hfloor _).trans hconf.1, hconf.2⟩]
    exact ⟨_, rfl⟩

theorem assess_eq {M : FloatMath} (h : assess M regimeId s = .ok r) :
    (r.toAnalysisKey = s.key ∧ r.regimeId = regimeId.text) ∧
      r.volatilityState = assessVolatilityState M s.candles ∧
      r.trendAlignment = assessTrendAlignment M s.candles ∧
      r.primaryRegime = (classifyPrimaryRegime M s.candles (assessVolatilityState M s.candles)
        (assessTrendAlignment M s.candles)).regime ∧
      r.regimeConfidence = (classifyPrimaryRegime M s.candles (assessVolatilityState M s.candles)
        (assessTrendAlignment M s.candles)).confidence ∧
      r.secondaryRegime = classifySecondaryRegime r.primaryRegime r.volatilityState
        r.trendAlignment := by
  unfold assess MarketRegimeAssessment.build at h
  dsimp only at h
  split at h
  · cases h
    exact ⟨⟨rfl, rfl⟩, rfl, rfl, rfl, rfl, rfl⟩
  · cases h

/-- What every assessment says. Each regime has its least confidence. The volatility regimes are
the states of volatility that are not normal, and never come second: the second regime can only be
a trend, behind a breakout or where the closes are aligned and nothing else is clear. -/
theorem assess_laws {M : FloatMath} (h : assess M regimeId s = .ok r) :
    (confidenceFloor r.primaryRegime ≤ r.regimeConfidence ∧ r.regimeConfidence ≤ 1) ∧
    (r.primaryRegime = .highVolatility ↔ r.volatilityState = .high) ∧
    (r.primaryRegime = .lowVolatility ↔ r.volatilityState = .low) ∧
    r.secondaryRegime = (if r.primaryRegime = .breakout ∨
      (r.primaryRegime = .unclear ∧ r.trendAlignment.aligned) then some .trending else none) := by
  obtain ⟨-, hvol, htrend, hprimary, hconf, hsecond⟩ := assess_eq h
  have hclass := classifyPrimaryRegime_volatility M s.candles (assessVolatilityState M s.candles)
    (assessTrendAlignment M s.candles)
  have hbounds := classifyPrimaryRegime_confidence M s.candles (assessTrendAlignment M s.candles)
  rw [hsecond, hconf, hprimary, hvol, htrend]
  exact ⟨hbounds, hclass.1, hclass.2, classifySecondaryRegime_primary _ _ _ _⟩

/-- The surge is too wild for anything but high volatility. -/
theorem surge_laws : ∃ r, assess surgeMath surgeId surgeSnapshot = .ok r ∧
    r.primaryRegime = .highVolatility ∧ r.secondaryRegime = none := by
  obtain ⟨r, hr⟩ := (assess_ok_iff surgeMath surgeId surgeSnapshot).mpr surgeSnapshot_identified
  obtain ⟨-, hhigh, -, hsecond⟩ := assess_laws hr
  have hstate : r.volatilityState = .high := by
    rw [(assess_eq hr).2.1]
    decide +kernel
  have hprimary := hhigh.mpr hstate
  refine ⟨r, hr, hprimary, ?_⟩
  rw [hsecond, hprimary]
  rfl

end MarketRegimeEngine

end FuturesBot.MarketData
