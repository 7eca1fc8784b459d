import FuturesBot.Signals.Package

namespace FuturesBot.MarketData
open Lib

def volatilityVersion : String := "1.0"

inductive VolatilityRegime
  | expansion | contraction
  deriving DecidableEq, Repr

def realizedVolThreshold : Amount := 1 / 100

def expansionThreshold : Amount := 5 / 10

/-- The highest score of each band, and the leverage that it still allows. -/
def leverageBands : List (Amount × ℤ) := [(25 / 100, 10), (50 / 100, 7), (75 / 100, 5), (1, 3)]

def atrPercentCap : Amount := 1

def atrFromCandle (M : FloatMath) (c : CandleFields ℚ) : Amount := M.decimal c.range

def absRoc (M : FloatMath) (c : CandleFields ℚ) : Amount :=
  if c.openPrice = 0 then 0
  else M.float (M.decimal (|M.decimal (c.close - c.openPrice)| / c.openPrice))

def rangeVol (M : FloatMath) (c : CandleFields ℚ) : Amount :=
  if c.openPrice = 0 then 0 else M.float (M.decimal (M.decimal c.range / c.openPrice))

/-- The body of a candle is part of its range, so the wicks are what the two measures differ by. -/
theorem absRoc_le_rangeVol (M : FloatMath) {c : CandleFields ℚ} (h : c.Valid)
    (hopen : 0 ≤ c.openPrice) : absRoc M c ≤ rangeVol M c := by
  unfold absRoc rangeVol
  split
  · exact le_rfl
  · rw [Rounding.abs_apply]
    exact M.float.mono (M.decimal.mono
      (div_le_div_of_nonneg_right (M.decimal.mono h.body_le_range) hopen))

def leverageCapForScore (score : Amount) : ℤ :=
  ((leverageBands.find? fun band => decide (score ≤ band.1)).map Prod.snd).getD
    (leverageBands.getLast (by decide)).2

structure VolatilityAssessmentFields extends AnalysisKey where
  assessmentId : String
  atr : Timeframe → Amount
  atrPercent : Amount
  realizedVol : Amount
  volatilityRegime : VolatilityRegime
  volatilityScore : Amount
  liquidationRiskScore : Amount
  leverageCap : ℤ
  rangeVols : Timeframe → Amount

structure VolatilityAssessmentFields.Valid (f : VolatilityAssessmentFields) : Prop where
  key : f.toAnalysisKey.Valid
  assessmentId : isUuid f.assessmentId
  atr : ∀ tf ∈ allTimeframes, 0 ≤ f.atr tf
  atrPercent : 0 ≤ f.atrPercent
  realizedVol : 0 ≤ f.realizedVol
  volatilityScore : 0 ≤ f.volatilityScore ∧ f.volatilityScore ≤ 1
  liquidationRiskScore : 0 ≤ f.liquidationRiskScore ∧ f.liquidationRiskScore ≤ 1
  leverageCap : 1 ≤ f.leverageCap

instance VolatilityAssessmentFields.decidableValid (f : VolatilityAssessmentFields) :
    Decidable f.Valid :=
  decidable_of_iff (f.toAnalysisKey.Valid ∧ isUuid f.assessmentId ∧
      (∀ tf ∈ allTimeframes, 0 ≤ f.atr tf) ∧ 0 ≤ f.atrPercent ∧ 0 ≤ f.realizedVol ∧
      (0 ≤ f.volatilityScore ∧ f.volatilityScore ≤ 1) ∧
      (0 ≤ f.liquidationRiskScore ∧ f.liquidationRiskScore ≤ 1) ∧ 1 ≤ f.leverageCap)
    ⟨fun ⟨hk, hi, ha, hp, hr, hv, hl, hc⟩ => ⟨hk, hi, ha, hp, hr, hv, hl, hc⟩,
      fun ⟨hk, hi, ha, hp, hr, hv, hl, hc⟩ => ⟨hk, hi, ha, hp, hr, hv, hl, hc⟩⟩

structure VolatilityAssessmentPackage extends VolatilityAssessmentFields where
  valid : toVolatilityAssessmentFields.Valid

def VolatilityAssessmentPackage.build (f : VolatilityAssessmentFields) :
    Except PyError VolatilityAssessmentPackage :=
  if h : f.Valid then .ok ⟨f, h⟩ else .error (.validationError "VolatilityAssessmentPackage")

def realizedVol (M : FloatMath) (cs : Candles) : Amount :=
  M.float.div (M.float.sum (allTimeframes.map fun tf => rangeVol M (cs.at tf)))
    allTimeframes.length

def volatilityScore (M : FloatMath) (cs : Candles) : Amount :=
  max 0 (min 1 (M.tanh (M.float.div (realizedVol M cs) realizedVolThreshold)))

/-- The fields of an assessment, once the last hour has been compared with the price. -/
def assessmentFields (M : FloatMath) (assessmentId : Uuid) (s : MarketSnapshot Amount)
    (atrPercent : Amount) : VolatilityAssessmentFields :=
  let score := volatilityScore M s.candles
  let atrPercentNorm := min 1 (M.float.div atrPercent atrPercentCap)
  { toAnalysisKey := s.key
    assessmentId := assessmentId.text
    atr := fun tf => atrFromCandle M (s.candles.at tf)
    atrPercent := atrPercent
    realizedVol := realizedVol M s.candles
    volatilityRegime := if expansionThreshold ≤ score then .expansion else .contraction
    volatilityScore := score
    liquidationRiskScore :=
      max 0 (min 1 (M.float.div (M.float.add score atrPercentNorm) 2))
    leverageCap := leverageCapForScore score
    rangeVols := fun tf => rangeVol M (s.candles.at tf) }

def computeVolatilityAssessment (M : FloatMath) (assessmentId : Uuid)
    (s : MarketSnapshot Amount) : Except PyError VolatilityAssessmentPackage := do
  let share ← pyDiv M.decimal (atrFromCandle M (s.candles.at .tf1h)) s.lastPrice.value
  VolatilityAssessmentPackage.build (assessmentFields M assessmentId s (M.float.mul share 100))

theorem leverageCapForScore_eq (score : Amount) :
    leverageCapForScore score =
      if score ≤ 25 / 100 then 10 else if score ≤ 50 / 100 then 7 else if score ≤ 75 / 100 then 5
      else 3 := by
  unfold leverageCapForScore leverageBands
  simp only [List.find?_cons, List.find?_nil]
  by_cases h1 : score ≤ 25 / 100
  · simp [h1]
  · by_cases h2 : score ≤ 50 / 100
    · simp [h1, h2]
    · by_cases h3 : score ≤ 75 / 100
      · simp [h1, h2, h3]
      · by_cases h4 : score ≤ 1 <;> simp [h1, h2, h3, h4]

theorem leverageCapForScore_range (score : Amount) :
    3 ≤ leverageCapForScore score ∧ leverageCapForScore score ≤ 10 := by
  rw [leverageCapForScore_eq]
  split_ifs <;> norm_num

/-- A higher score never allows more leverage. -/
theorem leverageCapForScore_anti {x y : Amount} (h : x ≤ y) :
    leverageCapForScore y ≤ leverageCapForScore x := by
  rw [leverageCapForScore_eq, leverageCapForScore_eq]
  split_ifs <;> first | omega | (exfalso; linarith)

theorem volatilityScore_range (M : FloatMath) (cs : Candles) :
    0 ≤ volatilityScore M cs ∧ volatilityScore M cs ≤ 1 :=
  ⟨le_max_left _ _, max_le zero_le_one (min_le_left _ _)⟩

/-- The range of the last hour as a percentage of the price. -/
def atrPercentOf (M : FloatMath) (s : MarketSnapshot Amount) : Amount :=
  M.float.mul (M.decimal (atrFromCandle M (s.candles.at .tf1h) / s.lastPrice.value)) 100

theorem computeVolatilityAssessment_eq_build (M : FloatMath) (assessmentId : Uuid)
    (s : MarketSnapshot Amount) :
    computeVolatilityAssessment M assessmentId s = VolatilityAssessmentPackage.build
      (assessmentFields M assessmentId s (atrPercentOf M s)) := by
  unfold computeVolatilityAssessment
  rw [pyDiv_of_ne _ _ s.lastPrice_pos.ne']
  rfl

theorem VolatilityAssessmentPackage.build_ok (h : VolatilityAssessmentPackage.build f = .ok p) :
    p.toVolatilityAssessmentFields = f := by
  unfold VolatilityAssessmentPackage.build at h
  split at h <;> cases h
  rfl

/-- What is refused is an identifier that is no UUID, a time that is not in UTC, and opens below
zero that outweigh the others. -/
theorem computeVolatilityAssessment_ok_iff (M : FloatMath) (assessmentId : Uuid)
    (s : MarketSnapshot Amount) :
    (∃ p, computeVolatilityAssessment M assessmentId s = .ok p) ↔
      s.Identified ∧ 0 ≤ realizedVol M s.candles := by
  rw [computeVolatilityAssessment_eq_build]
  constructor
  · intro hex
    obtain ⟨p, hp⟩ := hex
    have hvalid := p.valid
    rw [VolatilityAssessmentPackage.build_ok hp] at hvalid
    exact ⟨s.key_valid_iff.mp hvalid.key, hvalid.realizedVol⟩
  · rintro ⟨hid, hvol⟩
    have hatr : ∀ tf, 0 ≤ atrFromCandle M (s.candles.at tf) := fun tf =>
      M.decimal.nonneg (s.candles.at_valid tf).range_nonneg
    refine ⟨_, dif_pos ⟨s.key_valid_iff.mpr hid, assessmentId.valid, fun tf _ => hatr tf, ?_, hvol,
      volatilityScore_range M _, ⟨le_max_left _ _, max_le zero_le_one (min_le_left _ _)⟩, ?_⟩⟩
    · exact M.float.zero_le_mul (M.decimal.nonneg (div_nonneg (hatr .tf1h) s.lastPrice_pos.le))
        (by norm_num)
    · exact le_trans (by norm_num) (leverageCapForScore_range _).1

theorem computeVolatilityAssessment_eq {M : FloatMath}
    (h : computeVolatilityAssessment M assessmentId s = .ok p) :
    p.toVolatilityAssessmentFields = assessmentFields M assessmentId s (atrPercentOf M s) := by
  rw [computeVolatilityAssessment_eq_build] at h
  exact VolatilityAssessmentPackage.build_ok h

end FuturesBot.MarketData
