import FuturesBot.Risk.Checks
import FuturesBot.Signals.Volatility

namespace FuturesBot.MarketData
open Lib

/-- How much of the leverage that the volatility allows a regime leaves. -/
def regimeMultiplier : PrimaryRegime → Amount
  | .trending => 1
  | .ranging => 8 / 10
  | .highVolatility => 7 / 10
  | .lowVolatility => 1
  | .breakout => 7 / 10
  | .unclear => 5 / 10

structure LeverageDetails where
  regimeMultiplier : Amount
  regimeAdjustedPreFloor : Amount
  assessmentId : String
  volatilityScore : Amount
  volatilityRegime : VolatilityRegime

structure DynamicLeverageFields where
  suggestedLeverage : ℤ
  volCap : ℤ
  regimeAdjusted : ℤ
  envCap : ℤ
  regime : PrimaryRegime
  environment : Environment
  details : LeverageDetails

def DynamicLeverageFields.Valid (f : DynamicLeverageFields) : Prop :=
  1 ≤ f.suggestedLeverage ∧ 1 ≤ f.volCap ∧ 1 ≤ f.regimeAdjusted ∧ 1 ≤ f.envCap

instance DynamicLeverageFields.decidableValid (f : DynamicLeverageFields) : Decidable f.Valid :=
  inferInstanceAs (Decidable (_ ∧ _))

structure DynamicLeverageResult extends DynamicLeverageFields where
  valid : toDynamicLeverageFields.Valid

def DynamicLeverageResult.build (f : DynamicLeverageFields) :
    Except PyError DynamicLeverageResult :=
  if h : f.Valid then .ok ⟨f, h⟩ else .error (.validationError "DynamicLeverageResult")

def regimeAdjusted (volCap : ℤ) (regime : PrimaryRegime) : ℤ :=
  max 1 ⌊(volCap : Amount) * regimeMultiplier regime⌋

def computeDynamicLeverage (v : VolatilityAssessmentPackage) (regime : PrimaryRegime)
    (environment : Environment) (config : LeverageConfig) : Except PyError DynamicLeverageResult :=
  let adjusted := regimeAdjusted v.leverageCap regime
  let envCap := config.capForEnv environment
  DynamicLeverageResult.build
    { suggestedLeverage := min adjusted envCap
      volCap := v.leverageCap
      regimeAdjusted := adjusted
      envCap := envCap
      regime := regime
      environment := environment
      details :=
        { regimeMultiplier := regimeMultiplier regime
          regimeAdjustedPreFloor := v.leverageCap * regimeMultiplier regime
          assessmentId := v.assessmentId
          volatilityScore := v.volatilityScore
          volatilityRegime := v.volatilityRegime } }

theorem regimeMultiplier_range (r : PrimaryRegime) :
    0 < regimeMultiplier r ∧ regimeMultiplier r ≤ 1 := by
  cases r <;> norm_num [regimeMultiplier]

theorem regimeAdjusted_le (hcap : 1 ≤ volCap) (r : PrimaryRegime) :
    regimeAdjusted volCap r ≤ volCap := by
  refine max_le hcap (Int.floor_le_iff.mpr ?_)
  have hcap' : (1 : Amount) ≤ volCap := by exact_mod_cast hcap
  have hmul := mul_le_mul_of_nonneg_left (regimeMultiplier_range r).2
    (zero_le_one.trans hcap')
  linarith

theorem regimeAdjusted_mono {x y : ℤ} (h : x ≤ y) (r : PrimaryRegime) :
    regimeAdjusted x r ≤ regimeAdjusted y r := by
  have hxy : (x : Amount) ≤ y := by exact_mod_cast h
  exact max_le_max le_rfl
    (Int.floor_le_floor (mul_le_mul_of_nonneg_right hxy (regimeMultiplier_range r).1.le))

theorem computeDynamicLeverage_ok_iff (v : VolatilityAssessmentPackage) (regime : PrimaryRegime)
    (environment : Environment) (config : LeverageConfig) :
    (∃ r, computeDynamicLeverage v regime environment config = .ok r) ↔
      1 ≤ config.capForEnv environment := by
  unfold computeDynamicLeverage DynamicLeverageResult.build
  dsimp only
  constructor
  · intro hex
    obtain ⟨r, hr⟩ := hex
    split at hr
    · rename_i hvalid
      exact hvalid.2.2.2
    · cases hr
  · intro hcap
    rw [dif_pos ⟨le_min (le_max_left _ _) hcap, v.valid.leverageCap, le_max_left _ _, hcap⟩]
    exact ⟨_, rfl⟩

theorem computeDynamicLeverage_eq (h : computeDynamicLeverage v regime environment config = .ok r) :
    r.suggestedLeverage =
      min (regimeAdjusted v.leverageCap regime) (config.capForEnv environment) := by
  unfold computeDynamicLeverage DynamicLeverageResult.build at h
  dsimp only at h
  split at h
  · cases h
    rfl
  · cases h

/-- What is suggested for a snapshot is within what its volatility allows, is never lowered by the
risk engine and never grows as the market gets wilder. -/
theorem computeDynamicLeverage_sound {M : FloatMath} {s s' : MarketSnapshot Amount}
    (hv : computeVolatilityAssessment M assessmentId s = .ok v)
    (hv' : computeVolatilityAssessment M assessmentId' s' = .ok v')
    (config : AppConfig) (regime : PrimaryRegime) (environment : Environment)
    (hcap : 1 ≤ config.leverage.capForEnv environment) :
    ∃ r r', computeDynamicLeverage v regime environment config.leverage = .ok r ∧
      computeDynamicLeverage v' regime environment config.leverage = .ok r' ∧
      (1 ≤ r.suggestedLeverage ∧ r.suggestedLeverage ≤ v.leverageCap) ∧
      (checkLeverageCap r.suggestedLeverage config environment).outcome = .pass ∧
      (v.volatilityScore ≤ v'.volatilityScore → r'.suggestedLeverage ≤ r.suggestedLeverage) := by
  obtain ⟨r, hr⟩ := (computeDynamicLeverage_ok_iff v regime environment config.leverage).mpr hcap
  obtain ⟨r', hr'⟩ :=
    (computeDynamicLeverage_ok_iff v' regime environment config.leverage).mpr hcap
  have heq := computeDynamicLeverage_eq hr
  refine ⟨r, r', hr, hr', ⟨r.valid.1, ?_⟩, ?_, fun hscore => ?_⟩
  · rw [heq]
    exact (min_le_left _ _).trans (regimeAdjusted_le v.valid.leverageCap regime)
  · rw [checkLeverageCap, if_neg (not_lt.mpr (heq.trans_le (min_le_right _ _)))]
  · have hcaps : v'.leverageCap ≤ v.leverageCap := by
      have hfields := computeVolatilityAssessment_eq hv
      have hfields' := computeVolatilityAssessment_eq hv'
      have hc : v.leverageCap = leverageCapForScore v.volatilityScore := by
        rw [hfields]
        rfl
      have hc' : v'.leverageCap = leverageCapForScore v'.volatilityScore := by
        rw [hfields']
        rfl
      rw [hc, hc']
      exact leverageCapForScore_anti hscore
    rw [heq, computeDynamicLeverage_eq hr']
    exact min_le_min_right _ (regimeAdjusted_mono hcaps regime)

theorem surge_leverage : ∃ v r,
    computeVolatilityAssessment surgeMath surgeId surgeSnapshot = .ok v ∧
    computeDynamicLeverage v .trending .paper defaultConfig.leverage = .ok r ∧
    r.suggestedLeverage ≤ v.leverageCap := by
  obtain ⟨v, hv⟩ := (computeVolatilityAssessment_ok_iff surgeMath surgeId surgeSnapshot).mpr
    (by decide +kernel)
  obtain ⟨r, -, hr, -, hrange, -, -⟩ :=
    computeDynamicLeverage_sound hv hv defaultConfig .trending .paper (by decide)
  exact ⟨v, r, hv, hr, hrange.2⟩

end FuturesBot.MarketData
