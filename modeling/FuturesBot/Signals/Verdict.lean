import FuturesBot.Decision.AggregationLaws
import FuturesBot.Risk.Soundness
import FuturesBot.Signals.AnalysisService

namespace FuturesBot.MarketData
open Lib

/-- The packages of a snapshot as the aggregator reads them. -/
structure Analysis where
  quant : QuantSignalsPackage
  regime : MarketRegimeAssessment
  volatility : VolatilityAssessmentPackage

/-- The first stage of `_process_symbol`: what fails here ends the turn of the symbol. -/
def deriveSignals (M : FloatMath) (ids : AnalysisIds) (s : MarketSnapshot Amount) :
    Except PyError Analysis := do
  let quant ← computeQuantSignals M ids.signalId s
  let regime ← MarketRegimeEngine.assess M ids.regimeId s
  let volatility ← computeVolatilityAssessment M ids.assessmentId s
  pure ⟨quant, regime, volatility⟩

def QuantSignalsPackage.toQuantSignals (p : QuantSignalsPackage) : QuantSignals :=
  ⟨p.signals, p.valid.2.2.1⟩

def VolatilityAssessmentPackage.toVolatilityAssessment (p : VolatilityAssessmentPackage) :
    VolatilityAssessment :=
  ⟨p.volatilityScore, p.valid.volatilityScore⟩

def Analysis.aggregate (a : Analysis) (g : DecisionAggregator) (d : EvaluatedDecision) :
    Except PyError DecisionAggregationResult :=
  g.aggregate d a.quant.toQuantSignals a.regime.primaryRegime
    a.volatility.toVolatilityAssessment

theorem deriveSignals_ok_iff (M : FloatMath) (ids : AnalysisIds) (s : MarketSnapshot Amount) :
    (∃ a, deriveSignals M ids s = .ok a) ↔ s.FullyAnalysable M := by
  unfold deriveSignals
  by_cases hcomputable : s.candles.Computable M
  · by_cases hid : s.Identified
    · obtain ⟨p, hp, -⟩ := computeQuantSignals_of_computable ids.signalId hcomputable hid
      obtain ⟨r, hr⟩ := (MarketRegimeEngine.assess_ok_iff M ids.regimeId s).mpr hid
      have hvolatility := computeVolatilityAssessment_ok_iff M ids.assessmentId s
      rw [hp, hr]
      cases hv : computeVolatilityAssessment M ids.assessmentId s with
      | error e =>
        rw [hv] at hvolatility
        refine iff_of_false ?_ fun hfull => ?_
        · rintro ⟨a, ha⟩
          cases ha
        · obtain ⟨v, hv'⟩ := hvolatility.mpr ⟨hid, hfull.2⟩
          cases hv'
      | ok v => exact iff_of_true ⟨_, rfl⟩ ⟨⟨hcomputable, hid⟩, (hvolatility.mp ⟨v, hv⟩).2⟩
    · rw [computeQuantSignals_refused _ hcomputable hid]
      refine iff_of_false ?_ fun hfull => hid hfull.1.2
      rintro ⟨a, ha⟩
      cases ha
  · rw [computeQuantSignals_error _ hcomputable]
    refine iff_of_false ?_ fun hfull => hcomputable hfull.1.1
    rintro ⟨a, ha⟩
    cases ha

/-- What each package of an analysis says of the snapshot. -/
structure Analysis.Of (a : Analysis) (M : FloatMath) (s : MarketSnapshot Amount) : Prop where
  keys : a.quant.toAnalysisKey = s.key ∧ a.regime.toAnalysisKey = s.key ∧
    a.volatility.toAnalysisKey = s.key
  signals : a.quant.signals.individual.length = 7
  strength : a.quant.signals.signalStrengthScore = none
  conflict : a.quant.signals.signalConflictScore = none
  regime : a.regime.primaryRegime = (classifyPrimaryRegime M s.candles
    (assessVolatilityState M s.candles) (assessTrendAlignment M s.candles)).regime
  volatility : a.volatility.volatilityScore = volatilityScore M s.candles

theorem deriveSignals_of {M : FloatMath} (h : deriveSignals M ids s = .ok a) : a.Of M s := by
  have hfull := (deriveSignals_ok_iff M ids s).mp ⟨a, h⟩
  obtain ⟨p, hp, ⟨hkey, -⟩, hsignals, hstrength, hconflict⟩ :=
    computeQuantSignals_of_computable ids.signalId hfull.1.1 hfull.1.2
  obtain ⟨r, hr⟩ := (MarketRegimeEngine.assess_ok_iff M ids.regimeId s).mpr hfull.1.2
  obtain ⟨v, hv⟩ :=
    (computeVolatilityAssessment_ok_iff M ids.assessmentId s).mpr ⟨hfull.1.2, hfull.2⟩
  obtain ⟨⟨hrkey, -⟩, -, -, hprimary, -, -⟩ := MarketRegimeEngine.assess_eq hr
  have hfields := computeVolatilityAssessment_eq hv
  unfold deriveSignals at h
  rw [hp, hr, hv] at h
  cases h
  refine ⟨⟨hkey, hrkey, ?_⟩, hsignals, hstrength, hconflict, hprimary, ?_⟩
  · rw [hfields]
    rfl
  · rw [hfields]
    rfl

/-- An analysis in which every signal is there, and nothing measures their strength or how much
they conflict. -/
structure Analysis.Complete (a : Analysis) : Prop where
  signals : a.quant.signals.individual.length = 7
  strength : a.quant.signals.signalStrengthScore = none
  conflict : a.quant.signals.signalConflictScore = none

theorem Analysis.Of.complete {M : FloatMath} {s : MarketSnapshot Amount} {a : Analysis}
    (h : a.Of M s) : a.Complete :=
  ⟨h.signals, h.strength, h.conflict⟩

/-- The mean strength of the signals. -/
def Analysis.strength (A : Arithmetic) (a : Analysis) : Amount :=
  A.float.div (A.float.sum (a.quant.signals.individual.map fun v => |v|)) 7

/-- Everything that a decision to trade has to meet. The threshold of the score counts in two
regimes only; in the others it is met along with the rest. -/
structure Analysis.Follows (a : Analysis) (g : DecisionAggregator) (d : EvaluatedDecision) :
    Prop where
  confidence : minGptConfidence ≤ d.confidence
  strength : g.arithmetic.float minStrengthScore ≤ a.strength g.arithmetic
  long : d.decision = .long → ∀ net ∈ netQuantDirection g.arithmetic a.quant.toQuantSignals,
    -g.arithmetic.float directionMismatchThreshold ≤ net
  short : d.decision = .short → ∀ net ∈ netQuantDirection g.arithmetic a.quant.toQuantSignals,
    net ≤ g.arithmetic.float directionMismatchThreshold
  score : a.regime.primaryRegime = .highVolatility ∨ a.regime.primaryRegime = .unclear →
    minScoreToTrade ≤ g.score d a.quant.toQuantSignals a.regime.primaryRegime
      a.volatility.toVolatilityAssessment

section
variable {A : Arithmetic} {a : Analysis} (h : a.Complete)
include h

theorem Analysis.Complete.computeQuantScore_eq :
    computeQuantScore A a.quant.toQuantSignals = min (a.strength A) 1 := by
  have hstrength : a.quant.toQuantSignals.signalStrengthScore = none := h.strength
  have hnonempty : (a.quant.toQuantSignals.individual.map fun v => |v|).isEmpty = false := by
    rw [List.isEmpty_map, Bool.eq_false_iff, ne_eq, List.isEmpty_iff, ← List.length_eq_zero_iff]
    exact h.signals.trans_ne (by decide)
  have hlength : (a.quant.toQuantSignals.individual.map fun v => |v|).length = 7 :=
    (List.length_map _).trans h.signals
  rw [computeQuantScore, hstrength]
  dsimp only
  rw [hnonempty, if_neg Bool.false_ne_true, hlength]
  rfl

/-- The strength that the aggregator reports is the mean one, cut off where it counts for all. -/
theorem Analysis.Complete.weak_iff : computeQuantScore A a.quant.toQuantSignals <
    A.float minStrengthScore ↔ a.strength A < A.float minStrengthScore := by
  have hone : A.float minStrengthScore ≤ 1 := A.float.le_one (by norm_num [minStrengthScore])
  rw [h.computeQuantScore_eq, min_lt_iff, or_iff_left (not_lt.mpr hone)]

/-- The signals never conflict: nothing measures yet how much they do. -/
theorem Analysis.Complete.detectContradictions_eq_nil_iff (d : EvaluatedDecision) :
    detectContradictions A d a.quant.toQuantSignals = [] ↔
      minGptConfidence ≤ d.confidence ∧ A.float minStrengthScore ≤ a.strength A ∧
      (d.decision = .long → ∀ net ∈ netQuantDirection A a.quant.toQuantSignals,
        -A.float directionMismatchThreshold ≤ net) ∧
      (d.decision = .short → ∀ net ∈ netQuantDirection A a.quant.toQuantSignals,
        net ≤ A.float directionMismatchThreshold) := by
  have hconflict : a.quant.toQuantSignals.signalConflictScore = none := h.conflict
  unfold detectContradictions
  rw [hconflict]
  simp only [h.weak_iff]
  cases hnet : netQuantDirection A a.quant.toQuantSignals with
  | none =>
    by_cases hs : a.strength A < A.float minStrengthScore
    · simp [hs]
    · by_cases hc : d.confidence < minGptConfidence
      · simp [hs, hc]
      · simp [hs, hc, not_lt.mp hs, not_lt.mp hc]
  | some net =>
    by_cases hs : a.strength A < A.float minStrengthScore
    · simp [hs]
    · by_cases hc : d.confidence < minGptConfidence
      · simp [hs, hc]
      · by_cases hl : d.decision = .long ∧ net < -A.float directionMismatchThreshold
        · simp [hl]
        · by_cases hsh : d.decision = .short ∧ A.float directionMismatchThreshold < net
          · simp [hsh]
          · have hl' : d.decision = .long → -A.float directionMismatchThreshold ≤ net :=
              fun hd => not_lt.mp fun hlt => hl ⟨hd, hlt⟩
            have hsh' : d.decision = .short → net ≤ A.float directionMismatchThreshold :=
              fun hd => not_lt.mp fun hlt => hsh ⟨hd, hlt⟩
            simpa [hs, hc, hl, hsh, not_lt.mp hs, not_lt.mp hc] using And.intro hl' hsh'

/-- With strong signals, a sure model and a regime that is no bad one, the score is met: the least
of each source makes it up. -/
theorem Analysis.Complete.score_of_regime (g : DecisionAggregator) {d : EvaluatedDecision}
    (hconfidence : minGptConfidence ≤ d.confidence)
    (hstrength : g.arithmetic.float minStrengthScore ≤ a.strength g.arithmetic)
    (hregime : ¬(a.regime.primaryRegime = .highVolatility ∨ a.regime.primaryRegime = .unclear)) :
    minScoreToTrade ≤ g.score d a.quant.toQuantSignals a.regime.primaryRegime
      a.volatility.toVolatilityAssessment := by
  have hquant : g.arithmetic.float minStrengthScore ≤
      computeQuantScore g.arithmetic a.quant.toQuantSignals :=
    not_lt.mp (mt h.weak_iff.mp (not_lt.mpr hstrength))
  have hfactor : 1 / 2 ≤ regimeFactor a.regime.primaryRegime := by
    rw [not_or] at hregime
    cases hr : a.regime.primaryRegime with
    | trending => norm_num [regimeFactor]
    | ranging => norm_num [regimeFactor]
    | highVolatility => exact absurd hr hregime.1
    | lowVolatility => norm_num [regimeFactor]
    | breakout => norm_num [regimeFactor]
    | unclear => exact absurd hr hregime.2
  have hvolatility : g.arithmetic.float.sub 1 (g.arithmetic.float.mul 1 (60 / 100)) ≤
      g.computeVolatilityFactor a.volatility.toVolatilityAssessment := by
    obtain ⟨hlow, hhigh⟩ := g.power_range _ a.volatility.toVolatilityAssessment.score_range.1
      a.volatility.toVolatilityAssessment.score_range.2
    refine le_max_of_le_left (g.arithmetic.float.sub_mono le_rfl ?_)
    exact g.arithmetic.float.mul_mono hlow (by norm_num) hhigh le_rfl
  let least : ContributingSources :=
    ⟨g.arithmetic.float minStrengthScore, minGptConfidence, 1 / 2,
      g.arithmetic.float.sub 1 (g.arithmetic.float.mul 1 (60 / 100))⟩
  have hleast : least.Valid ∧ minScoreToTrade ≤ least.score g.arithmetic := by
    cases harithmetic : g.arithmetic with
    | exact =>
      simp only [least, harithmetic]
      decide +kernel
    | python =>
      simp only [least, harithmetic]
      decide +kernel
  exact hleast.2.trans
    (ContributingSources.score_mono hleast.1 hquant hconfidence hfactor hvolatility)

theorem Analysis.Complete.follows_iff (g : DecisionAggregator) (d : EvaluatedDecision)
    (hd : d.decision ≠ .noOperar) :
    ∃ r, a.aggregate g d = .ok r ∧ (r.finalAction = d.decision ↔ a.Follows g d) ∧
      (¬a.Follows g d → r.finalAction = .noOperar) := by
  obtain ⟨r, hr⟩ := g.aggregate_total d a.quant.toQuantSignals a.regime.primaryRegime
    a.volatility.toVolatilityAssessment
  have hclear := h.detectContradictions_eq_nil_iff (A := g.arithmetic) d
  have hdown : g.TurnsDown d a.quant.toQuantSignals a.regime.primaryRegime
      a.volatility.toVolatilityAssessment ↔ ¬a.Follows g d := by
    rw [DecisionAggregator.TurnsDown, ← not_le, ← not_and_or, not_iff_not, hclear]
    constructor
    · intro hmet
      obtain ⟨⟨hconfidence, hstrength, hlong, hshort⟩, hscore⟩ := hmet
      exact ⟨hconfidence, hstrength, hlong, hshort, fun _ => hscore⟩
    · intro hf
      refine ⟨⟨hf.confidence, hf.strength, hf.long, hf.short⟩, ?_⟩
      by_cases hregime : a.regime.primaryRegime = .highVolatility ∨
          a.regime.primaryRegime = .unclear
      · exact hf.score hregime
      · exact h.score_of_regime g hf.confidence hf.strength hregime
  have haction := DecisionAggregator.aggregate_finalAction hr
  refine ⟨r, hr, ?_, ?_⟩
  · by_cases hf : a.Follows g d
    · rw [haction, if_neg (mt hdown.mp (not_not_intro hf))]
      exact iff_of_true rfl hf
    · rw [haction, if_pos (hdown.mpr hf)]
      exact iff_of_false (Ne.symm hd) hf
  · intro hno
    rw [haction, if_pos (hdown.mpr hno)]

end

/-- Whatever the model proposes for a snapshot, its proposal is followed just when it is sure, the
signals are strong on average, their direction does not speak against it and, if the volatility is
high or the regime is unclear, the whole score is enough. -/
theorem aggregate_follows_iff {M : FloatMath} (h : deriveSignals M ids s = .ok a)
    (g : DecisionAggregator) (d : EvaluatedDecision) (hd : d.decision ≠ .noOperar) :
    ∃ r, a.aggregate g d = .ok r ∧ (r.finalAction = d.decision ↔ a.Follows g d) ∧
      (¬a.Follows g d → r.finalAction = .noOperar) :=
  (deriveSignals_of h).complete.follows_iff g d hd

instance (a : Analysis) (g : DecisionAggregator) (d : EvaluatedDecision) :
    Decidable (a.Follows g d) :=
  decidable_of_iff
    (minGptConfidence ≤ d.confidence ∧
      g.arithmetic.float minStrengthScore ≤ a.strength g.arithmetic ∧
      (d.decision = .long → ∀ net ∈ netQuantDirection g.arithmetic a.quant.toQuantSignals,
        -g.arithmetic.float directionMismatchThreshold ≤ net) ∧
      (d.decision = .short → ∀ net ∈ netQuantDirection g.arithmetic a.quant.toQuantSignals,
        net ≤ g.arithmetic.float directionMismatchThreshold) ∧
      (a.regime.primaryRegime = .highVolatility ∨ a.regime.primaryRegime = .unclear →
        minScoreToTrade ≤ g.score d a.quant.toQuantSignals a.regime.primaryRegime
          a.volatility.toVolatilityAssessment))
    ⟨fun ⟨hc, hs, hl, hsh, hscore⟩ => ⟨hc, hs, hl, hsh, hscore⟩,
      fun ⟨hc, hs, hl, hsh, hscore⟩ => ⟨hc, hs, hl, hsh, hscore⟩⟩

def surgeIds : AnalysisIds := ⟨surgeId, surgeId, surgeId⟩

theorem fullConfidence : (0 : Amount) ≤ 1 ∧ (1 : Amount) ≤ 1 := ⟨zero_le_one, le_rfl⟩

def sureDecision : EvaluatedDecision where
  toModelDecision := sampleDecision
  timestampUtc := 0
  estimatedMaxLossUsdt := 5
  confidence := 1
  maxLoss_nonneg := Nat.cast_nonneg 5
  confidence_range := fullConfidence

theorem plainPower_range : ∀ s : Amount, 0 ≤ s → s ≤ 1 → 0 ≤ id s ∧ id s ≤ 1 :=
  fun _ h h' => ⟨h, h'⟩

def plainAggregator : DecisionAggregator := ⟨.python, id, plainPower_range⟩

/-- A surge is followed up. -/
theorem surge_followed : ∃ a r, deriveSignals surgeMath surgeIds surgeSnapshot = .ok a ∧
    a.aggregate plainAggregator sureDecision = .ok r ∧ r.finalAction = .long := by
  have hfollows : (deriveSignals surgeMath surgeIds surgeSnapshot).toOption.map
      (fun a => decide (a.Follows plainAggregator sureDecision)) = some true := by
    decide +kernel
  cases ha : deriveSignals surgeMath surgeIds surgeSnapshot with
  | error e =>
    rw [ha] at hfollows
    cases hfollows
  | ok a =>
    rw [ha] at hfollows
    have hf : a.Follows plainAggregator sureDecision :=
      of_decide_eq_true (Option.some.inj hfollows)
    obtain ⟨r, hr, hiff, -⟩ :=
      aggregate_follows_iff ha plainAggregator sureDecision (by decide)
    exact ⟨a, r, rfl, hr, hiff.mpr hf⟩

end FuturesBot.MarketData
