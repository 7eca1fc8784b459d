import FuturesBot.Core.Arithmetic
import FuturesBot.Decision.Schemas
import Mathlib.Algebra.Order.BigOperators.Group.List

namespace FuturesBot
open Lib

inductive PrimaryRegime
  | trending | ranging | highVolatility | lowVolatility | breakout | unclear
  deriving DecidableEq, Repr

/-- How well the regime suits a trade. -/
def regimeFactor : PrimaryRegime → Amount
  | .trending | .breakout => 85 / 100
  | .ranging => 55 / 100
  | .lowVolatility => 50 / 100
  | .highVolatility => 40 / 100
  | .unclear => 20 / 100

theorem regimeFactor_range (r : PrimaryRegime) : 0 ≤ regimeFactor r ∧ regimeFactor r ≤ 1 := by
  cases r <;> norm_num [regimeFactor]

/-- The signals of a snapshot, as far as they are available. A negative signal is bearish. -/
structure QuantSignalsFields where
  momentumSignal : Option Amount := none
  meanReversionSignal : Option Amount := none
  breakoutSignal : Option Amount := none
  fundingSignal : Option Amount := none
  openInterestSignal : Option Amount := none
  orderFlowImbalanceSignal : Option Amount := none
  liquiditySweepSignal : Option Amount := none
  signalStrengthScore : Option Amount := none
  signalConflictScore : Option Amount := none

namespace QuantSignalsFields

def individual (f : QuantSignalsFields) : List Amount :=
  [f.momentumSignal, f.meanReversionSignal, f.breakoutSignal, f.fundingSignal,
    f.openInterestSignal, f.orderFlowImbalanceSignal, f.liquiditySweepSignal].filterMap id

/-- The signals that say where the price goes. -/
def directional (f : QuantSignalsFields) : List Amount :=
  [f.momentumSignal, f.meanReversionSignal, f.breakoutSignal].filterMap id

def Valid (f : QuantSignalsFields) : Prop :=
  (∀ v ∈ f.individual, -1 ≤ v ∧ v ≤ 1) ∧ (∀ s ∈ f.signalStrengthScore, 0 ≤ s ∧ s ≤ 1) ∧
  (∀ s ∈ f.signalConflictScore, 0 ≤ s ∧ s ≤ 1)

end QuantSignalsFields

structure QuantSignals extends QuantSignalsFields where
  valid : toQuantSignalsFields.Valid

structure VolatilityAssessment where
  volatilityScore : Amount
  score_range : 0 ≤ volatilityScore ∧ volatilityScore ≤ 1

/-- A decision together with the moment and the evaluation that the risk engine does not read. -/
structure EvaluatedDecision extends ModelDecision where
  timestampUtc : Timestamp
  estimatedMaxLossUsdt : Amount
  confidence : Amount
  maxLoss_nonneg : 0 ≤ estimatedMaxLossUsdt
  confidence_range : 0 ≤ confidence ∧ confidence ≤ 1

structure ContributingSources where
  quantScore : Amount
  gptContextScore : Amount
  regimeFactor : Amount
  volatilityFactor : Amount

def ContributingSources.Valid (c : ContributingSources) : Prop :=
  (0 ≤ c.quantScore ∧ c.quantScore ≤ 1) ∧ (0 ≤ c.gptContextScore ∧ c.gptContextScore ≤ 1) ∧
  (0 ≤ c.regimeFactor ∧ c.regimeFactor ≤ 1) ∧ (0 ≤ c.volatilityFactor ∧ c.volatilityFactor ≤ 1)

instance (c : ContributingSources) : Decidable c.Valid :=
  inferInstanceAs (Decidable (_ ∧ _))

structure DecisionAggregationFields where
  decisionId : ClientOrderId
  symbol : Symbol
  contributingSources : ContributingSources
  aggregatedScore : Amount
  finalAction : DecisionType
  contradictionsDetected : List String

def DecisionAggregationFields.Valid (f : DecisionAggregationFields) : Prop :=
  f.contributingSources.Valid ∧ (0 ≤ f.aggregatedScore ∧ f.aggregatedScore ≤ 1) ∧
  f.symbol ∈ allowedSymbols

instance (f : DecisionAggregationFields) : Decidable f.Valid :=
  inferInstanceAs (Decidable (_ ∧ _))

structure DecisionAggregationResult extends DecisionAggregationFields where
  valid : toDecisionAggregationFields.Valid

def DecisionAggregationResult.build (f : DecisionAggregationFields) :
    Except PyError DecisionAggregationResult :=
  if h : f.Valid then .ok ⟨f, h⟩ else .error (.validationError "DecisionAggregationResult")

theorem DecisionAggregationResult.build_ok (h : DecisionAggregationResult.build f = .ok r) :
    r.toDecisionAggregationFields = f := by
  unfold DecisionAggregationResult.build at h
  split at h <;> cases h
  rfl

def minScoreToTrade : Amount := 50 / 100

def directionMismatchThreshold : Amount := 20 / 100

def maxConflictScore : Amount := 60 / 100

def minStrengthScore : Amount := 40 / 100

def minGptConfidence : Amount := 70 / 100

/-- The mean absolute signal stands in for a strength that is not available. -/
def computeQuantScore (A : Arithmetic) (qs : QuantSignals) : Amount :=
  match qs.signalStrengthScore with
  | some score => A.float score
  | none =>
    let available := qs.individual.map (fun v => |v|)
    if available.isEmpty then 0 else min (A.float.div (A.float.sum available) available.length) 1

theorem QuantSignals.individual_length (qs : QuantSignals) : qs.individual.length ≤ 7 :=
  List.length_filterMap_le id _

theorem computeQuantScore_range (A : Arithmetic) (qs : QuantSignals) :
    0 ≤ computeQuantScore A qs ∧ computeQuantScore A qs ≤ 1 := by
  unfold computeQuantScore
  split
  · rename_i score hs
    obtain ⟨hlo, hhi⟩ := qs.valid.2.1 score hs
    exact ⟨A.float.nonneg hlo, A.float.le_one hhi⟩
  · dsimp only
    split
    · norm_num
    · have hlength : (qs.individual.map (fun v => |v|)).length ≤ 64 := by
        rw [List.length_map]
        exact qs.individual_length.trans (by norm_num)
      have hsum : 0 ≤ A.float.sum (qs.individual.map (fun v => |v|)) := by
        refine A.float.zero_le_sum _ hlength ?_
        intro v hv
        obtain ⟨w, _, rfl⟩ := List.mem_map.mp hv
        exact abs_nonneg w
      exact ⟨le_min (A.float.zero_le_div hsum (Nat.cast_nonneg _)) zero_le_one, min_le_right _ _⟩

def netQuantDirection (A : Arithmetic) (qs : QuantSignals) : Option Amount :=
  if qs.directional.isEmpty then none
  else some (A.float.div (A.float.sum qs.directional) qs.directional.length)

/-- What speaks against the direction of the decision. The texts leave out their numbers. -/
def detectContradictions (A : Arithmetic) (d : EvaluatedDecision) (qs : QuantSignals) :
    List String :=
  let mismatch := match netQuantDirection A qs with
    | none => []
    | some net =>
      if d.decision = .long ∧ net < -A.float directionMismatchThreshold then
        ["direction_mismatch: GPT=LONG pero señal neta quant (bearish)"]
      else if d.decision = .short ∧ A.float directionMismatchThreshold < net then
        ["direction_mismatch: GPT=SHORT pero señal neta quant (bullish)"]
      else []
  let conflict := match qs.signalConflictScore with
    | none => []
    | some score =>
      if maxConflictScore < score then ["quant_internal_conflict: signal_conflict_score"] else []
  let strength :=
    if computeQuantScore A qs < A.float minStrengthScore then
      ["low_quant_strength: effective_strength"]
    else []
  let confidence :=
    if d.confidence < minGptConfidence then ["low_gpt_confidence: confidence"] else []
  mismatch ++ conflict ++ strength ++ confidence

theorem detectContradictions_of_unsure {d : EvaluatedDecision} (h : d.confidence < minGptConfidence)
    (A : Arithmetic) (qs : QuantSignals) : detectContradictions A d qs ≠ [] := by
  simp only [detectContradictions, if_pos h]
  exact List.append_ne_nil_of_right_ne_nil _ (List.cons_ne_nil _ _)

def determineFinalAction (gptAction : DecisionType) (aggregatedScore : Amount)
    (contradictions : List String) : DecisionType :=
  if contradictions ≠ [] then .noOperar
  else if aggregatedScore < minScoreToTrade then .noOperar
  else gptAction

/-- The aggregator, with the arithmetic that it calculates in. `power` is `score ** 1.5` as the
floats of the platform give it; only the range of it matters. -/
structure DecisionAggregator where
  arithmetic : Arithmetic
  power : Amount → Amount
  power_range : ∀ s, 0 ≤ s → s ≤ 1 → 0 ≤ power s ∧ power s ≤ 1

namespace DecisionAggregator

def computeVolatilityFactor (g : DecisionAggregator) (va : VolatilityAssessment) : Amount :=
  let A := g.arithmetic
  max (A.float.sub 1 (A.float.mul (g.power va.volatilityScore) (60 / 100))) 0

theorem computeVolatilityFactor_range (g : DecisionAggregator) (va : VolatilityAssessment) :
    0 ≤ g.computeVolatilityFactor va ∧ g.computeVolatilityFactor va ≤ 1 := by
  obtain ⟨hlo, _⟩ := g.power_range _ va.score_range.1 va.score_range.2
  have hpenalty : 0 ≤ g.arithmetic.float.mul (g.power va.volatilityScore) (60 / 100) :=
    g.arithmetic.float.zero_le_mul hlo (by norm_num)
  refine ⟨le_max_right _ _, max_le (g.arithmetic.float.le_one ?_) zero_le_one⟩
  rw [g.arithmetic.float.one]
  exact sub_le_self _ (g.arithmetic.float.nonneg hpenalty)

def sources (g : DecisionAggregator) (d : EvaluatedDecision) (qs : QuantSignals)
    (regime : PrimaryRegime) (va : VolatilityAssessment) : ContributingSources where
  quantScore := computeQuantScore g.arithmetic qs
  gptContextScore := d.confidence
  regimeFactor := FuturesBot.regimeFactor regime
  volatilityFactor := g.computeVolatilityFactor va

end DecisionAggregator

/-- The weighted sum of the sources. -/
def ContributingSources.score (A : Arithmetic) (c : ContributingSources) : Amount :=
  A.float.add (A.float.add (A.float.add (A.float.mul (40 / 100) c.quantScore)
    (A.float.mul (30 / 100) c.gptContextScore)) (A.float.mul (20 / 100) c.regimeFactor))
    (A.float.mul (10 / 100) c.volatilityFactor)

/-- No source less, no score less. -/
theorem ContributingSources.score_mono {A : Arithmetic} {c c' : ContributingSources} (h : c.Valid)
    (hquant : c.quantScore ≤ c'.quantScore) (hgpt : c.gptContextScore ≤ c'.gptContextScore)
    (hregime : c.regimeFactor ≤ c'.regimeFactor)
    (hvolatility : c.volatilityFactor ≤ c'.volatilityFactor) : c.score A ≤ c'.score A := by
  have hterm : ∀ {w x y : Amount}, 0 ≤ w → 0 ≤ x → x ≤ y → A.float.mul w x ≤ A.float.mul w y :=
    fun hw hx hxy => A.float.mul_mono hw hx le_rfl hxy
  refine A.float.add_mono (A.float.add_mono (A.float.add_mono ?_ ?_) ?_) ?_
  · exact hterm (by norm_num) h.1.1 hquant
  · exact hterm (by norm_num) h.2.1.1 hgpt
  · exact hterm (by norm_num) h.2.2.1.1 hregime
  · exact hterm (by norm_num) h.2.2.2.1 hvolatility

theorem ContributingSources.score_range {c : ContributingSources} (A : Arithmetic) (h : c.Valid) :
    0 ≤ c.score A ∧ c.score A ≤ 1 := by
  obtain ⟨⟨hq, hq'⟩, ⟨hg, hg'⟩, ⟨hr, hr'⟩, hv, hv'⟩ := h
  constructor
  · have hterm : ∀ {w x : Amount}, 0 ≤ w → 0 ≤ x → 0 ≤ A.float.mul w x :=
      fun hw hx => A.float.zero_le_mul hw hx
    refine A.float.zero_le_add (A.float.zero_le_add (A.float.zero_le_add ?_ ?_) ?_) ?_
    · exact hterm (by norm_num) hq
    · exact hterm (by norm_num) hg
    · exact hterm (by norm_num) hr
    · exact hterm (by norm_num) hv
  · have hones : (⟨1, 1, 1, 1⟩ : ContributingSources).score A ≤ 1 := by
      cases A <;> decide +kernel
    exact (score_mono ⟨⟨hq, hq'⟩, ⟨hg, hg'⟩, ⟨hr, hr'⟩, hv, hv'⟩ hq' hg' hr' hv').trans hones

namespace DecisionAggregator

theorem sources_valid (g : DecisionAggregator) (d : EvaluatedDecision) (qs : QuantSignals)
    (regime : PrimaryRegime) (va : VolatilityAssessment) : (g.sources d qs regime va).Valid :=
  ⟨computeQuantScore_range g.arithmetic qs, d.confidence_range, regimeFactor_range regime,
    g.computeVolatilityFactor_range va⟩

/-- The score that the verdict depends on. -/
def score (g : DecisionAggregator) (d : EvaluatedDecision) (qs : QuantSignals)
    (regime : PrimaryRegime) (va : VolatilityAssessment) : Amount :=
  (g.sources d qs regime va).score g.arithmetic

/-- A model that stays out has the last word; there is no direction to contradict then. -/
def aggregate (g : DecisionAggregator) (d : EvaluatedDecision) (qs : QuantSignals)
    (regime : PrimaryRegime) (va : VolatilityAssessment) :
    Except PyError DecisionAggregationResult :=
  let aggregatedScore := g.score d qs regime va
  let contradictions :=
    if d.decision = .noOperar then [] else detectContradictions g.arithmetic d qs
  let finalAction := if d.decision = .noOperar then .noOperar
    else determineFinalAction d.decision aggregatedScore contradictions
  DecisionAggregationResult.build
    { decisionId := d.decisionId, symbol := d.symbol,
      contributingSources := g.sources d qs regime va,
      aggregatedScore := quantizeWith roundHalfEven 6 aggregatedScore, finalAction := finalAction,
      contradictionsDetected := contradictions }

/-- The verdict never fails its own schema. -/
theorem aggregate_total (g : DecisionAggregator) (d : EvaluatedDecision) (qs : QuantSignals)
    (regime : PrimaryRegime) (va : VolatilityAssessment) :
    ∃ r, g.aggregate d qs regime va = .ok r := by
  have hsources := g.sources_valid d qs regime va
  obtain ⟨hlo, hhi⟩ := ContributingSources.score_range g.arithmetic hsources
  have hscore : 0 ≤ quantizeWith roundHalfEven 6 (g.score d qs regime va) ∧
      quantizeWith roundHalfEven 6 (g.score d qs regime va) ≤ 1 :=
    ⟨quantizeWith_nonneg (fun _ => roundHalfEven_nonneg) hlo,
      quantizeWith_le_one (fun _ _ => roundHalfEven_le) hhi⟩
  unfold aggregate DecisionAggregationResult.build
  rw [dif_pos ⟨hsources, hscore, d.symbol_allowed⟩]
  exact ⟨_, rfl⟩

theorem aggregate_symbol {g : DecisionAggregator} (h : g.aggregate d qs regime va = .ok r) :
    r.symbol = d.symbol :=
  congrArg (·.symbol) (DecisionAggregationResult.build_ok h)

/-- The aggregator does not follow a decision to trade. -/
def TurnsDown (g : DecisionAggregator) (d : EvaluatedDecision) (qs : QuantSignals)
    (regime : PrimaryRegime) (va : VolatilityAssessment) : Prop :=
  detectContradictions g.arithmetic d qs ≠ [] ∨ g.score d qs regime va < minScoreToTrade

theorem aggregate_noOperar_iff {g : DecisionAggregator} (h : g.aggregate d qs regime va = .ok r) :
    r.finalAction = .noOperar ↔ d.decision = .noOperar ∨ g.TurnsDown d qs regime va := by
  have hf := congrArg (·.finalAction) (DecisionAggregationResult.build_ok h)
  dsimp only at hf
  rw [hf, TurnsDown]
  by_cases hd : d.decision = .noOperar
  · simp [hd]
  · simp only [hd, if_false, false_or, determineFinalAction]
    by_cases hc : detectContradictions g.arithmetic d qs = []
    · by_cases hs : g.score d qs regime va < minScoreToTrade
      · simp [hc, hs]
      · simp [hc, hs, hd]
    · simp [hc]

end DecisionAggregator

end FuturesBot
