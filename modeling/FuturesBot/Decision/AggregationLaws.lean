import FuturesBot.Decision.Aggregator

namespace FuturesBot
open Lib

/-- The opposite direction. Staying out has none. -/
def DecisionType.mirror : DecisionType → DecisionType
  | .long => .short
  | .short => .long
  | .noOperar => .noOperar

namespace QuantSignalsFields

/-- Every signal that has a sign, with the other one. -/
def negated (f : QuantSignalsFields) : QuantSignalsFields :=
  { f with
    momentumSignal := f.momentumSignal.map Neg.neg
    meanReversionSignal := f.meanReversionSignal.map Neg.neg
    breakoutSignal := f.breakoutSignal.map Neg.neg
    fundingSignal := f.fundingSignal.map Neg.neg
    openInterestSignal := f.openInterestSignal.map Neg.neg
    orderFlowImbalanceSignal := f.orderFlowImbalanceSignal.map Neg.neg
    liquiditySweepSignal := f.liquiditySweepSignal.map Neg.neg }

theorem filterMap_negated (l : List (Option Amount)) :
    (l.map (Option.map Neg.neg)).filterMap id = (l.filterMap id).map Neg.neg := by
  rw [List.filterMap_map, List.map_filterMap]
  rfl

theorem individual_negated (f : QuantSignalsFields) :
    f.negated.individual = f.individual.map Neg.neg :=
  filterMap_negated [f.momentumSignal, f.meanReversionSignal, f.breakoutSignal, f.fundingSignal,
    f.openInterestSignal, f.orderFlowImbalanceSignal, f.liquiditySweepSignal]

theorem directional_negated (f : QuantSignalsFields) :
    f.negated.directional = f.directional.map Neg.neg :=
  filterMap_negated [f.momentumSignal, f.meanReversionSignal, f.breakoutSignal]

end QuantSignalsFields

def QuantSignals.negated (qs : QuantSignals) : QuantSignals where
  toQuantSignalsFields := qs.toQuantSignalsFields.negated
  valid := by
    refine ⟨fun v hv => ?_, qs.valid.2⟩
    rw [QuantSignalsFields.individual_negated] at hv
    obtain ⟨w, hw, rfl⟩ := List.mem_map.mp hv
    obtain ⟨hlo, hhi⟩ := qs.valid.1 w hw
    exact ⟨neg_le_neg hhi, neg_le.mp hlo⟩

section
variable {A : Arithmetic}

/-- The strength of the signals has no direction. -/
theorem computeQuantScore_negated (qs : QuantSignals) :
    computeQuantScore A qs.negated = computeQuantScore A qs := by
  have habs : qs.negated.individual.map (fun v => |v|) = qs.individual.map (fun v => |v|) := by
    change (QuantSignalsFields.negated _).individual.map _ = _
    rw [QuantSignalsFields.individual_negated, List.map_map]
    exact List.map_congr_left fun v _ => abs_neg v
  unfold computeQuantScore
  rw [habs]
  rfl

theorem netQuantDirection_negated (qs : QuantSignals) :
    netQuantDirection A qs.negated = (netQuantDirection A qs).map Neg.neg := by
  have hdirectional : qs.negated.directional = qs.directional.map Neg.neg :=
    QuantSignalsFields.directional_negated _
  unfold netQuantDirection
  rw [hdirectional, List.isEmpty_map, List.length_map, A.float.sum_neg]
  split
  · rfl
  · rw [A.float.neg_div_left]
    rfl

/-- The same speaks against a setup and against its mirror image. -/
theorem detectContradictions_mirror {d d' : EvaluatedDecision}
    (hd : d'.decision = d.decision.mirror) (hc : d'.confidence = d.confidence)
    (qs : QuantSignals) :
    detectContradictions A d' qs.negated = [] ↔ detectContradictions A d qs = [] := by
  have hconflict : qs.negated.signalConflictScore = qs.signalConflictScore := rfl
  unfold detectContradictions
  rw [netQuantDirection_negated, computeQuantScore_negated, hconflict, hc, hd]
  simp only [List.append_eq_nil_iff]
  refine and_congr_left' (and_congr_left' (and_congr_left' ?_))
  cases netQuantDirection A qs with
  | none => exact .rfl
  | some net =>
    have hbearish : -net < -A.float directionMismatchThreshold ↔
        A.float directionMismatchThreshold < net :=
      neg_lt_neg_iff
    have hbullish : A.float directionMismatchThreshold < -net ↔
        net < -A.float directionMismatchThreshold :=
      lt_neg
    cases d.decision <;> simp [DecisionType.mirror, hbearish, hbullish]

end

namespace DecisionAggregator

/-- What the verdict on a setup is worth. -/
structure AggregationLaws (g : DecisionAggregator) (d : EvaluatedDecision) (qs : QuantSignals)
    (regime : PrimaryRegime) (va : VolatilityAssessment) (r : DecisionAggregationResult) :
    Prop where
  follows : r.finalAction = .noOperar ∨ r.finalAction = d.decision
  unopposed : r.finalAction ≠ .noOperar →
    detectContradictions g.arithmetic d qs = [] ∧ r.contradictionsDetected = []
  backed : r.finalAction ≠ .noOperar → minScoreToTrade ≤ g.score d qs regime va
  score_range : 0 ≤ g.score d qs regime va ∧ g.score d qs regime va ≤ 1
  rounded_range : 0 ≤ r.aggregatedScore ∧ r.aggregatedScore ≤ 1
  mirrored : ∀ d' : EvaluatedDecision, d'.decision = d.decision.mirror →
    d'.confidence = d.confidence → ∃ r', g.aggregate d' qs.negated regime va = .ok r' ∧
      r'.finalAction = r.finalAction.mirror ∧ r'.aggregatedScore = r.aggregatedScore ∧
      g.score d' qs.negated regime va = g.score d qs regime va

theorem sources_mirror (g : DecisionAggregator) {d d' : EvaluatedDecision}
    (hc : d'.confidence = d.confidence) (qs : QuantSignals) (regime : PrimaryRegime)
    (va : VolatilityAssessment) :
    g.sources d' qs.negated regime va = g.sources d qs regime va := by
  rw [sources, sources, computeQuantScore_negated, hc]

instance (g : DecisionAggregator) (d : EvaluatedDecision) (qs : QuantSignals)
    (regime : PrimaryRegime) (va : VolatilityAssessment) :
    Decidable (g.TurnsDown d qs regime va) :=
  inferInstanceAs (Decidable (_ ∨ _))

theorem score_mirror (g : DecisionAggregator) {d d' : EvaluatedDecision}
    (hc : d'.confidence = d.confidence) (qs : QuantSignals) (regime : PrimaryRegime)
    (va : VolatilityAssessment) :
    g.score d' qs.negated regime va = g.score d qs regime va := by
  rw [score, score, g.sources_mirror hc]

/-- The verdict follows from the direction, the contradictions and the score alone. -/
theorem aggregate_finalAction {g : DecisionAggregator} (h : g.aggregate d qs regime va = .ok r) :
    r.finalAction = if g.TurnsDown d qs regime va then .noOperar else d.decision := by
  have hf := congrArg (·.finalAction) (DecisionAggregationResult.build_ok h)
  dsimp only at hf
  rw [hf]
  by_cases hd : d.decision = .noOperar
  · rw [if_pos hd, hd, ite_self]
  · rw [if_neg hd, if_neg hd, determineFinalAction]
    by_cases hc : detectContradictions g.arithmetic d qs = []
    · rw [if_neg (not_not_intro hc)]
      by_cases hs : g.score d qs regime va < minScoreToTrade
      · have hdown : g.TurnsDown d qs regime va := .inr hs
        rw [if_pos hs, if_pos hdown]
      · have hstands : ¬g.TurnsDown d qs regime va := not_or_intro (not_not_intro hc) hs
        rw [if_neg hs, if_neg hstands]
    · have hdown : g.TurnsDown d qs regime va := .inl hc
      rw [if_pos hc, if_pos hdown]

theorem aggregation_laws (g : DecisionAggregator) (d : EvaluatedDecision) (qs : QuantSignals)
    (regime : PrimaryRegime) (va : VolatilityAssessment) :
    ∃ r, g.aggregate d qs regime va = .ok r ∧ g.AggregationLaws d qs regime va r := by
  obtain ⟨r, hr⟩ := g.aggregate_total d qs regime va
  have hfields := DecisionAggregationResult.build_ok hr
  have hfinal := aggregate_finalAction hr
  have hstands : r.finalAction ≠ .noOperar → ¬g.TurnsDown d qs regime va := by
    intro hacts hdown
    rw [hfinal, if_pos hdown] at hacts
    exact hacts rfl
  refine ⟨r, hr, ?_, ?_, ?_, ContributingSources.score_range g.arithmetic (g.sources_valid d qs regime va),
    r.valid.2.1, ?_⟩
  · rw [hfinal]
    split
    · exact .inl rfl
    · exact .inr rfl
  · intro hacts
    have hnone : detectContradictions g.arithmetic d qs = [] :=
      not_not.mp fun hfound => hstands hacts (.inl hfound)
    refine ⟨hnone, ?_⟩
    rw [hfields]
    dsimp only
    rw [hnone, ite_self]
  · exact fun hacts => not_lt.mp fun hlow => hstands hacts (.inr hlow)
  · intro d' hd hc
    obtain ⟨r', hr'⟩ := g.aggregate_total d' qs.negated regime va
    have hscore := g.score_mirror hc qs regime va
    have hdown : g.TurnsDown d' qs.negated regime va ↔ g.TurnsDown d qs regime va := by
      rw [TurnsDown, TurnsDown, hscore, ne_eq, detectContradictions_mirror hd hc]
    refine ⟨r', hr', ?_, ?_, hscore⟩
    · rw [aggregate_finalAction hr', hfinal, if_congr hdown rfl rfl, hd]
      split <;> rfl
    · rw [DecisionAggregationResult.build_ok hr', hfields]
      dsimp only
      rw [hscore]

end DecisionAggregator

end FuturesBot
