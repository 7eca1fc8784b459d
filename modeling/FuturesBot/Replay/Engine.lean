import FuturesBot.Decision.Aggregator
import FuturesBot.Exchange.Paper
import FuturesBot.Lib.Runs
import FuturesBot.Trading.Turns

namespace FuturesBot
open Lib

/-- A stored snapshot together with the moment it was taken at. -/
structure HistoricalSnapshot extends MarketSnapshot where
  timestampUtc : Timestamp

/-- What the deterministic engines make of a snapshot. -/
structure AnalysisEngines where
  computeQuantSignals : HistoricalSnapshot → Except PyError QuantSignals
  assess : HistoricalSnapshot → Except PyError PrimaryRegime
  computeVolatilityAssessment : HistoricalSnapshot → Except PyError VolatilityAssessment

structure ReplayStepResult where
  snapshot : HistoricalSnapshot
  quantSignals : QuantSignals
  regime : PrimaryRegime
  volatility : VolatilityAssessment
  decision : EvaluatedDecision
  aggregation : DecisionAggregationResult
  riskResult : RiskValidationResult

structure ReplayTotals where
  dailyLossUsdt : Amount := 0
  totalLossUsdt : Amount := 0

def ReplayTotals.add (t : ReplayTotals) (loss : Amount) : ReplayTotals :=
  ⟨t.dailyLossUsdt + loss, t.totalLossUsdt + loss⟩

/-- The engine and what it is run with. The provider may keep a state of its own, and every
engine may raise. -/
structure HistoricalReplayEngine (τ : Type) where
  engines : AnalysisEngines
  aggregator : DecisionAggregator
  decisionProvider : HistoricalSnapshot → QuantSignals → Call τ EvaluatedDecision
  config : AppConfig
  feeRates : Option FeeRates := none

structure ReplayState (τ : Type) where
  totals : ReplayTotals
  provider : τ

namespace HistoricalReplayEngine

variable {τ : Type}

/-- Without an exchange to ask, the rates are those of the simulator. -/
def rates (R : HistoricalReplayEngine τ) : Except PyError FeeRates :=
  match R.feeRates with
  | some rates => .ok rates
  | none => ({} : FeeModel).rates

def proposedFees (rates : FeeRates) (d : ModelDecision) : Except PyError (Option FeeEstimate) :=
  if isEstimable d then (estimateFeesForDecision d d.marginUsdt d.leverage rates).map some
  else .ok none

/-- What the risk engine is told. The replay knows of no trade and no open position. -/
def riskContext (config : AppConfig) (rates : FeeRates) (totals : ReplayTotals)
    (snapshot : HistoricalSnapshot) (d : ModelDecision) : Except PyError RiskContext :=
  match CycleRunner.proposedSlippage config snapshot.toMarketSnapshot d with
  | .error e => .error e
  | .ok slippage =>
    match proposedFees rates d with
    | .error e => .error e
    | .ok fees =>
      .ok { dailyLossUsdt := totals.dailyLossUsdt
            totalLossUsdt := totals.totalLossUsdt
            fundingRate := snapshot.fundingRate
            openPositionsCount := some snapshot.openPositionsCount
            feeEstimate := fees
            slippageEstimate := slippage }

/-- What a step leaves of the totals: the loss of everything the risk engine lets through
counts, whatever the aggregator has said. -/
def totalsAfter (totals : ReplayTotals) (result : ReplayStepResult) : ReplayTotals :=
  if result.riskResult.decision.executable then totals.add result.decision.estimatedMaxLossUsdt
  else totals

/-- One row of the window. `row` is what its conversion to a snapshot gives. -/
def step (R : HistoricalReplayEngine τ) (rates : FeeRates) (row : Except PyError HistoricalSnapshot)
    (s : ReplayState τ) : Except PyError (ReplayStepResult × ReplayState τ) := do
  let snapshot ← row
  let quantSignals ← R.engines.computeQuantSignals snapshot
  let regime ← R.engines.assess snapshot
  let volatility ← R.engines.computeVolatilityAssessment snapshot
  let (decision, provider) ← match R.decisionProvider snapshot quantSignals s.provider with
    | (.error e, _) => .error e
    | (.ok decision, provider) => .ok (decision, provider)
  let aggregation ← R.aggregator.aggregate decision quantSignals regime volatility
  let context ← riskContext R.config rates s.totals snapshot decision.toModelDecision
  let riskResult ← validate decision.toModelDecision context R.config
  let result := ⟨snapshot, quantSignals, regime, volatility, decision, aggregation, riskResult⟩
  return (result, { totals := totalsAfter s.totals result, provider := provider })

/-- The loop over the window; a step that raises loses the ones before it. -/
def steps (R : HistoricalReplayEngine τ) (rates : FeeRates) :
    List (Except PyError HistoricalSnapshot) → ReplayState τ →
      Except PyError (List ReplayStepResult × ReplayState τ)
  | [], s => .ok ([], s)
  | row :: rows, s =>
    match R.step rates row s with
    | .error e => .error e
    | .ok (result, s) =>
      match steps R rates rows s with
      | .error e => .error e
      | .ok (results, s) => .ok (result :: results, s)

def run (R : HistoricalReplayEngine τ) (rows : List (Except PyError HistoricalSnapshot))
    (s : ReplayState τ) : Except PyError (List ReplayStepResult) :=
  match R.rates with
  | .error e => .error e
  | .ok rates => (R.steps rates rows s).map (·.1)

/-- What a completed step has computed from its inputs and the losses before it. -/
structure Computes (R : HistoricalReplayEngine τ) (rates : FeeRates) (s : ReplayState τ)
    (result : ReplayStepResult) (s' : ReplayState τ) : Prop where
  aggregation : R.aggregator.aggregate result.decision result.quantSignals result.regime
    result.volatility = .ok result.aggregation
  risk : ∃ context, riskContext R.config rates s.totals result.snapshot
    result.decision.toModelDecision = .ok context ∧
    validate result.decision.toModelDecision context R.config = .ok result.riskResult
  totals : s'.totals = totalsAfter s.totals result

theorem step_computes {R : HistoricalReplayEngine τ} {rates : FeeRates}
    (h : R.step rates row s = .ok (result, s')) :
    R.Computes rates s result s' := by
  unfold step at h
  simp only [bind, Except.bind, pure, Except.pure] at h
  rcases row with e | snapshot
  · cases h
  dsimp only at h
  split at h
  · cases h
  split at h
  · cases h
  split at h
  · cases h
  split at h
  · cases h
  split at h
  · cases h
  rename_i hagg
  split at h
  · cases h
  rename_i hctx
  split at h
  · cases h
  rename_i hrisk
  cases h
  exact ⟨hagg, ⟨_, hctx, hrisk⟩, rfl⟩

/-- The results of a completed loop are the records of a run of its steps. -/
theorem steps_run {R : HistoricalReplayEngine τ} {rates : FeeRates}
    (h : R.steps rates rows s = .ok (results, s')) :
    ∃ trace, Run (Recorded (R.Computes rates)) s trace s' ∧ trace.map (·.2.1) = results := by
  induction rows generalizing s results with
  | nil =>
    cases h
    exact ⟨[], .nil _, rfl⟩
  | cons row rows ih =>
    unfold steps at h
    split at h
    · cases h
    rename_i result s₁ hstep
    split at h
    · cases h
    rename_i rest s₂ hrest
    cases h
    obtain ⟨trace, hr, hresults⟩ := ih hrest
    refine ⟨(s, result, s₁) :: trace, .cons ⟨rfl, rfl, step_computes hstep⟩ hr, ?_⟩
    rw [List.map_cons, hresults]

theorem run_ok {R : HistoricalReplayEngine τ} (h : R.run rows s = .ok results) :
    ∃ rates trace s', R.rates = .ok rates ∧ Run (Recorded (R.Computes rates)) s trace s' ∧
      trace.map (·.2.1) = results := by
  unfold run at h
  split at h
  · cases h
  rename_i rates hrates
  rcases hsteps : R.steps rates rows s with e | ⟨results', s'⟩
  · rw [hsteps] at h
    cases h
  · rw [hsteps] at h
    cases h
    obtain ⟨trace, hr, hresults⟩ := steps_run hsteps
    exact ⟨rates, trace, s', hrates, hr, hresults⟩

end HistoricalReplayEngine

end FuturesBot
