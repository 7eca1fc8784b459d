import FuturesBot.Control.KillSwitch
import FuturesBot.Replay.Metrics

namespace FuturesBot
open Lib CycleRunner

/-- The two gates that the live cycle has before an order: the aggregator's action, which
the risk engine does not look at, and the verdict of the risk engine. -/
def ReplayStepResult.LivePlaces (r : ReplayStepResult) : Prop :=
  r.aggregation.finalAction ≠ .noOperar ∧ r.riskResult.decision.executable

instance (r : ReplayStepResult) : Decidable r.LivePlaces :=
  inferInstanceAs (Decidable (_ ∧ _))

/-- The state of a live turn once the decision and its aggregation are on record. -/
def ReplayStepResult.audited (config : AppConfig) (r : ReplayStepResult) (st : PipelineState σ) :
    PipelineState σ :=
  let d := r.decision.toModelDecision
  { st with session := auditDecision config d r.aggregation.finalAction st.session }

/-- A live turn on the snapshot gets the same decision and, if it asks, the same verdicts. -/
structure SameInputs (A : ExchangeAdapter σ) (config : AppConfig) (o : DecisionSources)
    (reliable : Bool) (st : PipelineState σ) (r : ReplayStepResult) : Prop where
  decision : askModel o r.snapshot.toMarketSnapshot =
    .ok (some (r.decision.toModelDecision, r.aggregation.finalAction))
  risk : r.aggregation.finalAction ≠ .noOperar → ∃ slippage x,
    assess A config reliable r.snapshot.toMarketSnapshot r.decision.toModelDecision
      (r.audited config st) = (.ok (r.riskResult, slippage), x)

/-- The live turn on the same inputs goes on to its order exactly behind these gates. -/
theorem SameInputs.livePlaces_iff {r : ReplayStepResult} (h : SameInputs A config o reliable st r) :
    r.LivePlaces ↔ ∃ v, verdict A config o reliable r.snapshot.toMarketSnapshot st = some v ∧
      v.result.decision.executable := by
  constructor
  · intro hplaces
    obtain ⟨haction, hexecutable⟩ := hplaces
    obtain ⟨slippage, x, hrisk⟩ := h.risk haction
    exact ⟨⟨r.decision.toModelDecision, r.riskResult, slippage,
        { r.audited config st with
          exchange := x
          session := auditValidation config r.riskResult (r.audited config st).session }⟩,
      verdict_iff.mpr ⟨_, x, h.decision, haction, hrisk, rfl⟩, hexecutable⟩
  · intro hturn
    obtain ⟨v, hv, hexecutable⟩ := hturn
    obtain ⟨action, x, hask, haction, hassess, _⟩ := verdict_iff.mp hv
    rw [h.decision] at hask
    have hd : r.decision.toModelDecision = v.decision ∧ r.aggregation.finalAction = action := by
      simpa using hask
    obtain ⟨hd, rfl⟩ := hd
    obtain ⟨slippage, x', hrisk⟩ := h.risk haction
    rw [ReplayStepResult.audited, hd] at hrisk
    rw [hrisk] at hassess
    have hr : r.riskResult = v.result := congrArg (·.1) (Except.ok.inj (Prod.mk.inj hassess).1)
    exact ⟨haction, by rw [hr]; exact hexecutable⟩

namespace HistoricalReplayEngine

variable {τ : Type} {R : HistoricalReplayEngine τ} {rates : FeeRates}

/-- The risk engine lets the decision through, given the losses so far. -/
def Approves (R : HistoricalReplayEngine τ) (rates : FeeRates) (s : ReplayState τ)
    (snapshot : HistoricalSnapshot) (d : ModelDecision) : Prop :=
  d.execute ∧ ∃ context, riskContext R.config rates s.totals snapshot d = .ok context ∧
    GatesClear .python d context R.config ∧ Sizable context R.config

/-- The aggregator turns a decision down that the risk engine would let through. -/
def Overruled (R : HistoricalReplayEngine τ) (rates : FeeRates) (s : ReplayState τ)
    (r : ReplayStepResult) : Prop :=
  R.aggregator.TurnsDown r.decision r.quantSignals r.regime r.volatility ∧
    R.Approves rates s r.snapshot r.decision.toModelDecision

theorem Computes.executable_iff (h : R.Computes rates s r s') :
    r.riskResult.decision.executable ↔
      R.Approves rates s r.snapshot r.decision.toModelDecision := by
  obtain ⟨context, hcontext, hvalid⟩ := h.risk
  constructor
  · intro hx
    obtain ⟨hexecute, hclear, hsizable, _⟩ := validate_executable hvalid hx
    exact ⟨hexecute, context, hcontext, hclear, hsizable⟩
  · intro hx
    obtain ⟨hexecute, context', hcontext', hclear, hsizable⟩ := hx
    cases hcontext.symm.trans hcontext'
    obtain ⟨r', hvalid', hexecutable⟩ := validate_of_gatesClear hexecute hclear hsizable
    cases hvalid.symm.trans hvalid'
    exact hexecutable

/-- What the risk engine lets through is a decision to trade, so the filter of the metrics
adds nothing to its verdict. -/
theorem Computes.isExecuted_iff (h : R.Computes rates s r s') :
    r.isExecuted ↔ r.riskResult.decision.executable := by
  unfold ReplayStepResult.isExecuted
  constructor
  · intro hx
    simp only [Bool.and_eq_true] at hx
    exact hx.2
  · intro hx
    have hexecute := (h.executable_iff.mp hx).1
    simp [hx, hexecute, r.decision.decision_of_execute hexecute]

theorem Computes.overruled_iff (h : R.Computes rates s r s') : R.Overruled rates s r ↔
    r.riskResult.decision.executable ∧ r.aggregation.finalAction = .noOperar := by
  rw [Overruled, ← h.executable_iff, and_comm, DecisionAggregator.aggregate_noOperar_iff
    h.aggregation]
  constructor
  · exact fun hboth => ⟨hboth.1, .inr hboth.2⟩
  · intro hboth
    obtain ⟨hx, hout | hdown⟩ := hboth
    · exact absurd hout (r.decision.decision_of_execute (h.executable_iff.mp hx).1)
    · exact ⟨hx, hdown⟩

/-- A step counts, and adds to the totals, exactly if the live cycle places an order. -/
def StepAgrees (s : ReplayState τ) (r : ReplayStepResult) (s' : ReplayState τ) : Prop :=
  (r.isExecuted ↔ r.LivePlaces) ∧
  s'.totals = if r.LivePlaces then s.totals.add r.decision.estimatedMaxLossUsdt else s.totals

theorem Computes.agrees_iff (h : R.Computes rates s r s') :
    StepAgrees s r s' ↔ ¬R.Overruled rates s r := by
  rw [h.overruled_iff, StepAgrees, h.isExecuted_iff]
  constructor
  · intro hagrees hover
    exact (hagrees.1.mp hover.1).1 hover.2
  · intro hnot
    have hplaces : r.riskResult.decision.executable ↔ r.LivePlaces :=
      ⟨fun hx => ⟨fun hout => hnot ⟨hx, hout⟩, hx⟩, fun hp => hp.2⟩
    refine ⟨hplaces, ?_⟩
    rw [h.totals, totalsAfter]
    exact if_congr hplaces rfl rfl

/-- The replay agrees with the live cycle in every step of a run exactly if the aggregator
has turned nothing down in it that the risk engine lets through. The steps that the metrics
count are then those in which the live cycle places an order. -/
theorem replay_agrees_iff (h : R.run rows s = .ok results) :
    ∃ rates trace s', R.rates = .ok rates ∧ Run (Recorded (R.Computes rates)) s trace s' ∧
      trace.map (·.2.1) = results ∧
      ((∀ t ∈ trace, StepAgrees t.1 t.2.1 t.2.2) ↔ ∀ t ∈ trace, ¬R.Overruled rates t.1 t.2.1) ∧
      ((∀ t ∈ trace, ¬R.Overruled rates t.1 t.2.1) →
        (computeReplayMetrics results).executedSteps = results.countP (·.LivePlaces)) := by
  obtain ⟨rates, trace, s', hrates, hr, hresults⟩ := run_ok h
  have heach : ∀ t ∈ trace, StepAgrees t.1 t.2.1 t.2.2 ↔ ¬R.Overruled rates t.1 t.2.1 :=
    hr.each (fun _ _ _ hc => hc.agrees_iff)
  refine ⟨rates, trace, s', hrates, hr, hresults, forall₂_congr heach, ?_⟩
  intro hnone
  rw [executedSteps_eq]
  apply List.countP_congr
  intro r hm
  rw [← hresults] at hm
  obtain ⟨t, ht, rfl⟩ := List.mem_map.mp hm
  rw [decide_eq_true_eq]
  exact ((heach t ht).mpr (hnone t ht)).1

end HistoricalReplayEngine

/-- A decision that the risk engine approves, with this much confidence in it. -/
def evaluatedSample (confidence : Amount) (h : 0 ≤ confidence ∧ confidence ≤ 1) :
    EvaluatedDecision :=
  { sampleDecision with
    timestampUtc := 0, estimatedMaxLossUsdt := 5, confidence := confidence,
    maxLoss_nonneg := by norm_num, confidence_range := h }

def historicalSample : HistoricalSnapshot := { sampleSnapshot with timestampUtc := 0 }

/-- A replay in which the provider always proposes the decision. -/
def replayOf (engines : AnalysisEngines) (d : EvaluatedDecision) : HistoricalReplayEngine Unit where
  engines := engines
  aggregator := ⟨.python, id, fun _ h h' => ⟨h, h'⟩⟩
  decisionProvider _ _ u := (.ok d, u)
  config := defaultConfig

def freshReplay : ReplayState Unit := ⟨{}, ()⟩

/-- What the engines make of the snapshot, when they return. -/
def AnalysisEngines.Answer (engines : AnalysisEngines) (snapshot : HistoricalSnapshot) : Prop :=
  ∃ quantSignals regime volatility, engines.computeQuantSignals snapshot = .ok quantSignals ∧
    engines.assess snapshot = .ok regime ∧
    engines.computeVolatilityAssessment snapshot = .ok volatility

/-- The verdict of the risk engine on the sample does not depend on the engines. -/
theorem sample_approved : ∃ rates context r, ({} : FeeModel).rates = .ok rates ∧
    HistoricalReplayEngine.riskContext defaultConfig rates {} historicalSample sampleDecision =
      .ok context ∧
    validate sampleDecision context defaultConfig = .ok r ∧ r.decision.executable := by
  have he : (({} : FeeModel).rates.toOption.bind fun rates =>
      (HistoricalReplayEngine.riskContext defaultConfig rates {} historicalSample
        sampleDecision).toOption.bind fun context =>
      (validate sampleDecision context defaultConfig).toOption.map (·.decision.executable)) =
      some true := by
    decide +kernel
  rcases hrates : ({} : FeeModel).rates with e | rates
  · rw [hrates] at he
    cases he
  rw [hrates] at he
  rcases hcontext : HistoricalReplayEngine.riskContext defaultConfig rates {} historicalSample
    sampleDecision with e | context
  · simp [hcontext, Except.toOption] at he
  rcases hvalid : validate sampleDecision context defaultConfig with e | r
  · simp [hcontext, hvalid, Except.toOption] at he
  · refine ⟨rates, context, r, rfl, hcontext, hvalid, ?_⟩
    simpa [hcontext, hvalid, Except.toOption] using he

/-- Whatever the engines make of it, the sample is replayed in one step. -/
theorem replayOf_run {engines : AnalysisEngines} (hanswer : engines.Answer historicalSample)
    (d : EvaluatedDecision) (hd : d.toModelDecision = sampleDecision) :
    ∃ r, (replayOf engines d).run [.ok historicalSample] freshReplay = .ok [r] ∧
      r.snapshot = historicalSample ∧ r.decision = d ∧ r.riskResult.decision.executable ∧
      engines.computeQuantSignals historicalSample = .ok r.quantSignals ∧
      engines.assess historicalSample = .ok r.regime ∧
      engines.computeVolatilityAssessment historicalSample = .ok r.volatility := by
  obtain ⟨quantSignals, regime, volatility, hquant, hregime, hvolatility⟩ := hanswer
  obtain ⟨rates, context, risk, hrates, hcontext, hvalid, hexecutable⟩ := sample_approved
  obtain ⟨aggregation, hagg⟩ :=
    (replayOf engines d).aggregator.aggregate_total d quantSignals regime volatility
  have hstep : ∃ s', (replayOf engines d).step rates (.ok historicalSample) freshReplay =
      .ok (⟨historicalSample, quantSignals, regime, volatility, d, aggregation, risk⟩, s') := by
    unfold HistoricalReplayEngine.step
    simp only [replayOf] at hagg
    simp [bind, Except.bind, pure, Except.pure, hquant, hregime, hvolatility, hagg, hd, hcontext,
      hvalid, replayOf, freshReplay]
  obtain ⟨s', hstep⟩ := hstep
  refine ⟨⟨historicalSample, quantSignals, regime, volatility, d, aggregation, risk⟩, ?_, rfl,
    rfl, hexecutable, hquant, hregime, hvolatility⟩
  have hr : (replayOf engines d).rates = .ok rates := hrates
  simp only [HistoricalReplayEngine.run, hr, HistoricalReplayEngine.steps, hstep]
  rfl

/-- The claim about a run of the replay. -/
def RunAgrees {τ : Type} (R : HistoricalReplayEngine τ) (s : ReplayState τ)
    (results : List ReplayStepResult) : Prop :=
  ∃ rates trace s', R.rates = .ok rates ∧ Run (Recorded (R.Computes rates)) s trace s' ∧
    trace.map (·.2.1) = results ∧
    ∀ t ∈ trace, HistoricalReplayEngine.StepAgrees t.1 t.2.1 t.2.2

def halfConvinced : EvaluatedDecision := evaluatedSample (1 / 2) (by norm_num)

/-- Half of the confidence is enough for the risk engine but not for the aggregator. The
replay counts the step, whatever the signals are, and the live cycle places no order. -/
theorem unconvinced_step_counted :
    ¬∃ engines : AnalysisEngines, engines.Answer historicalSample ∧
      ∀ (R : HistoricalReplayEngine Unit) rows s results, R.engines = engines →
        R.run rows s = .ok results → RunAgrees R s results := by
  intro h
  obtain ⟨engines, hanswer, hclaim⟩ := h
  obtain ⟨r, hrun, _, hd, hexecutable, _⟩ := replayOf_run hanswer halfConvinced rfl
  obtain ⟨rates, trace, s', _, hr, hresults, hagrees⟩ := hclaim _ _ _ _ rfl hrun
  have hm : r ∈ trace.map (·.2.1) := by
    rw [hresults]
    exact List.mem_singleton_self r
  obtain ⟨t, ht, rfl⟩ := List.mem_map.mp hm
  have hcomputes := hr.each (P := (replayOf engines halfConvinced).Computes rates)
    (fun _ _ _ hc => hc) t ht
  have hdown : t.2.1.aggregation.finalAction = .noOperar := by
    rw [DecisionAggregator.aggregate_noOperar_iff hcomputes.aggregation, hd]
    have hunsure : halfConvinced.confidence < minGptConfidence := by
      norm_num [halfConvinced, evaluatedSample, minGptConfidence]
    exact .inr (.inl (detectContradictions_of_unsure hunsure _ _))
  have hplaces := (hagrees t ht).1.mp (hcomputes.isExecuted_iff.mpr hexecutable)
  exact hplaces.1 hdown

def strongSignals : QuantSignals where
  signalStrengthScore := some 1
  valid := by simp [QuantSignalsFields.Valid, QuantSignalsFields.individual]

def calmVolatility : VolatilityAssessment := ⟨0, by norm_num⟩

/-- Strong signals in a calm trend. -/
def calmEngines : AnalysisEngines where
  computeQuantSignals _ := .ok strongSignals
  assess _ := .ok .trending
  computeVolatilityAssessment _ := .ok calmVolatility

theorem one_in_range : (0 : Amount) ≤ 1 ∧ (1 : Amount) ≤ 1 := ⟨zero_le_one, le_rfl⟩

def convinced : EvaluatedDecision := evaluatedSample 1 one_in_range

theorem convinced_followed : ¬(replayOf calmEngines convinced).aggregator.TurnsDown convinced
    strongSignals .trending calmVolatility := by
  have hnone : detectContradictions .python convinced strongSignals = [] := by decide +kernel
  have hscore : minScoreToTrade ≤ (replayOf calmEngines convinced).aggregator.score convinced
      strongSignals .trending calmVolatility := by decide +kernel
  intro hdown
  rcases hdown with hdown | hdown
  · exact hdown hnone
  · exact absurd hdown (not_lt.mpr hscore)

theorem convinced_run_agrees : ∃ results,
    (replayOf calmEngines convinced).run [.ok historicalSample] freshReplay = .ok results ∧
    RunAgrees (replayOf calmEngines convinced) freshReplay results := by
  have hanswer : calmEngines.Answer historicalSample :=
    ⟨strongSignals, .trending, calmVolatility, rfl, rfl, rfl⟩
  obtain ⟨r, hrun, _, hd, _, hquant, hregime, hvolatility⟩ := replayOf_run hanswer convinced rfl
  obtain ⟨rates, trace, s', hrates, hr, hresults, hiff, _⟩ :=
    HistoricalReplayEngine.replay_agrees_iff hrun
  refine ⟨[r], hrun, rates, trace, s', hrates, hr, hresults, hiff.mpr ?_⟩
  intro t ht hover
  have hm : t.2.1 ∈ [r] := by
    rw [← hresults]
    exact List.mem_map_of_mem ht
  have hdown := hover.1
  rw [List.mem_singleton.mp hm, hd, ← Except.ok.inj hquant, ← Except.ok.inj hregime,
    ← Except.ok.inj hvolatility] at hdown
  exact convinced_followed hdown

end FuturesBot
