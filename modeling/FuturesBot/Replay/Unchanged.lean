import FuturesBot.Replay.Comparison

namespace FuturesBot
open Lib

/-- What a live cycle made of a snapshot. All its rows carry the moment of the decision. -/
structure LiveCycle where
  botRunId : String
  decision : EvaluatedDecision
  aggregation : DecisionAggregationResult
  riskResult : RiskValidationResult
  symbol_eq : aggregation.symbol = decision.symbol

namespace LiveCycle

def decisionRecord (c : LiveCycle) : DecisionRecord := auditModelDecision c.decision c.botRunId

def aggregationRecord (c : LiveCycle) : DecisionAggregationRecord :=
  auditDecisionAggregation c.aggregation c.decision.timestampUtc c.botRunId

/-- The live path stops at an aggregation without action, before it asks the risk engine. -/
def riskRecord (c : LiveCycle) : Option RiskValidationRecord :=
  if c.aggregation.finalAction = .noOperar then none
  else some (auditRiskValidation c.riskResult c.decision.timestampUtc c.botRunId)

/-- So it is with the turn of the worker: where there is no such row, it stores none. -/
theorem riskRecord_none {c : LiveCycle} (h : c.riskRecord = none)
    (hask : CycleRunner.askModel o snapshot =
      .ok (some (c.decision.toModelDecision, c.aggregation.finalAction)))
    (A : ExchangeAdapter σ) (config : AppConfig) (reliable : Bool) (st : PipelineState σ) :
    (CycleRunner.processNested A config o reliable snapshot st).session.working.riskValidations =
      st.session.working.riskValidations := by
  have hstop : c.aggregation.finalAction = .noOperar := by
    unfold riskRecord at h
    split at h
    · assumption
    · cases h
  unfold CycleRunner.processNested CycleRunner.processSymbol
  rw [hask, hstop]
  dsimp only
  rw [if_pos rfl]
  dsimp only [CycleRunner.auditDecision]
  split
  · unfold Session.auditDecisionAggregation Session.auditModelDecision
    split <;> rfl
  · rfl

/-- The rows of the cycle are among those stored. -/
structure Stored (c : LiveCycle) (h : HistoricalRecords) : Prop where
  decision : c.decisionRecord ∈ h.decisions
  aggregation : c.aggregationRecord ∈ h.aggregations
  risk : ∀ row ∈ c.riskRecord, row ∈ h.risks

/-- The step has the outcomes of the cycle, as far as the cycle went. -/
structure Reproduced (c : LiveCycle) (step : ReplayStepResult) : Prop where
  moment : step.snapshot.timestampUtc = c.decision.timestampUtc
  decision : step.decision = c.decision
  finalAction : step.aggregation.finalAction = c.aggregation.finalAction
  score : step.aggregation.aggregatedScore = c.aggregation.aggregatedScore
  risk : c.aggregation.finalAction ≠ .noOperar → step.riskResult.decision = c.riskResult.decision

/-- Nothing near the cycle has been stored in the window, or the model stayed out and the
rows next to it stayed out, too, down to a validation that the cycle itself never stores. -/
def Unnoticed (c : LiveCycle) (h : HistoricalRecords) : Prop :=
  (h.nearestDecision c.decision.timestampUtc = none ∧
    h.nearestAggregation c.decision.timestampUtc = none) ∨
  c.decision.decision = .noOperar ∧ ∃ decision aggregation risk score,
    h.nearestDecision c.decision.timestampUtc = some decision ∧
    decision.action = "NO_OPERAR" ∧
    h.nearestAggregation c.decision.timestampUtc = some aggregation ∧
    aggregation.finalAction = "NO_OPERAR" ∧ aggregation.aggregatedScore = some score ∧
    |score - c.aggregation.aggregatedScore| ≤ 1 / 1000000 ∧
    h.nearestRisk c.decision.timestampUtc = some risk ∧ risk.result = "NO_OPERAR"

/-- No other cycle has stored its decision or aggregation at the same moment. -/
def Alone (c : LiveCycle) (h : HistoricalRecords) : Prop :=
  (∀ row ∈ h.decisions, row.timestamp = c.decision.timestampUtc → row = c.decisionRecord) ∧
  ∀ row ∈ h.aggregations, row.timestamp = c.decision.timestampUtc → row = c.aggregationRecord

end LiveCycle

/-- Every decision row is one of the audit. -/
def HistoricalRecords.Audited (h : HistoricalRecords) : Prop :=
  ∀ row ∈ h.decisions, ∃ d run, row = auditModelDecision d run

/-- The action of a stored decision is never the direction that the comparison puts next
to it. -/
theorem auditModelDecision_action {k : DecisionType}
    (h : (auditModelDecision d run).action = k.value) :
    k = .noOperar := by
  unfold auditModelDecision at h
  cases k with
  | long | short =>
    dsimp only at h
    split at h <;> simp [DecisionType.value] at h
  | noOperar => rfl

theorem validate_unexecuted (hd : d.execute = false) (h : validate d ctx config = .ok r) :
    r.decision = .noOperar := by
  unfold validate validateWith at h
  dsimp only at h
  rw [if_pos (by simp [hd])] at h
  exact congrArg (·.decision) (RiskValidationResult.build_ok h).1

theorem EvaluatedDecision.execute_of_noOperar {d : EvaluatedDecision}
    (h : d.decision = .noOperar) : d.execute = false := by
  by_contra hx
  exact d.decision_of_execute (by simpa using hx) h

namespace HistoricalReplayEngine

variable {τ : Type} {R : HistoricalReplayEngine τ} {rates : FeeRates} {step : ReplayStepResult}

/-- Every stage of a replayed step stays out with the model. -/
theorem Computes.staysOut (h : R.Computes rates s step s')
    (hd : step.decision.decision = .noOperar) :
    step.aggregation.finalAction = .noOperar ∧ step.riskResult.decision = .noOperar := by
  obtain ⟨context, _, hvalid⟩ := h.risk
  exact ⟨(DecisionAggregator.aggregate_noOperar_iff h.aggregation).mpr (.inl hd),
    validate_unexecuted (EvaluatedDecision.execute_of_noOperar hd) hvalid⟩

theorem Computes.anyChanged_iff (hc : R.Computes rates s step s') {c : LiveCycle}
    (hr : c.Reproduced step) {h : HistoricalRecords} (ha : h.Audited) :
    (compareStep h step).anyChanged = false ↔ c.Unnoticed h := by
  rw [anyChanged_eq_false, hr.moment, hr.score, LiveCycle.Unnoticed]
  apply or_congr Iff.rfl
  constructor
  · intro hfound
    obtain ⟨decision, aggregation, risk, score, hdecision, haction, haggregation, hfinal, hscore,
      hclose, hrisk, hresult⟩ := hfound
    obtain ⟨d, run, rfl⟩ := ha decision (findNearest_mem hdecision)
    have hout := auditModelDecision_action haction
    obtain ⟨hfinalOut, hriskOut⟩ := hc.staysOut hout
    rw [hout] at haction
    rw [hfinalOut] at hfinal
    rw [hriskOut] at hresult
    exact ⟨hr.decision ▸ hout, _, aggregation, risk, score, hdecision, haction, haggregation,
      hfinal, hscore, hclose, hrisk, hresult⟩
  · intro hunnoticed
    obtain ⟨hout, decision, aggregation, risk, score, hdecision, haction, haggregation, hfinal,
      hscore, hclose, hrisk, hresult⟩ := hunnoticed
    have hout' : step.decision.decision = .noOperar := hr.decision ▸ hout
    obtain ⟨hfinalOut, hriskOut⟩ := hc.staysOut hout'
    rw [hout', hfinalOut, hriskOut]
    exact ⟨decision, aggregation, risk, score, hdecision, haction, haggregation, hfinal, hscore,
      hclose, hrisk, hresult⟩

end HistoricalReplayEngine

namespace LiveCycle

variable {c : LiveCycle} {h : HistoricalRecords}

/-- With its moment to itself a cycle finds its own rows, and only the validation is left to
chance. -/
theorem unnoticed_iff (hd : c.decisionRecord ∈ h.decisions)
    (hm : c.aggregationRecord ∈ h.aggregations) (ha : c.Alone h)
    (hout : c.decision.decision = .noOperar → c.aggregation.finalAction = .noOperar) :
    c.Unnoticed h ↔ c.decision.decision = .noOperar ∧
      ∃ risk, h.nearestRisk c.decision.timestampUtc = some risk ∧ risk.result = "NO_OPERAR" := by
  obtain ⟨decision, hdm, hdecision, hdt⟩ := h.nearestDecision_exact hd rfl
  obtain ⟨aggregation, ham, haggregation, hat⟩ := h.nearestAggregation_exact hm rfl
  have hown := ha.1 decision hdm hdt
  have hown' := ha.2 aggregation ham hat
  constructor
  · intro hunnoticed
    rcases hunnoticed with hnone | hunnoticed
    · cases hdecision.symm.trans hnone.1
    · obtain ⟨hd, _, _, risk, _, _, _, _, _, _, _, hrisk, hresult⟩ := hunnoticed
      exact ⟨hd, risk, hrisk, hresult⟩
  · intro hchance
    obtain ⟨hd, risk, hrisk, hresult⟩ := hchance
    refine .inr ⟨hd, decision, aggregation, risk, c.aggregation.aggregatedScore, hdecision, ?_,
      haggregation, ?_, ?_, ?_, hrisk, hresult⟩
    · rw [hown]
      simp [decisionRecord, auditModelDecision, EvaluatedDecision.execute_of_noOperar hd]
    · rw [hown']
      simp [aggregationRecord, auditDecisionAggregation, hout hd, DecisionType.value]
    · rw [hown']
      rfl
    · simp

end LiveCycle

namespace HistoricalReplayEngine

variable {τ : Type} {R : HistoricalReplayEngine τ} {step : ReplayStepResult}

/-- A step of a completed replay that has the outcomes of a stored cycle is reported as
unchanged exactly if the cycle goes unnoticed among the rows of the window. Every decision
with a side is reported; a decision to stay out is unless another cycle has left its
validation close by. -/
theorem reproduced_step_unchanged_iff {c : LiveCycle} {h : HistoricalRecords}
    (hrun : R.run rows s = .ok results) (hm : step ∈ results) (hr : c.Reproduced step)
    (hs : c.Stored h) (ha : h.Audited) (w : SnapshotWindow) (run : Option String) :
    ∃ report, DecisionComparator.compare R rows s h w run = .ok report ∧
      compareStep (h.within w run) step ∈ report.steps ∧
      ((compareStep (h.within w run) step).anyChanged = false ↔ c.Unnoticed (h.within w run)) ∧
      (w.Contains run c.decisionRecord.toRecordKey → c.Alone (h.within w run) →
        (c.Unnoticed (h.within w run) ↔ c.decision.decision = .noOperar ∧
          ∃ risk, (h.within w run).nearestRisk c.decision.timestampUtc = some risk ∧
            risk.result = "NO_OPERAR")) := by
  obtain ⟨rates, trace, s', _, htrace, hresults⟩ := run_ok hrun
  rw [← hresults] at hm
  obtain ⟨t, ht, rfl⟩ := List.mem_map.mp hm
  have hc := htrace.each (P := R.Computes rates) (fun _ _ _ hc => hc) t ht
  have haudited : (h.within w run).Audited :=
    fun row hrow => ha row (mem_listBySymbolAndRange.mp hrow).1
  refine ⟨compareSteps (h.within w run) results, ?_, ?_, hc.anyChanged_iff hr haudited, ?_⟩
  · rw [DecisionComparator.compare, hrun]
    rfl
  · rw [← hresults]
    exact List.mem_map_of_mem hm
  · intro hin halone
    have hin' : w.Contains run c.aggregationRecord.toRecordKey := by
      refine ⟨?_, hin.2⟩
      rw [← hin.1]
      exact c.symbol_eq
    have hout : c.decision.decision = .noOperar → c.aggregation.finalAction = .noOperar := by
      intro hd
      rw [← hr.decision] at hd
      rw [← hr.finalAction]
      exact (hc.staysOut hd).1
    exact LiveCycle.unnoticed_iff (mem_listBySymbolAndRange.mpr ⟨hs.decision, hin⟩)
      (mem_listBySymbolAndRange.mpr ⟨hs.aggregation, hin'⟩) halone hout

end HistoricalReplayEngine

namespace LiveCycle

/-- The rows of a single cycle. -/
def records (c : LiveCycle) : HistoricalRecords where
  decisions := [c.decisionRecord]
  aggregations := [c.aggregationRecord]
  risks := c.riskRecord.toList

theorem records_stored (c : LiveCycle) : c.Stored c.records :=
  ⟨List.mem_singleton_self _, List.mem_singleton_self _, fun _ h => Option.mem_toList.mpr h⟩

theorem records_audited (c : LiveCycle) : c.records.Audited :=
  fun _ h => ⟨c.decision, c.botRunId, List.mem_singleton.mp h⟩

end LiveCycle

/-- The first microsecond of the sample's symbol. -/
def sampleWindow : SnapshotWindow := ⟨"BTCUSDT", 0, 1, Nat.zero_lt_one⟩

def sampleReplay : HistoricalReplayEngine Unit := replayOf calmEngines convinced

/-- The sample is replayed, and a live cycle has had the same outcomes. -/
theorem sample_reproduced : ∃ (step : ReplayStepResult) (c : LiveCycle),
    sampleReplay.run [.ok historicalSample] freshReplay = .ok [step] ∧ c.Reproduced step ∧
    c.decision = convinced := by
  have hanswer : calmEngines.Answer historicalSample :=
    ⟨strongSignals, .trending, calmVolatility, rfl, rfl, rfl⟩
  obtain ⟨step, hrun, hsnapshot, hd, _⟩ := replayOf_run hanswer convinced rfl
  obtain ⟨rates, trace, s', _, hr, hresults⟩ := HistoricalReplayEngine.run_ok hrun
  have hm : step ∈ trace.map (·.2.1) := by
    rw [hresults]
    exact List.mem_singleton_self step
  obtain ⟨t, ht, rfl⟩ := List.mem_map.mp hm
  have hc := hr.each (P := (replayOf calmEngines convinced).Computes rates)
    (fun _ _ _ hc => hc) t ht
  have hsymbol := DecisionAggregator.aggregate_symbol hc.aggregation
  refine ⟨t.2.1, ⟨"run", t.2.1.decision, t.2.1.aggregation, t.2.1.riskResult, hsymbol⟩, hrun,
    ⟨?_, rfl, rfl, rfl, fun _ => rfl⟩, hd⟩
  change t.2.1.snapshot.timestampUtc = t.2.1.decision.timestampUtc
  rw [hsnapshot, hd]
  rfl

theorem long_cycle_unchanged_iff : ∃ (step : ReplayStepResult) (c : LiveCycle),
    c.Reproduced step ∧ c.decision = convinced ∧
    ((compareStep (c.records.within sampleWindow none) step).anyChanged = false ↔
      c.Unnoticed (c.records.within sampleWindow none)) := by
  obtain ⟨step, c, hrun, hr, hd⟩ := sample_reproduced
  obtain ⟨_, _, _, hiff, _⟩ := HistoricalReplayEngine.reproduced_step_unchanged_iff hrun
    (List.mem_singleton_self step) hr c.records_stored c.records_audited sampleWindow none
  exact ⟨step, c, hr, hd, hiff⟩

/-- A cycle that went long, replayed as it was, is reported as changed: its action was
stored as OPEN and is compared with LONG. -/
theorem faithful_long_reported :
    ¬∀ (R : HistoricalReplayEngine Unit) rows s results step (c : LiveCycle) h w run,
      R.run rows s = .ok results → step ∈ results → c.Reproduced step → c.Stored h → h.Audited →
      w.Contains run c.decisionRecord.toRecordKey →
      (compareStep (h.within w run) step).anyChanged = false := by
  intro hclaim
  obtain ⟨step, c, hrun, hr, hd⟩ := sample_reproduced
  have hin : sampleWindow.Contains none c.decisionRecord.toRecordKey := by
    rw [LiveCycle.decisionRecord, hd]
    exact ⟨rfl, Nat.zero_le 0, Nat.zero_lt_one, by simp⟩
  have hsame := hclaim _ _ _ _ step c c.records sampleWindow none hrun
    (List.mem_singleton_self step) hr c.records_stored c.records_audited hin
  rcases anyChanged_eq_false.mp hsame with hnone | hfound
  · obtain ⟨_, _, hfound, _⟩ := (c.records.within sampleWindow none).nearestDecision_exact
      (mem_listBySymbolAndRange.mpr ⟨List.mem_singleton_self _, hin⟩) hr.moment.symm
    cases hnone.1.symm.trans hfound
  · obtain ⟨decision, _, _, _, hdecision, haction, _⟩ := hfound
    have hm := (mem_listBySymbolAndRange.mp (findNearest_mem hdecision)).1
    obtain ⟨d, run, rfl⟩ := c.records_audited decision hm
    have hout := auditModelDecision_action haction
    rw [hr.decision, hd] at hout
    cases hout

end FuturesBot
