import FuturesBot.Replay.LiveAgreement

namespace FuturesBot
open Lib

/-- The text that a verdict is stored under. -/
def RiskDecision.value : RiskDecision → String
  | .approve => "APPROVE"
  | .adjustDown => "ADJUST_DOWN"
  | .block => "BLOCK"
  | .noOperar => "NO_OPERAR"

/-- What the rows of the audit are looked up by. -/
structure RecordKey where
  botRunId : String
  symbol : Symbol
  timestamp : Timestamp

structure DecisionRecord extends RecordKey where
  action : String
  direction : Option String

structure DecisionAggregationRecord extends RecordKey where
  aggregatedScore : Option Amount
  finalAction : String

structure RiskValidationRecord extends RecordKey where
  result : String

/-- The row of `audit_model_decision`. What was resolved goes into the action and the side
into the direction. -/
def auditModelDecision (d : EvaluatedDecision) (botRunId : String) : DecisionRecord where
  botRunId := botRunId
  symbol := d.symbol
  timestamp := d.timestampUtc
  action := if d.execute then "OPEN" else "NO_OPERAR"
  direction := if d.decision = .noOperar then none else some d.decision.value

def auditDecisionAggregation (r : DecisionAggregationResult) (timestamp : Timestamp)
    (botRunId : String) : DecisionAggregationRecord where
  botRunId := botRunId
  symbol := r.symbol
  timestamp := timestamp
  aggregatedScore := some r.aggregatedScore
  finalAction := r.finalAction.value

def auditRiskValidation (r : RiskValidationResult) (timestamp : Timestamp) (botRunId : String) :
    RiskValidationRecord where
  botRunId := botRunId
  symbol := r.symbol
  timestamp := timestamp
  result := r.decision.value

structure SnapshotWindow where
  symbol : Symbol
  periodStart : Timestamp
  periodEnd : Timestamp
  end_after_start : periodStart < periodEnd

/-- The row belongs to the window, and to the run if one is asked for. -/
def SnapshotWindow.Contains (w : SnapshotWindow) (botRunId : Option String) (k : RecordKey) :
    Prop :=
  k.symbol = w.symbol ∧ w.periodStart ≤ k.timestamp ∧ k.timestamp < w.periodEnd ∧
    ∀ run ∈ botRunId, k.botRunId = run

instance (w : SnapshotWindow) (botRunId : Option String) (k : RecordKey) :
    Decidable (w.Contains botRunId k) :=
  inferInstanceAs (Decidable (_ ∧ _))

/-- The rows of a window by their time, the earlier stored first. -/
def listBySymbolAndRange (key : α → RecordKey) (w : SnapshotWindow) (botRunId : Option String)
    (rows : List α) : List α :=
  (rows.filter (fun row => w.Contains botRunId (key row))).insertionSort
    (fun a b => (key a).timestamp ≤ (key b).timestamp)

theorem mem_listBySymbolAndRange {key : α → RecordKey} {rows : List α} :
    row ∈ listBySymbolAndRange key w botRunId rows ↔
      row ∈ rows ∧ w.Contains botRunId (key row) := by
  rw [listBySymbolAndRange, List.mem_insertionSort, List.mem_filter, decide_eq_true_eq]

/-- Five minutes, in microseconds. -/
def matchTolerance : ℕ := 5 * 60 * 1000000

/-- How far apart two moments are. -/
def apart (a b : Timestamp) : ℕ := (a - b) + (b - a)

theorem apart_eq_zero {a b : Timestamp} : apart a b = 0 ↔ a = b := by
  rw [apart, Nat.add_eq_zero_iff, Nat.sub_eq_zero_iff_le, Nat.sub_eq_zero_iff_le]
  exact ⟨fun h => Nat.le_antisymm h.1 h.2, fun h => ⟨h.le, h.ge⟩⟩

def nearestFrom (key : α → RecordKey) (target : Timestamp) : Option α → ℕ → List α → Option α
  | best, _, [] => best
  | best, bestDelta, record :: records =>
    if apart (key record).timestamp target < bestDelta then
      nearestFrom key target (some record) (apart (key record).timestamp target) records
    else nearestFrom key target best bestDelta records

/-- The row closest to the target; the first one of several. The limit is a second above the
tolerance. -/
def findNearest (key : α → RecordKey) (records : List α) (target : Timestamp) : Option α :=
  nearestFrom key target none (matchTolerance + 1000000) records

section
variable {key : α → RecordKey} {target : Timestamp} {records : List α}

/-- The loop either leaves what it had, as no row lies under its limit, or ends with a row
that none is closer than. -/
theorem nearestFrom_cases (key : α → RecordKey) (target : Timestamp) (records : List α)
    (best : Option α) (bestDelta : ℕ) :
    (nearestFrom key target best bestDelta records = best ∧
      ∀ record ∈ records, bestDelta ≤ apart (key record).timestamp target) ∨
    ∃ found ∈ records, nearestFrom key target best bestDelta records = some found ∧
      apart (key found).timestamp target < bestDelta ∧
      ∀ record ∈ records, apart (key found).timestamp target ≤
        apart (key record).timestamp target := by
  induction records generalizing best bestDelta with
  | nil => exact .inl ⟨rfl, fun record hm => absurd hm List.not_mem_nil⟩
  | cons r records ih =>
    unfold nearestFrom
    split
    · rename_i hcloser
      right
      rcases ih (some r) (apart (key r).timestamp target) with
        ⟨he, hall⟩ | ⟨found, hm, he, hlt, hall⟩
      · refine ⟨r, List.mem_cons_self, he, hcloser, fun record hr => ?_⟩
        rcases List.mem_cons.mp hr with rfl | hr
        · exact Nat.le_refl _
        · exact hall record hr
      · refine ⟨found, List.mem_cons_of_mem _ hm, he, hlt.trans hcloser, fun record hr => ?_⟩
        rcases List.mem_cons.mp hr with rfl | hr
        · exact Nat.le_of_lt hlt
        · exact hall record hr
    · rename_i hnot
      have hfar : bestDelta ≤ apart (key r).timestamp target := Nat.le_of_not_lt hnot
      rcases ih best bestDelta with ⟨he, hall⟩ | ⟨found, hm, he, hlt, hall⟩
      · refine .inl ⟨he, fun record hr => ?_⟩
        rcases List.mem_cons.mp hr with rfl | hr
        · exact hfar
        · exact hall record hr
      · refine .inr ⟨found, List.mem_cons_of_mem _ hm, he, hlt, fun record hr => ?_⟩
        rcases List.mem_cons.mp hr with rfl | hr
        · exact Nat.le_of_lt (hlt.trans_le hfar)
        · exact hall record hr

/-- No row is closer to the target than the one that is found. -/
theorem findNearest_closest (h : findNearest key records target = some found) :
    found ∈ records ∧ ∀ record ∈ records,
      apart (key found).timestamp target ≤ apart (key record).timestamp target := by
  rcases nearestFrom_cases key target records none (matchTolerance + 1000000) with
    ⟨he, -⟩ | ⟨other, hm, he, -, hall⟩
  · cases he.symm.trans h
  · cases Option.some.inj (he.symm.trans h)
    exact ⟨hm, hall⟩

/-- One is found exactly if a row lies under the limit that the loop starts from. -/
theorem findNearest_isSome_iff :
    (findNearest key records target).isSome ↔
      ∃ record ∈ records, apart (key record).timestamp target < matchTolerance + 1000000 := by
  rcases nearestFrom_cases key target records none (matchTolerance + 1000000) with
    ⟨he, hall⟩ | ⟨found, hm, he, hlt, -⟩
  · refine ⟨fun hs => ?_, fun ⟨record, hr, hlt⟩ => ?_⟩
    · rw [findNearest, he] at hs
      cases hs
    · exact absurd hlt (Nat.not_lt_of_le (hall record hr))
  · refine ⟨fun _ => ⟨found, hm, hlt⟩, fun _ => ?_⟩
    rw [findNearest, he]
    rfl

theorem findNearest_mem (h : findNearest key records target = some found) : found ∈ records :=
  (findNearest_closest h).1

/-- A row at the very moment is found before any other. -/
theorem findNearest_exact (hm : record ∈ records) (ht : (key record).timestamp = target) :
    ∃ found ∈ records, findNearest key records target = some found ∧
      (key found).timestamp = target := by
  have hzero : apart (key record).timestamp target = 0 := apart_eq_zero.mpr ht
  have hsome : (findNearest key records target).isSome :=
    findNearest_isSome_iff.mpr ⟨record, hm, by rw [hzero]; exact Nat.succ_pos _⟩
  obtain ⟨found, hf⟩ := Option.isSome_iff_exists.mp hsome
  obtain ⟨hfm, hall⟩ := findNearest_closest hf
  refine ⟨found, hfm, hf, apart_eq_zero.mp (Nat.le_zero.mp ?_)⟩
  rw [← hzero]
  exact hall record hm

end

/-- A score with six decimals. -/
def fmt (x : Amount) : String :=
  let n := roundHalfEven (x * 1000000)
  let fraction := toString (n.natAbs % 1000000)
  (if n < 0 then "-" else "") ++ toString (n.natAbs / 1000000) ++ "." ++
    String.ofList (List.replicate (6 - fraction.length) '0') ++ fraction

structure FieldDelta where
  field : String
  entonces : Option String
  ahora : Option String
  changed : Bool

def textDelta (field : String) (entonces : Option String) (ahora : String) : FieldDelta where
  field := field
  entonces := entonces
  ahora := some ahora
  changed := entonces ≠ some ahora

/-- Scores are compared with a tolerance; a missing one has changed. -/
def scoreDelta (entonces : Option Amount) (ahora : Amount) : FieldDelta where
  field := "aggregated_score"
  entonces := entonces.map fmt
  ahora := some (fmt ahora)
  changed := match entonces with
    | some score => 1 / 1000000 < |score - ahora|
    | none => true

structure ComparisonStepResult where
  snapshotTimestamp : Timestamp
  historicalAction : Option String
  historicalFinalAction : Option String
  historicalAggregatedScore : Option Amount
  historicalRiskResult : Option String
  historicalMissing : Bool
  replayAction : String
  replayFinalAction : String
  replayAggregatedScore : Amount
  replayRiskResult : String
  deltas : List FieldDelta
  anyChanged : Bool

def buildDeltas (action finalAction : Option String) (score : Option Amount)
    (riskResult : Option String) (step : ReplayStepResult) : List FieldDelta :=
  [textDelta "action" action step.decision.decision.value,
    textDelta "final_action" finalAction step.aggregation.finalAction.value,
    scoreDelta score step.aggregation.aggregatedScore,
    textDelta "risk_result" riskResult step.riskResult.decision.value]

/-- The stored rows that a replay is compared with. -/
structure HistoricalRecords where
  decisions : List DecisionRecord
  aggregations : List DecisionAggregationRecord
  risks : List RiskValidationRecord

def HistoricalRecords.within (h : HistoricalRecords) (w : SnapshotWindow)
    (botRunId : Option String) : HistoricalRecords where
  decisions := listBySymbolAndRange (·.toRecordKey) w botRunId h.decisions
  aggregations := listBySymbolAndRange (·.toRecordKey) w botRunId h.aggregations
  risks := listBySymbolAndRange (·.toRecordKey) w botRunId h.risks

namespace HistoricalRecords

def nearestDecision (h : HistoricalRecords) (t : Timestamp) : Option DecisionRecord :=
  findNearest (·.toRecordKey) h.decisions t

def nearestAggregation (h : HistoricalRecords) (t : Timestamp) :
    Option DecisionAggregationRecord :=
  findNearest (·.toRecordKey) h.aggregations t

def nearestRisk (h : HistoricalRecords) (t : Timestamp) : Option RiskValidationRecord :=
  findNearest (·.toRecordKey) h.risks t

theorem nearestDecision_exact (h : HistoricalRecords) (hm : record ∈ h.decisions)
    (ht : record.timestamp = t) :
    ∃ found ∈ h.decisions, h.nearestDecision t = some found ∧ found.timestamp = t :=
  findNearest_exact hm ht

theorem nearestAggregation_exact (h : HistoricalRecords) (hm : record ∈ h.aggregations)
    (ht : record.timestamp = t) :
    ∃ found ∈ h.aggregations, h.nearestAggregation t = some found ∧ found.timestamp = t :=
  findNearest_exact hm ht

end HistoricalRecords

/-- The comparison of one step. Its rows are found by their time alone. -/
def compareStep (h : HistoricalRecords) (step : ReplayStepResult) : ComparisonStepResult :=
  let snapshotTs := step.snapshot.timestampUtc
  let histDecision := h.nearestDecision snapshotTs
  let histAggregation := h.nearestAggregation snapshotTs
  let histRisk := h.nearestRisk snapshotTs
  let historicalMissing := histDecision.isNone && histAggregation.isNone
  let action := histDecision.map (·.action)
  let finalAction := histAggregation.map (·.finalAction)
  let score := histAggregation.bind (·.aggregatedScore)
  let riskResult := histRisk.map (·.result)
  let deltas := buildDeltas action finalAction score riskResult step
  { snapshotTimestamp := snapshotTs
    historicalAction := action
    historicalFinalAction := finalAction
    historicalAggregatedScore := score
    historicalRiskResult := riskResult
    historicalMissing := historicalMissing
    replayAction := step.decision.decision.value
    replayFinalAction := step.aggregation.finalAction.value
    replayAggregatedScore := step.aggregation.aggregatedScore
    replayRiskResult := step.riskResult.decision.value
    deltas := deltas
    anyChanged := !historicalMissing && deltas.any (·.changed) }

structure ComparisonReport where
  totalSteps : ℕ
  changedSteps : ℕ
  missingSteps : ℕ
  changeRate : Amount
  steps : List ComparisonStepResult

def compareSteps (h : HistoricalRecords) (steps : List ReplayStepResult) : ComparisonReport :=
  let results := steps.map (compareStep h)
  let missing := results.countP (·.historicalMissing)
  let changed := results.countP (fun r => !r.historicalMissing && r.anyChanged)
  let comparable := results.length - missing
  { totalSteps := results.length
    changedSteps := changed
    missingSteps := missing
    changeRate := if 0 < comparable then changed / comparable else 0
    steps := results }

/-- The replay of a window against what was stored in its time. -/
def DecisionComparator.compare (R : HistoricalReplayEngine τ)
    (rows : List (Except PyError HistoricalSnapshot)) (s : ReplayState τ) (h : HistoricalRecords)
    (w : SnapshotWindow) (botRunId : Option String) : Except PyError ComparisonReport :=
  (R.run rows s).map (compareSteps (h.within w botRunId))

/-- Nothing has changed in a step that has rows exactly if all four fields are found as the
replay has them. -/
theorem anyChanged_eq_false {h : HistoricalRecords} {step : ReplayStepResult} :
    (compareStep h step).anyChanged = false ↔
      (h.nearestDecision step.snapshot.timestampUtc = none ∧
        h.nearestAggregation step.snapshot.timestampUtc = none) ∨
      ∃ decision aggregation risk score,
        h.nearestDecision step.snapshot.timestampUtc = some decision ∧
        decision.action = step.decision.decision.value ∧
        h.nearestAggregation step.snapshot.timestampUtc = some aggregation ∧
        aggregation.finalAction = step.aggregation.finalAction.value ∧
        aggregation.aggregatedScore = some score ∧
        |score - step.aggregation.aggregatedScore| ≤ 1 / 1000000 ∧
        h.nearestRisk step.snapshot.timestampUtc = some risk ∧
        risk.result = step.riskResult.decision.value := by
  unfold compareStep buildDeltas textDelta scoreDelta
  rcases hd : h.nearestDecision step.snapshot.timestampUtc with _ | decision <;>
    rcases ha : h.nearestAggregation step.snapshot.timestampUtc with _ | aggregation
  · simp [hd, ha]
  · simp [hd, ha]
  · simp [hd, ha]
  · rcases hr : h.nearestRisk step.snapshot.timestampUtc with _ | risk
    · simp [hd, ha, hr]
    · rcases hs : aggregation.aggregatedScore with _ | score
      · simp [hd, ha, hr, hs]
      · simp [hd, ha, hr, hs]

end FuturesBot
