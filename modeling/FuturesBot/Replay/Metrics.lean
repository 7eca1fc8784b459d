import FuturesBot.Replay.Engine

namespace FuturesBot
open Lib

/-- The filter that the metrics count a step as executed with. -/
def ReplayStepResult.isExecuted (r : ReplayStepResult) : Bool :=
  r.decision.execute && r.decision.decision ≠ .noOperar && r.riskResult.decision.executable

/-- The next price has confirmed the direction. -/
def ReplayStepResult.confirmedBy (r next : ReplayStepResult) : Bool :=
  match r.decision.decision with
  | .long => r.decision.entryPrice < next.snapshot.lastPrice
  | .short => next.snapshot.lastPrice < r.decision.entryPrice
  | .noOperar => false

structure ReplayCounts where
  executedSteps : ℕ := 0
  signalsActivated : ℕ := 0
  directionalWins : ℕ := 0
  comparableExecutedSteps : ℕ := 0

def signalThreshold : Amount := 1 / 2

def countSignal (c : ReplayCounts) (r : ReplayStepResult) : ReplayCounts :=
  if signalThreshold < r.aggregation.contributingSources.quantScore then
    { c with signalsActivated := c.signalsActivated + 1 }
  else c

/-- The last step has nothing to compare with. -/
def countExecution (c : ReplayCounts) (r : ReplayStepResult) (next : Option ReplayStepResult) :
    ReplayCounts :=
  if r.isExecuted then
    let c := { c with executedSteps := c.executedSteps + 1 }
    match next with
    | none => c
    | some next =>
      let c := { c with comparableExecutedSteps := c.comparableExecutedSteps + 1 }
      if r.confirmedBy next then { c with directionalWins := c.directionalWins + 1 } else c
  else c

def countSteps : ReplayCounts → List ReplayStepResult → ReplayCounts
  | c, [] => c
  | c, r :: rest => countSteps (countExecution (countSignal c r) r rest.head?) rest

/-- The largest fall from the highest score so far, as a fraction of it. -/
def drawdownFrom (peak maxDd : Amount) : List Amount → Amount
  | [] => maxDd
  | score :: scores =>
    if peak < score then drawdownFrom score maxDd scores
    else if 0 < peak then drawdownFrom peak (max maxDd ((peak - score) / peak)) scores
    else drawdownFrom peak maxDd scores

/-- Scores that are not there are skipped. -/
def computeMaxDrawdown (scores : List (Option Amount)) : Amount :=
  match scores.filterMap id with
  | [] => 0
  | first :: scores => drawdownFrom first 0 scores

structure ReplayMetrics where
  totalSteps : ℕ
  executedSteps : ℕ
  signalsActivated : ℕ
  directionalWins : ℕ
  comparableExecutedSteps : ℕ
  winRate : Option Amount
  maxDrawdown : Amount

def computeReplayMetrics (results : List ReplayStepResult) : ReplayMetrics :=
  let c := countSteps {} results
  { totalSteps := results.length
    executedSteps := c.executedSteps
    signalsActivated := c.signalsActivated
    directionalWins := c.directionalWins
    comparableExecutedSteps := c.comparableExecutedSteps
    winRate := if 0 < c.comparableExecutedSteps then
        some (c.directionalWins / c.comparableExecutedSteps)
      else none
    maxDrawdown := computeMaxDrawdown (results.map (some ·.aggregation.aggregatedScore)) }

theorem countSignal_executed (c : ReplayCounts) (r : ReplayStepResult) :
    (countSignal c r).executedSteps = c.executedSteps := by
  unfold countSignal
  split <;> rfl

theorem countExecution_executed (c : ReplayCounts) (r : ReplayStepResult)
    (next : Option ReplayStepResult) :
    (countExecution c r next).executedSteps = c.executedSteps + if r.isExecuted then 1 else 0 := by
  unfold countExecution
  split
  · cases next with
    | none => rfl
    | some next =>
      dsimp only
      split <;> rfl
  · rfl

theorem countSteps_executed (results : List ReplayStepResult) (c : ReplayCounts) :
    (countSteps c results).executedSteps =
      c.executedSteps + results.countP (·.isExecuted) := by
  induction results generalizing c with
  | nil => rfl
  | cons r rest ih =>
    rw [countSteps, ih, countExecution_executed, countSignal_executed, List.countP_cons]
    omega

/-- The metric counts the steps that pass its filter, each once. -/
theorem executedSteps_eq (results : List ReplayStepResult) :
    (computeReplayMetrics results).executedSteps = results.countP (·.isExecuted) := by
  have h := countSteps_executed results {}
  simpa [computeReplayMetrics] using h

/-- Wins are among the comparable steps, and these among the executed ones. -/
def ReplayCounts.Ordered (c : ReplayCounts) : Prop :=
  c.directionalWins ≤ c.comparableExecutedSteps ∧ c.comparableExecutedSteps ≤ c.executedSteps

theorem ReplayCounts.Ordered.countSignal {c : ReplayCounts} (h : c.Ordered)
    (r : ReplayStepResult) : (countSignal c r).Ordered := by
  unfold FuturesBot.countSignal
  split <;> exact h

theorem ReplayCounts.Ordered.countExecution {c : ReplayCounts} (h : c.Ordered)
    (r : ReplayStepResult) (next : Option ReplayStepResult) :
    (countExecution c r next).Ordered := by
  obtain ⟨hw, hc⟩ := h
  unfold FuturesBot.countExecution ReplayCounts.Ordered
  split
  · cases next with
    | none =>
      dsimp only
      omega
    | some next =>
      dsimp only
      split
      all_goals
        dsimp only
        omega
  · exact ⟨hw, hc⟩

theorem ReplayCounts.Ordered.countSteps {c : ReplayCounts} (h : c.Ordered)
    (results : List ReplayStepResult) : (countSteps c results).Ordered := by
  induction results generalizing c with
  | nil => exact h
  | cons r rest ih => exact ih ((h.countSignal r).countExecution r rest.head?)

/-- The win rate is a rate. -/
theorem winRate_range {results : List ReplayStepResult}
    (h : (computeReplayMetrics results).winRate = some rate) : 0 ≤ rate ∧ rate ≤ 1 := by
  have hc : (countSteps {} results).Ordered :=
    ReplayCounts.Ordered.countSteps ⟨le_refl _, le_refl _⟩ results
  simp only [computeReplayMetrics] at h
  split at h
  · rename_i hpos
    cases h
    have hle : ((countSteps {} results).directionalWins : Amount) ≤
        (countSteps {} results).comparableExecutedSteps := by
      exact_mod_cast hc.1
    have hpos' : (0 : Amount) < (countSteps {} results).comparableExecutedSteps := by
      exact_mod_cast hpos
    exact ⟨div_nonneg (Nat.cast_nonneg _) hpos'.le, (div_le_one hpos').mpr hle⟩
  · cases h

theorem drawdownFrom_range (scores : List Amount) (hs : ∀ s ∈ scores, 0 ≤ s)
    (hm : 0 ≤ maxDd ∧ maxDd ≤ 1) :
    0 ≤ drawdownFrom peak maxDd scores ∧ drawdownFrom peak maxDd scores ≤ 1 := by
  induction scores generalizing peak maxDd with
  | nil => exact hm
  | cons score scores ih =>
    have hrest : ∀ s ∈ scores, 0 ≤ s := fun s h => hs s (List.mem_cons_of_mem _ h)
    have hscore : 0 ≤ score := hs score List.mem_cons_self
    unfold drawdownFrom
    split
    · exact ih hrest hm
    · split
      · rename_i hpeak
        refine ih hrest ⟨le_trans hm.1 (le_max_left _ _), max_le hm.2 ?_⟩
        rw [div_le_one hpeak]
        linarith
      · exact ih hrest hm

/-- And the drawdown of a replay is a fraction. -/
theorem maxDrawdown_range (results : List ReplayStepResult) :
    0 ≤ (computeReplayMetrics results).maxDrawdown ∧
      (computeReplayMetrics results).maxDrawdown ≤ 1 := by
  have hs : ∀ s ∈ results.map (·.aggregation.aggregatedScore), 0 ≤ s := by
    intro s h
    obtain ⟨r, _, rfl⟩ := List.mem_map.mp h
    exact r.aggregation.valid.2.1.1
  have hscores : (results.map (some ·.aggregation.aggregatedScore)).filterMap id =
      results.map (·.aggregation.aggregatedScore) := by
    rw [List.filterMap_map]
    exact congrFun (List.filterMap_eq_map (f := fun r : ReplayStepResult =>
      r.aggregation.aggregatedScore)) results
  change 0 ≤ computeMaxDrawdown _ ∧ computeMaxDrawdown _ ≤ 1
  unfold computeMaxDrawdown
  rw [hscores]
  generalize results.map (·.aggregation.aggregatedScore) = scores at hs
  cases scores with
  | nil => norm_num
  | cons first scores =>
    apply drawdownFrom_range scores
    · exact fun s h => hs s (List.mem_cons_of_mem _ h)
    · norm_num

end FuturesBot
