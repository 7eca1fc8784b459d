import FuturesBot.Lib.Periods
import FuturesBot.Replay.LiveAgreement

namespace FuturesBot
open Lib

theorem dayStart_eq (t : Timestamp) : dayStart t = 86400000000 * (t / 86400000000) := by
  rw [dayStart, Nat.sub_eq_iff_eq_add (Nat.mod_le _ _)]
  exact (Nat.div_add_mod t 86400000000).symm

theorem dayStart_mono {a b : Timestamp} (h : a ≤ b) : dayStart a ≤ dayStart b := by
  rw [dayStart_eq, dayStart_eq]
  exact Nat.mul_le_mul_left _ (Nat.div_le_div_right h)

/-- Of what has happened by now, that of the current day is what has happened since its
midnight. -/
theorem dayStart_le_iff {a now : Timestamp} (h : a ≤ now) :
    dayStart now ≤ a ↔ dayStart a = dayStart now := by
  constructor
  · intro hle
    refine le_antisymm (dayStart_mono h) ?_
    rw [dayStart_eq] at hle
    rw [dayStart_eq, dayStart_eq]
    apply Nat.mul_le_mul_left
    rw [Nat.le_div_iff_mul_le (by decide), Nat.mul_comm]
    exact hle
  · intro he
    rw [← he]
    exact Nat.sub_le _ _

namespace ReplayStepResult

/-- The UTC day of a step. -/
def day (r : ReplayStepResult) : Timestamp := dayStart r.snapshot.timestampUtc

/-- What a step adds to the losses if it is executed. -/
def executedLoss (r : ReplayStepResult) : Amount :=
  if r.riskResult.decision.executable then r.decision.estimatedMaxLossUsdt else 0

/-- The trade that the live cycle has of the step once it has ended with its full loss. -/
def lostTrade (r : ReplayStepResult) : TradeRow where
  symbol := r.decision.symbol
  environment := r.decision.environment
  direction := r.decision.decision
  entryPrice := some r.decision.entryPrice
  marginUsdt := r.decision.marginUsdt
  leverage := r.decision.leverage
  quantity := none
  netPnl := some (-r.decision.estimatedMaxLossUsdt)
  status := .closed
  openedAt := r.snapshot.timestampUtc
  closedAt := some r.snapshot.timestampUtc

theorem executedLoss_nonneg (r : ReplayStepResult) : 0 ≤ r.executedLoss := by
  unfold executedLoss
  split
  · exact r.decision.maxLoss_nonneg
  · exact le_refl 0

end ReplayStepResult

/-- The tables that the live cycle would have, with the executed steps as closed trades. -/
def liveTables (before : List ReplayStepResult) : Database where
  trades := (before.filter (·.riskResult.decision.executable)).map (·.lostTrade)

/-- What the sum over the closed trades has of a step. -/
theorem lostTrade_loss (r : ReplayStepResult) (keep : Timestamp → Prop)
    [DecidablePred keep] :
    (if r.riskResult.decision.executable then
      if (r.lostTrade.status = .closed && r.lostTrade.closedAt.any (keep ·)) then
        r.lostTrade.netPnl.filter (· < 0) else none
      else none).getD 0 = -(if keep r.snapshot.timestampUtc then r.executedLoss else 0) := by
  unfold ReplayStepResult.executedLoss ReplayStepResult.lostTrade
  by_cases hkeep : keep r.snapshot.timestampUtc
  · rcases r.decision.maxLoss_nonneg.eq_or_lt with hzero | hpos
    · simp [hkeep, ← hzero, Option.filter_some]
    · by_cases hx : r.riskResult.decision.executable
      · simp [hkeep, hx, hpos, Option.filter_some]
      · simp [hx]
  · simp [hkeep]

/-- The losses of the closed trades are those of the executed steps. -/
theorem liveTables_losses (before : List ReplayStepResult)
    (keep : Timestamp → Prop) [DecidablePred keep] :
    (liveTables before).lossOf (fun t => t.closedAt.any (keep ·)) =
      ((before.filter (fun r => keep r.snapshot.timestampUtc)).map (·.executedLoss)).sum := by
  have hsum : (((liveTables before).trades.filter
      (fun t => t.status = .closed && t.closedAt.any (keep ·))).filterMap
        (fun t => t.netPnl.filter (· < 0))).sum =
      -((before.filter (fun r => keep r.snapshot.timestampUtc)).map (·.executedLoss)).sum := by
    simp only [liveTables, List.filterMap_filter, List.filterMap_map, sum_filterMap]
    rw [sum_map_filter, List.sum_neg, List.map_map]
    exact congrArg List.sum (List.map_congr_left fun r _ => lostTrade_loss r keep)
  rw [Database.lossOf, hsum, abs_neg, abs_of_nonneg]
  apply List.sum_nonneg
  simp only [List.mem_map, forall_exists_index, and_imp, forall_apply_eq_imp_iff₂]
  exact fun r _ => r.executedLoss_nonneg

/-- The daily loss that belongs to a step: what the earlier executed steps of its day have
lost, and on the first day what the run was started with. -/
def lossOfDay (start : Amount) (before : List ReplayStepResult) (r : ReplayStepResult) : Amount :=
  periodTotal (·.day) (·.executedLoss) start before r.day

/-- Among steps in the order of their time the losses of the day are those that the live query
of the day finds. -/
theorem sameDay_losses {results : List ReplayStepResult}
    (h : results.Pairwise (·.snapshot.timestampUtc ≤ ·.snapshot.timestampUtc)) :
    EachAfter (fun before r => ((before.filter (·.day = r.day)).map (·.executedLoss)).sum =
      ((liveTables before).getLossTotals r.snapshot.timestampUtc).1) results := by
  intro before r after he
  rw [he, List.pairwise_append] at h
  rw [Database.getLossTotals, liveTables_losses]
  congr 2
  apply List.filter_congr
  intro earlier hm
  have hle : earlier.snapshot.timestampUtc ≤ r.snapshot.timestampUtc :=
    h.2.2 earlier hm r List.mem_cons_self
  exact decide_eq_decide.mpr (dayStart_le_iff hle).symm

namespace HistoricalReplayEngine

variable {τ : Type} {R : HistoricalReplayEngine τ} {rates : FeeRates}

/-- The risk engine has validated a step with this daily loss. -/
def GivenDailyLoss (R : HistoricalReplayEngine τ) (rates : FeeRates) (s : ReplayState τ)
    (r : ReplayStepResult) (loss : Amount) : Prop :=
  ∃ context, riskContext R.config rates s.totals r.snapshot r.decision.toModelDecision =
      .ok context ∧
    validate r.decision.toModelDecision context R.config = .ok r.riskResult ∧
    context.dailyLossUsdt = loss

theorem riskContext_dailyLoss {cfg : AppConfig}
    (h : riskContext cfg rates totals snapshot d = .ok context) :
    context.dailyLossUsdt = totals.dailyLossUsdt := by
  unfold riskContext at h
  split at h
  · cases h
  split at h
  · cases h
  · cases h
    rfl

theorem Computes.given_iff (h : R.Computes rates s r s') :
    R.GivenDailyLoss rates s r loss ↔ s.totals.dailyLossUsdt = loss := by
  obtain ⟨context, hcontext, hvalid⟩ := h.risk
  have hloss := riskContext_dailyLoss hcontext
  constructor
  · intro hgiven
    obtain ⟨context', hcontext', _, he⟩ := hgiven
    cases hcontext.symm.trans hcontext'
    exact hloss.symm.trans he
  · intro he
    exact ⟨context, hcontext, hvalid, hloss.trans he⟩

theorem Computes.dailyLoss (h : R.Computes rates s r s') :
    s'.totals.dailyLossUsdt = s.totals.dailyLossUsdt + r.executedLoss := by
  rw [h.totals, totalsAfter, ReplayStepResult.executedLoss]
  split
  · rfl
  · rw [add_zero]

/-- The accumulator is what it was started with and the losses of all executed steps. -/
theorem trace_dailyLoss (hr : Run (Recorded (R.Computes rates)) s trace s') :
    s'.totals.dailyLossUsdt =
      s.totals.dailyLossUsdt + (trace.map (·.2.1.executedLoss)).sum := by
  induction hr with
  | nil => simp
  | snoc _ hs ih =>
    obtain ⟨rfl, rfl, hs⟩ := hs
    rw [hs.dailyLoss, ih]
    simp [add_assoc]

/-- Every step of a run has been validated with the daily loss that belongs to it. -/
def DailyLossIsDaily (R : HistoricalReplayEngine τ) (s : ReplayState τ)
    (results : List ReplayStepResult) : Prop :=
  ∃ rates trace s', R.rates = .ok rates ∧ Run (Recorded (R.Computes rates)) s trace s' ∧
    trace.map (·.2.1) = results ∧
    EachAfter (fun before t => R.GivenDailyLoss rates t.1 t.2.1
      (lossOfDay s.totals.dailyLossUsdt (before.map (·.2.1)) t.2.1)) trace

/-- What a step was validated with is the running total before it. -/
theorem given_iff_running (hr : Run (Recorded (R.Computes rates)) s trace s') :
    EachAfter (fun before t => R.GivenDailyLoss rates t.1 t.2.1
      (lossOfDay s.totals.dailyLossUsdt (before.map (·.2.1)) t.2.1)) trace ↔
    EachAfter (fun before r => s.totals.dailyLossUsdt + (before.map (·.executedLoss)).sum =
      lossOfDay s.totals.dailyLossUsdt before r) (trace.map (·.2.1)) := by
  rw [EachAfter.map_iff]
  apply EachAfter.congr
  intro before t after he
  have hrun : Run (Recorded (R.Computes rates)) s (before ++ [t] ++ after) s' := by
    simpa [he] using hr
  obtain ⟨_, hupto, _⟩ := hrun.of_append
  obtain ⟨_, hbefore, hfirst, hlast, hstep⟩ := hupto.of_snoc
  subst hfirst
  rw [hstep.given_iff, trace_dailyLoss hbefore, List.map_map]
  rfl

/-- Nothing has been lost, and the run was started with nothing, wherever a new day begins. -/
def NothingCarriedOver (start : Amount) (results : List ReplayStepResult) : Prop :=
  EachAfter (AnewAt (·.day) (·.executedLoss) start) results

theorem daily_iff_nothing_carried (hr : Run (Recorded (R.Computes rates)) s trace s')
    (hs : (trace.map (·.2.1)).Pairwise (·.snapshot.timestampUtc ≤ ·.snapshot.timestampUtc)) :
    EachAfter (fun before t => R.GivenDailyLoss rates t.1 t.2.1
      (lossOfDay s.totals.dailyLossUsdt (before.map (·.2.1)) t.2.1)) trace ↔
    NothingCarriedOver s.totals.dailyLossUsdt (trace.map (·.2.1)) := by
  rw [given_iff_running hr]
  exact running_eq_periodTotal_iff (hs.imp fun hle => dayStart_mono hle)

end HistoricalReplayEngine

/-- The sample of the day after. -/
def nextDaySample : HistoricalSnapshot := { historicalSample with timestampUtc := 86400000000 }

theorem two_days_run : ∃ first second, (replayOf calmEngines convinced).run
      [.ok historicalSample, .ok nextDaySample] freshReplay = .ok [first, second] ∧
    first.snapshot.timestampUtc = 0 ∧ second.snapshot.timestampUtc = 86400000000 ∧
    first.executedLoss = 5 := by
  have hlosses : ∃ results, (replayOf calmEngines convinced).run
        [.ok historicalSample, .ok nextDaySample] freshReplay = .ok results ∧
      results.map (fun r => (r.snapshot.timestampUtc, r.executedLoss)) =
        [(0, 5), (86400000000, 5)] :=
    ok_of_map (by decide +kernel)
  obtain ⟨results, hrun, hlosses⟩ := hlosses
  obtain ⟨first, rest, rfl, hfirst, hrest⟩ := List.map_eq_cons_iff.mp hlosses
  obtain ⟨second, last, rfl, hsecond, hnil⟩ := List.map_eq_cons_iff.mp hrest
  obtain rfl := List.map_eq_nil_iff.mp hnil
  obtain ⟨htime, hloss⟩ := Prod.mk.inj hfirst
  exact ⟨first, second, hrun, htime, (Prod.mk.inj hsecond).1, hloss⟩

/-- In a replay in the order of time the daily loss is the live one of every day exactly if
nothing is carried over a midnight. -/
theorem HistoricalReplayEngine.dailyLoss_daily_iff {τ : Type} {R : HistoricalReplayEngine τ}
    {s : ReplayState τ} (h : R.run rows s = .ok results)
    (hs : results.Pairwise (·.snapshot.timestampUtc ≤ ·.snapshot.timestampUtc)) :
    EachAfter (fun before r => ((before.filter (·.day = r.day)).map (·.executedLoss)).sum =
      ((liveTables before).getLossTotals r.snapshot.timestampUtc).1) results ∧
    (R.DailyLossIsDaily s results ↔ NothingCarriedOver s.totals.dailyLossUsdt results) := by
  refine ⟨sameDay_losses hs, ?_, ?_⟩
  · intro hdaily
    obtain ⟨rates, trace, s', _, hr, rfl, hgiven⟩ := hdaily
    exact (daily_iff_nothing_carried hr hs).mp hgiven
  · intro hnone
    obtain ⟨rates, trace, s', hrates, hr, rfl⟩ := run_ok h
    exact ⟨rates, trace, s', hrates, hr, rfl, (daily_iff_nothing_carried hr hs).mpr hnone⟩

theorem two_days_daily_iff : ∃ results, (replayOf calmEngines convinced).run
      [.ok historicalSample, .ok nextDaySample] freshReplay = .ok results ∧
    ((replayOf calmEngines convinced).DailyLossIsDaily freshReplay results ↔
      HistoricalReplayEngine.NothingCarriedOver 0 results) := by
  obtain ⟨first, second, hrun, hfirst, hsecond, _⟩ := two_days_run
  have hs : [first, second].Pairwise (·.snapshot.timestampUtc ≤ ·.snapshot.timestampUtc) := by
    simp [hfirst]
  exact ⟨_, hrun, (HistoricalReplayEngine.dailyLoss_daily_iff hrun hs).2⟩

/-- The loss of the first day is still counted on the second. -/
theorem yesterdays_loss_counted : ∃ results, (replayOf calmEngines convinced).run
      [.ok historicalSample, .ok nextDaySample] freshReplay = .ok results ∧
    results.Pairwise (·.snapshot.timestampUtc ≤ ·.snapshot.timestampUtc) ∧
    ¬(replayOf calmEngines convinced).DailyLossIsDaily freshReplay results := by
  obtain ⟨first, second, hrun, hfirst, hsecond, hloss⟩ := two_days_run
  have hs : [first, second].Pairwise (·.snapshot.timestampUtc ≤ ·.snapshot.timestampUtc) := by
    simp [hfirst]
  refine ⟨_, hrun, hs, ?_⟩
  intro hdaily
  obtain ⟨rates, trace, s', _, hr, hresults, hgiven⟩ := hdaily
  rw [← hresults] at hs
  have hnone := (HistoricalReplayEngine.daily_iff_nothing_carried hr hs).mp hgiven
  rw [hresults] at hnone
  have hdays : first.day ≠ second.day := by
    rw [ReplayStepResult.day, ReplayStepResult.day, hfirst, hsecond]
    decide
  have hzero := hnone [first] second [] rfl first rfl hdays
  simp [freshReplay, hloss] at hzero

end FuturesBot
