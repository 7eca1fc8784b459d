import FuturesBot.Trading.Loop
import FuturesBot.Trading.LossLimits

namespace FuturesBot
open Lib PositionTickService Session

/-- What a supervisor does to the session it shares. -/
theorem Supervisor.triggerSafeMode_closesNoTrade (v : LockedView) (s : Supervisor) :
    s.session.ClosesNoTrade (s.triggerSafeMode v).session := by
  unfold triggerSafeMode
  dsimp only
  split
  · exact .commit _
  · exact .rollback _

theorem Supervisor.attemptSafeMode_closesNoTrade (v : TriggerRead) (s : Supervisor) :
    s.session.ClosesNoTrade (s.attemptSafeMode v).session := by
  unfold attemptSafeMode
  split
  · exact .rollback _
  · split
    · exact .rollback _
    · exact s.triggerSafeMode_closesNoTrade _

/-- To read the state of the bot at most rolls the session back. -/
theorem Supervisor.syncStateFromDb_closesNoTrade (r : StateRead) (s : Supervisor) :
    s.session.ClosesNoTrade (s.syncStateFromDb r).session := by
  unfold syncStateFromDb
  split
  · exact .rollback _
  · exact .refl _
  · split <;> exact .refl _

/-- The pipeline runs from the one state to the other. -/
def Reaches (config : AppConfig) (st st' : PipelineState BookedPaper) : Prop :=
  ∃ es, Run (PaperStep config) st es st'

namespace Reaches

theorem refl (st : PipelineState BookedPaper) : Reaches config st st := ⟨[], .nil st⟩

theorem trans (h : Reaches config st st') (h' : Reaches config st' st'') :
    Reaches config st st'' := by
  obtain ⟨es, hr⟩ := h
  obtain ⟨es', hr'⟩ := h'
  exact ⟨es ++ es', hr.append hr'⟩

theorem step (h : PaperStep config st e st') : Reaches config st st' := ⟨[e], .snoc (.nil st) h⟩

end Reaches

theorem Reaches.loopSteps (config : AppConfig) :
    LoopSteps PaperAdapter.booked config (Reaches config) where
  refl := .refl
  trans h h' := h.trans h'
  nextTick _ := .step .nextTick
  account st := by
    have hx := MarketDataCycleService.readAccount_view PaperAdapter.booked_reads
      (CycleRunner.symbols config) st.exchange
    simp only [hx]
    exact .refl _
  assessed row st := .step (.stored _ (.addVolatilityAssessment row st.session))
  commit st := .step (.stored _ (.commit st.session))
  safeMode v s _ _ := .step (.stored _ (s.attemptSafeMode_closesNoTrade v))
  reread latest s _ _ := .step (.stored _ (s.syncStateFromDb_closesNoTrade latest))
  exit h := .step (.exit h)
  reconciled m db st := by
    have hx := ReconciliationEngine.reconcile_view PaperAdapter.booked_reads
      (CycleRunner.symbols config) m db st.exchange
    simp only [hx]
    exact .refl _
  turn o reliable snapshot _ := .step (.turn o reliable snapshot)

namespace CycleRunner

/-- The loop of the worker is a run of the pipeline, so what holds of all runs holds
of it. -/
theorem run_reaches (config : AppConfig) (wiring : Wiring) (its : List Iteration)
    (w : Worker BookedPaper) (n : ℤ) :
    ∃ n', Reaches config (w.trading n)
      ((run PaperAdapter.booked config wiring its w).2.trading n') :=
  (Reaches.loopSteps config).run wiring its w n

/-- However long the worker loops, the risk engine is told of no loss. -/
theorem run_lossTotals (h₀ : ∀ t ∈ w.session.storedTrades, t.status = .open)
    (hw : run PaperAdapter.booked config wiring its w = (r, w')) :
    w'.session.working.getLossTotals w'.session.now = (0, 0) := by
  obtain ⟨n, es, hr⟩ := run_reaches config wiring its w 0
  rw [hw] at hr
  have hzero := losses_never_recorded h₀ hr
  exact hzero

end CycleRunner

end FuturesBot
