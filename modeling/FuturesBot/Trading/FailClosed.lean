import FuturesBot.Trading.Coverage

namespace FuturesBot
open Lib CycleRunner

/-- Nothing but reduce-only orders has been asked of the exchange in between. -/
def OnlyReduces (x x' : σ × List OrderRequest) : Prop :=
  ∃ closes, x'.2 = x.2 ++ closes ∧ ∀ request ∈ closes, request.isReduceOnly = true

namespace OnlyReduces

theorem of_same {x x' : σ × List OrderRequest} (h : x'.2 = x.2) : OnlyReduces x x' :=
  ⟨[], by simpa using h, by simp⟩

theorem trans {x y z : σ × List OrderRequest} (h : OnlyReduces x y) (h' : OnlyReduces y z) :
    OnlyReduces x z := by
  obtain ⟨closes, hy, hc⟩ := h
  obtain ⟨closes', hz, hc'⟩ := h'
  refine ⟨closes ++ closes', by rw [hz, hy, List.append_assoc], ?_⟩
  intro request hm
  rcases List.mem_append.mp hm with hm | hm
  · exact hc request hm
  · exact hc' request hm

/-- The exits of any adapter only reduce. -/
theorem exits (A : ExchangeAdapter σ) : ExitsStayIn A.logged OnlyReduces where
  refl _ := of_same rfl
  trans _ _ _ h h' := h.trans h'
  getPosition _ _ := of_same rfl
  reduceOnly request x _ hr := ⟨[request], rfl, by simpa using hr⟩

end OnlyReduces

namespace CycleRunner

variable {A : ExchangeAdapter σ} {view : σ → β}

/-- A count that is withheld blocks every entry. -/
theorem validate_unknown_count (h : validate d ctx config = .ok r)
    (hc : ctx.openPositionsCount = none) : r.decision.executable = false := by
  by_contra he
  obtain ⟨hx, hg, _⟩ := validate_executable h (by simpa using he)
  obtain ⟨_, hothers⟩ := gatesClear_iff.mp hg
  obtain ⟨n, hn, _⟩ := checkMaxOpenPositions_pass (d.decision_of_execute hx) hothers.openPositions
  rw [hc] at hn
  cases hn

/-- With an unreliable count no symbol sends an order. -/
theorem processSymbol_unreliable (hA : Untouched A view)
    (h : processSymbol A config o false snapshot st = (r, st')) :
    view st'.exchange = view st.exchange := by
  rcases processSymbol_cases h with ⟨_, hu⟩ | ⟨v, hv, h⟩
  · exact hu.sameView hA.toReadsLeave
  · obtain ⟨action, x, _, _, ha, _⟩ := verdict_iff.mp hv
    obtain ⟨fees, x₁, position, _, _, _, hvalid⟩ := assess_ok_iff.mp ha
    rw [validate_unknown_count hvalid rfl] at h
    cases h
    exact verdict_view hA.toReadsLeave hv

theorem processNested_unreliable (hA : Untouched A view) :
    view (processNested A config o false snapshot st).exchange = view st.exchange := by
  unfold processNested
  split
  · rename_i hp
    exact processSymbol_unreliable hA hp
  · rename_i st' hp
    have hx : view st'.exchange = view st.exchange := processSymbol_unreliable hA hp
    exact hx

/-- The symbols of a tick, whatever the reads of the state between them come to. -/
theorem runDecisionPipeline_unreliable (hA : Untouched A view) (snapshots : List MarketSnapshot)
    (w : Worker σ) (opened : ℤ) :
    view (runDecisionPipeline A config i unverified false snapshots (w, opened)).1.exchange =
      view w.exchange := by
  induction snapshots generalizing w opened with
  | nil => rfl
  | cons snapshot rest ih =>
    rw [runDecisionPipeline]
    dsimp only
    split
    · rfl
    split
    · exact ih _ _
    split
    · exact ih _ _
    · exact (ih _ _).trans (processNested_unreliable hA)

variable (A : ExchangeAdapter σ) (config : AppConfig) (wiring : Wiring) (i : TickInputs)

/-- The report that the gate makes in a tick, if the tick gets that far and the gate
is enabled. -/
def tickReport (w : Worker σ) : Option ReconciliationReport :=
  match marketStage A config wiring i { w with calls := [] } with
  | (.error _, _) => none
  | (.ok snapshots, w) =>
    (gateStage A config wiring i (positionStage A wiring i
      (healthStage config wiring i snapshots w))).1

theorem marketStage_log
    (h : marketStage A.logged config wiring i w = (r, w')) : w'.exchange.2 = w.exchange.2 := by
  unfold marketStage at h
  split at h
  · dsimp only at h
    split at h
    all_goals
      rename_i ht
      have hx := MarketDataCycleService.tickAll_view (Untouched.logged A).toReadsLeave ht
      cases h
      exact hx
  · cases h
    rfl

theorem positionStage_onlyReduces (w : Worker (σ × List OrderRequest)) :
    OnlyReduces w.exchange (positionStage A.logged wiring i w).exchange := by
  unfold positionStage
  split
  · exact (OnlyReduces.exits A).tickSymbols _ _ _
  · exact .of_same rfl

theorem gateStage_log (w : Worker (σ × List OrderRequest)) :
    (gateStage A.logged config wiring i w).2.exchange.2 = w.exchange.2 := by
  unfold gateStage ReconciliationGate.runAndEnforce
  split
  · dsimp only
    split
    · rfl
    · exact ReconciliationEngine.reconcile_view (Untouched.logged A).toReadsLeave
        (symbols config) w.manager w.session.working w.exchange
  · rfl

/-- A tick sends nothing but reduce-only orders until its pipeline, if it gets there. -/
theorem tick_upToPipeline (w : Worker (σ × List OrderRequest)) :
    (tickReport A.logged config wiring i w = none ∧
      OnlyReduces w.exchange (tick A.logged config wiring i w).2.exchange) ∨
    ∃ snapshots w', OnlyReduces w.exchange w'.exchange ∧
      (tick A.logged config wiring i w).2 = pipelineStage A.logged config wiring i snapshots
        (tickReport A.logged config wiring i w) w' := by
  unfold tickReport tick
  rcases hm : marketStage A.logged config wiring i { w with calls := [] } with
    ⟨e | snapshots, w₁⟩
  all_goals
    have hmarket : OnlyReduces w.exchange w₁.exchange :=
      .of_same (marketStage_log A config wiring i (w := { w with calls := [] }) hm)
  · exact .inl ⟨rfl, hmarket⟩
  · have hhealth : (healthStage config wiring i snapshots w₁).exchange = w₁.exchange := by
      unfold healthStage
      split <;> rfl
    have hexits := positionStage_onlyReduces A wiring i (healthStage config wiring i snapshots w₁)
    have hgate := gateStage_log A config wiring i
      (positionStage A.logged wiring i (healthStage config wiring i snapshots w₁))
    rw [hhealth] at hexits
    exact .inr ⟨snapshots, _, (hmarket.trans hexits).trans (.of_same hgate), rfl⟩

variable {A config wiring i}

/-- In a tick whose report is incomplete the worker sends nothing but reduce-only
orders, whatever its supervisor could persist or read. -/
theorem incomplete_report_no_entry {w : Worker (σ × List OrderRequest)}
    (hr : tickReport A.logged config wiring i w = some report)
    (hi : report.isComplete = false) :
    OnlyReduces w.exchange (tick A.logged config wiring i w).2.exchange := by
  rcases tick_upToPipeline A config wiring i w
    with ⟨hnone, _⟩ | ⟨snapshots, w', hbefore, htick⟩
  · rw [hr] at hnone
    cases hnone
  · have hpipeline : (pipelineStage A.logged config wiring i snapshots (some report) w').exchange.2 =
        w'.exchange.2 := by
      unfold pipelineStage
      split
      · rw [Option.map_some, Option.getD_some, Option.map_some, Option.getD_some, hi]
        exact runDecisionPipeline_unreliable (Untouched.logged A) _ _ _
      · rfl
    rw [htick, hr]
    exact hbefore.trans (.of_same hpipeline)

end CycleRunner

/-- The simulation behind a transport that reads the account once. -/
def onceReadable : ExchangeAdapter (PaperAdapter × Bool) :=
  { PaperAdapter.exchange.beside Bool with
    getAccountState := fun x =>
      if x.2 then (.error (.external "timeout"), x) else (.ok x.1.getAccountState, (x.1, true)) }

/-- A tick in which an entry is proposed, and in which no SAFE_MODE can be stored. -/
def unstoredTick : TickInputs where
  feed :=
    { fetchSnapshot := fun symbol _ =>
        if symbol = "BTCUSDT" then .ok sampleSnapshot else .error (.external "timeout")
      processSnapshot := fun _ => .ok ()
      onSnapshot := fun _ => none }
  healthView := .failed
  closeOrderId _ := "close"
  monotonic _ := 0
  gateView := .failed
  latest _ := .failed
  sources := tenfoldSources "entry"

def onceReadableWorker : Worker ((PaperAdapter × Bool) × List OrderRequest) where
  manager := .idle
  exchange := (({}, false), [])
  session := (idleWithAtr 2).session

theorem unreadable_balance_no_entry : OnlyReduces onceReadableWorker.exchange
    (tick onceReadable.logged defaultConfig {} unstoredTick onceReadableWorker).2.exchange := by
  have he : (tickReport onceReadable.logged defaultConfig {} unstoredTick onceReadableWorker).map
      (·.isComplete) = some false := by decide +kernel
  obtain ⟨report, hr, hi⟩ := Option.map_eq_some_iff.mp he
  exact incomplete_report_no_entry hr hi

end FuturesBot
