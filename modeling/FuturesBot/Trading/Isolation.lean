import FuturesBot.Positions.Closing
import FuturesBot.Trading.Cycle

namespace FuturesBot
open Lib

namespace CycleRunner

variable (A : ExchangeAdapter σ) (config : AppConfig) (wiring : Wiring)

/-- In every tick that the loop reaches, the market data stage can read the account. -/
def AccountsReadable : List Iteration → Worker σ → Prop
  | [], _ => True
  | it :: rest, w =>
    let w := { w with toSupervisor := w.syncStateFromDb it.latest }
    if ¬w.botState.isRunning then AccountsReadable rest w
    else (wiring.marketData → MarketDataCycleService.AccountReadable A (symbols config) w.exchange) ∧
      AccountsReadable rest (tick A config wiring it.inputs w).2

/-- The tick called both the tick service and the gate. -/
def Served (calls : List Stage) : Prop := .positionTicks ∈ calls ∧ .reconciliation ∈ calls

instance : Decidable (Served calls) := inferInstanceAs (Decidable (_ ∧ _))

variable {A config wiring} {w : Worker σ}

theorem marketStage_iff :
    (∃ snapshots w', marketStage A config wiring i w = (.ok snapshots, w')) ↔
      (wiring.marketData → MarketDataCycleService.AccountReadable A (symbols config) w.exchange) := by
  unfold marketStage
  by_cases hm : wiring.marketData
  · rw [if_pos hm]
    simp only [hm, forall_const]
    rw [← MarketDataCycleService.tickAll_iff i.feed w.cache w.session]
    constructor
    · intro hex
      obtain ⟨snapshots, w', h⟩ := hex
      dsimp only [calling] at h
      split at h
      · cases h
      · rename_i ht
        exact ⟨_, _, ht⟩
    · intro hex
      obtain ⟨r, x, h⟩ := hex
      dsimp only [calling]
      rw [h]
      exact ⟨_, _, rfl⟩
  · rw [if_neg hm]
    simp [hm]

/-- A stage that runs after the market data keeps the log of the tick. -/
theorem runDecisionPipeline_calls :
    ∀ (snapshots : List MarketSnapshot) (w : Worker σ × ℤ),
      (runDecisionPipeline A config i unverified reliable snapshots w).1.calls = w.1.calls
  | [], _ => rfl
  | snapshot :: rest, (w, opened) => by
    rw [runDecisionPipeline]
    dsimp only
    split
    · rfl
    split
    · exact runDecisionPipeline_calls rest _
    split
    · exact runDecisionPipeline_calls rest _
    · exact runDecisionPipeline_calls rest _

theorem pipelineStage_calls (hs : stage ∈ w.calls) :
    stage ∈ (pipelineStage A config wiring i snapshots report w).calls := by
  unfold pipelineStage
  split
  · rw [runDecisionPipeline_calls]
    exact List.mem_append_left _ hs
  · exact hs

theorem gateStage_calls (hg : wiring.reconciliation) :
    (gateStage A config wiring i w).2.calls = w.calls ++ [.reconciliation] := by
  rw [gateStage, if_pos hg]
  rfl

theorem positionStage_calls (hp : wiring.positionTicks) :
    (positionStage A wiring i w).calls = w.calls ++ [.positionTicks] := by
  rw [positionStage, if_pos hp]
  rfl

/-- Once the account has been read, nothing keeps a tick from serving the open
positions and returning. -/
theorem tick_ok (hp : wiring.positionTicks) (hg : wiring.reconciliation)
    (hm : marketStage A config wiring i { w with calls := [] } = (.ok snapshots, w')) :
    (tick A config wiring i w).1 = .ok () ∧ Served (tick A config wiring i w).2.calls := by
  unfold tick
  rw [hm]
  refine ⟨rfl, pipelineStage_calls ?_, pipelineStage_calls ?_⟩
  · rw [gateStage_calls hg, positionStage_calls hp]
    simp
  · rw [gateStage_calls hg]
    simp

theorem tick_error (hm : ∀ snapshots w', marketStage A config wiring i { w with calls := [] } ≠
    (.ok snapshots, w')) : ∃ e w', tick A config wiring i w = (.error e, w') := by
  unfold tick
  rcases h : marketStage A config wiring i { w with calls := [] } with ⟨e | snapshots, w'⟩
  · exact ⟨e, w', rfl⟩
  · exact absurd h (hm snapshots w')

/-- One tick is isolated from every failure but that of the account reads. -/
theorem tick_iff (hp : wiring.positionTicks) (hg : wiring.reconciliation) :
    ((tick A config wiring i w).1 = .ok () ∧ Served (tick A config wiring i w).2.calls) ↔
      (wiring.marketData → MarketDataCycleService.AccountReadable A (symbols config) w.exchange) := by
  have hi : (∃ snapshots w', marketStage A config wiring i { w with calls := [] } =
      (.ok snapshots, w')) ↔
      (wiring.marketData → MarketDataCycleService.AccountReadable A (symbols config) w.exchange) :=
    marketStage_iff
  rw [← hi]
  constructor
  · intro hboth
    obtain ⟨ho, _⟩ := hboth
    by_contra hn
    obtain ⟨e, w', he⟩ := tick_error (fun snapshots w' h => hn ⟨snapshots, w', h⟩)
    rw [he] at ho
    cases ho
  · intro hex
    obtain ⟨snapshots, w', h⟩ := hex
    exact tick_ok hp hg h

/-- The loop comes to its end, each of its ticks having served the open positions,
exactly when the account can be read in every tick that it reaches. -/
theorem run_isolated_iff (hp : wiring.positionTicks) (hg : wiring.reconciliation)
    (its : List Iteration) (w : Worker σ) :
    ((run A config wiring its w).1.1 = .ok () ∧
      ∀ calls ∈ (run A config wiring its w).1.2, Served calls) ↔
      AccountsReadable A config wiring its w := by
  induction its generalizing w with
  | nil => simp [run, AccountsReadable]
  | cons it rest ih =>
    rw [run, AccountsReadable]
    dsimp only
    split
    · exact ih _
    · let synced : Worker σ := { w with toSupervisor := w.syncStateFromDb it.latest }
      have hi : ((tick A config wiring it.inputs synced).1 = .ok () ∧
          Served (tick A config wiring it.inputs synced).2.calls) ↔ _ := tick_iff hp hg
      refine Iff.trans ?_ (and_congr hi Iff.rfl)
      rw [← ih]
      rcases ht : tick A config wiring it.inputs _ with ⟨e | _, w'⟩
      · simp
      · simp only [List.mem_cons, forall_eq_or_imp, true_and]
        exact and_left_comm

/-- The simulation behind a transport that cannot read the account. -/
def unreadablePaper : ExchangeAdapter PaperAdapter :=
  { PaperAdapter.exchange with getAccountState := fun a => (.error (.external "timeout"), a) }

def idleSources : DecisionSources where
  analyse _ := .ok ()
  request _ := .ok none
  aggregate _ _ := .ok .noOperar

/-- A tick in which every fetch fails and the state cannot be touched. -/
def blindTick : TickInputs where
  feed :=
    { fetchSnapshot := fun _ _ => .error (.external "timeout")
      processSnapshot := fun _ => .ok ()
      onSnapshot := fun _ => none }
  healthView := .view ⟨some .running, none⟩ true
  closeOrderId _ := "close"
  monotonic _ := 0
  gateView := .view ⟨some .running, none⟩ true
  latest _ := .read none
  sources := idleSources

/-- A worker with an open position that it watches. -/
def holdingWorker : Worker PaperAdapter where
  toDesk := deskWith wholeLevel

theorem paper_isolated :
    (run PaperAdapter.exchange defaultConfig {} [⟨.read none, blindTick⟩] holdingWorker).1.1 = .ok () ∧
      ∀ calls ∈ (run PaperAdapter.exchange defaultConfig {} [⟨.read none, blindTick⟩] holdingWorker).1.2,
        Served calls := by
  refine (run_isolated_iff rfl rfl _ _).mpr ⟨fun _ => ?_, trivial⟩
  have reads : ∀ {α : Type} (read : Symbol → PaperAdapter → Except PyError α × PaperAdapter),
      (∀ s a, ∃ r, read s a = (.ok r, a)) → ∀ symbols a,
        MarketDataCycleService.ReadsTo read symbols a a := by
    intro α read h symbols a
    induction symbols with
    | nil => exact .nil a
    | cons s ss ih =>
      obtain ⟨r, hr⟩ := h s a
      exact .cons hr ih
  exact ⟨_, _, _, _, rfl, reads _ (fun _ _ => ⟨_, rfl⟩) _ _, reads _ (fun _ _ => ⟨_, rfl⟩) _ _⟩

/-- One failing read of the account ends the loop, and the open position is left to
itself. -/
theorem unreadable_account_ends_loop :
    ¬∀ (A : ExchangeAdapter PaperAdapter) (config : AppConfig) (its : List Iteration)
      (w : Worker PaperAdapter),
      (run A config {} its w).1.1 = .ok () ∧
        ∀ calls ∈ (run A config {} its w).1.2, Served calls := by
  intro h
  obtain ⟨ho, _⟩ := h unreadablePaper defaultConfig [⟨.read none, blindTick⟩] holdingWorker
  cases ho

end CycleRunner

end FuturesBot
