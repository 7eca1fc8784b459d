import FuturesBot.Positions.TickService
import FuturesBot.Trading.Pipeline

namespace FuturesBot
open Lib

/-- The services that a tick may call. -/
inductive Stage
  | marketData | connectionHealth | positionTicks | reconciliation | decisionPipeline
  deriving DecidableEq, Repr

/-- A worker: the desk, the market cache and the supervisor of its state. `calls` logs
the services that the current tick has called. -/
structure Worker (σ : Type u) extends Desk σ, Supervisor where
  cache : MarketDataCache := {}
  calls : List Stage := []

/-- The optional services that a `CycleRunner` has been given. -/
structure Wiring where
  marketData : Bool := true
  connectionHealth : Bool := true
  positionTicks : Bool := true
  reconciliation : Bool := true
  decisionPipeline : Bool := true

/-- What one tick meets outside the worker. `latest` is what the read of `bot_state`
returns when that many snapshots are still to be processed. -/
structure TickInputs where
  feed : MarketFeed
  healthView : TriggerRead
  closeOrderId : Symbol → ClientOrderId
  monotonic : Symbol → Seconds
  gateView : TriggerRead
  latest : ℕ → StateRead
  sources : DecisionSources

namespace CycleRunner

variable (A : ExchangeAdapter σ) (config : AppConfig) (wiring : Wiring) (i : TickInputs)

def symbols : List Symbol := config.trading.allowedSymbols

def calling (stage : Stage) (w : Worker σ) : Worker σ := { w with calls := w.calls ++ [stage] }

/-- The market data of the tick, which may raise. -/
def marketStage : Call (Worker σ) (List MarketSnapshot) := fun w =>
  if wiring.marketData then
    let w := calling .marketData w
    match MarketDataCycleService.tickAll A (symbols config) i.feed w.cache w.session w.exchange with
    | (.error e, x) => (.error e, { w with exchange := x })
    | (.ok (snapshots, cache, session), x) =>
      (.ok snapshots, { w with exchange := x, cache := cache, session := session })
  else (.ok [], w)

def healthStage (snapshots : List MarketSnapshot) (w : Worker σ) : Worker σ :=
  if wiring.connectionHealth then
    { calling .connectionHealth w with
      toSupervisor := ConnectionHealthMonitor.checkAndEnforce config.connectionHealth
        (symbols config) snapshots i.healthView w.toSupervisor }
  else w

/-- The feeds of the tick service are the caches of the market data. -/
def cycleInputs (cache : MarketDataCache) : CycleInputs where
  getMarkPrice symbol := match cache.lastPrices.get symbol with
    | none => .error (.lookupError symbol)
    | some price => .ok price
  getBook symbol := .ok (cache.lastBooks.get symbol)
  orderId := i.closeOrderId
  monotonic := i.monotonic

def positionStage (w : Worker σ) : Worker σ :=
  if wiring.positionTicks then
    { calling .positionTicks w with
      toDesk := (PositionTickService.tickAll A (cycleInputs i w.cache) w.toDesk).2 }
  else w

/-- The report of the gate, if it made one. -/
def gateStage (w : Worker σ) : Option ReconciliationReport × Worker σ :=
  if wiring.reconciliation then
    match ReconciliationGate.runAndEnforce A config.reconciliation (symbols config) w.manager
        i.gateView w.toSupervisor w.exchange with
    | (report, s, x) =>
      (report, { calling .reconciliation w with toSupervisor := s, exchange := x })
  else (none, w)

/-- The symbols of a tick, one after the other, each after a fresh look at the
state. A stopped bot ends the loop; one that may not trade skips the symbol. -/
def runDecisionPipeline (unverified : List Symbol) (reliable : Bool) :
    List MarketSnapshot → Worker σ × ℤ → Worker σ × ℤ
  | [], w => w
  | snapshot :: rest, (w, opened) =>
    let w := { w with toSupervisor := w.syncStateFromDb (i.latest (rest.length + 1)) }
    if ¬w.botState.isRunning then (w, opened)
    else if ¬w.botState.canTrade then runDecisionPipeline unverified reliable rest (w, opened)
    else if snapshot.symbol ∈ unverified then
      runDecisionPipeline unverified reliable rest (w, opened)
    else
      let st := processNested A config i.sources reliable snapshot ⟨⟨w.toDesk, w.session⟩, opened⟩
      runDecisionPipeline unverified reliable rest
        ({ w with toDesk := st.toDesk, session := st.session }, st.openedThisTick)

def pipelineStage (snapshots : List MarketSnapshot) (report : Option ReconciliationReport)
    (w : Worker σ) : Worker σ :=
  if wiring.decisionPipeline ∧ snapshots ≠ [] then
    (runDecisionPipeline A config i ((report.map (·.failedSymbols)).getD [])
      ((report.map (·.isComplete)).getD true) snapshots (calling .decisionPipeline w, 0)).1
  else w

/-- One tick. Only its first stage can raise. -/
def tick : Call (Worker σ) Unit := fun w =>
  match marketStage A config wiring i { w with calls := [] } with
  | (.error e, w) => (.error e, w)
  | (.ok snapshots, w) =>
    let w := healthStage config wiring i snapshots w
    let w := positionStage A wiring i w
    let (report, w) := gateStage A config wiring i w
    (.ok (), pipelineStage A config wiring i snapshots report w)

end CycleRunner

/-- An iteration of the loop: the state read at its top, and its tick if the bot runs. -/
structure Iteration where
  latest : StateRead
  inputs : TickInputs

namespace CycleRunner

variable (A : ExchangeAdapter σ) (config : AppConfig) (wiring : Wiring)

/-- The loop of the worker, with the services that each of its ticks called. A tick
that raises ends it. -/
def run : List Iteration → Worker σ → (Except PyError Unit × List (List Stage)) × Worker σ
  | [], w => ((.ok (), []), w)
  | it :: rest, w =>
    let w := { w with toSupervisor := w.syncStateFromDb it.latest }
    if ¬w.botState.isRunning then run rest w
    else
      match tick A config wiring it.inputs w with
      | (.error e, w) => ((.error e, [w.calls]), w)
      | (.ok (), w) =>
        let ((outcome, ticks), w') := run rest w
        ((outcome, w.calls :: ticks), w')

end CycleRunner

end FuturesBot
