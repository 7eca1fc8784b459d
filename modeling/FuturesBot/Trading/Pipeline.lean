import FuturesBot.Execution.Engine
import FuturesBot.Reconciliation.Gate

namespace FuturesBot
open Lib

/-- What the pipeline asks of the components around it: the signals and the prompt
of a snapshot, the model's answer to it, and the verdict of the aggregator. A
model that gives no answer has had its failure swallowed by the policy. -/
structure DecisionSources where
  analyse : MarketSnapshot → Except PyError Unit
  request : MarketSnapshot → Except PyError (Option ModelDecision)
  aggregate : MarketSnapshot → ModelDecision → Except PyError DecisionType

/-- The state of a tick's pipeline; the counter also counts attempts whose outcome
is unknown. -/
structure PipelineState (σ : Type u) extends TradingState σ where
  openedThisTick : ℤ := 0

namespace CycleRunner

def executionSettings (config : AppConfig) : ExecutionSettings :=
  { environment := config.environment
    positionManagementDefaults := config.positionManagement }

/-- The slippage expected of the proposed parameters. -/
def preTradeSlippage (config : AppConfig) (snapshot : MarketSnapshot) (d : ModelDecision)
    (marginUsdt : Amount) (leverage : ℤ) : Except PyError SlippageEstimate :=
  estimateForDecision snapshot.toSnapshotBook d marginUsdt leverage config.slippage.marketImpactBps

def proposedSlippage (config : AppConfig) (snapshot : MarketSnapshot) (d : ModelDecision) :
    Except PyError (Option SlippageEstimate) :=
  if isEstimable d then
    (preTradeSlippage config snapshot d d.marginUsdt d.leverage).map some
  else .ok none

/-- The fees expected of the proposed parameters. Rates that the exchange cannot
give leave the estimate out, and the gate blocks. -/
def proposedFees (A : ExchangeAdapter σ) (symbol : Symbol) (d : ModelDecision) :
    Call σ (Option FeeEstimate) := fun x =>
  if ¬isEstimable d then (.ok none, x)
  else match A.getFeeRates symbol x with
    | (.error .feeRatesUnavailable, x) => (.ok none, x)
    | (.error e, x) => (.error e, x)
    | (.ok rates, x) => ((estimateFeesForDecision d d.marginUsdt d.leverage rates).map some, x)

/-- What the risk engine is told. An unreliable count of positions is withheld. -/
def riskContext (db : Database) (now : Timestamp) (snapshot : MarketSnapshot)
    (openPositionsCount : Option ℤ) (openPnl : Option Amount) (fees : Option FeeEstimate)
    (slippage : Option SlippageEstimate) : RiskContext where
  dailyLossUsdt := (db.getLossTotals now).1
  totalLossUsdt := (db.getLossTotals now).2
  lastTradePnlUsdt := (db.getLastClosedTrade snapshot.symbol).bind (·.netPnl)
  lastTradeMarginUsdt := (db.getLastClosedTrade snapshot.symbol).map (·.marginUsdt)
  openPositionUnrealizedPnlUsdt := openPnl
  fundingRate := snapshot.fundingRate
  openPositionsCount := openPositionsCount
  feeEstimate := fees
  slippageEstimate := slippage
  lastAccountTradePnlUsdt := db.getLastClosedTradeAnySymbol.bind (·.netPnl)
  lastAccountTradeLeverage := db.getLastClosedTradeAnySymbol.map (·.leverage)

/-- The estimates and the verdict of the risk engine on a decision. -/
def assess (A : ExchangeAdapter σ) (config : AppConfig) (reliable : Bool)
    (snapshot : MarketSnapshot) (d : ModelDecision) (st : PipelineState σ) :
    Except PyError (RiskValidationResult × Option SlippageEstimate) × σ :=
  match proposedSlippage config snapshot d with
  | .error e => (.error e, st.exchange)
  | .ok slippage =>
    match proposedFees A snapshot.symbol d st.exchange with
    | (.error e, x) => (.error e, x)
    | (.ok fees, x) =>
      match A.getPosition snapshot.symbol x with
      | (.error e, x) => (.error e, x)
      | (.ok position, x) =>
        let count := if reliable then some (snapshot.openPositionsCount + st.openedThisTick)
          else none
        let ctx := riskContext st.session.working st.session.now snapshot count
          (position.map (·.unrealizedPnl)) fees slippage
        ((validate d ctx config).map (·, slippage), x)

/-- The estimate stored with the order describes the parameters it was approved
with. -/
def executedEstimate (config : AppConfig) (snapshot : MarketSnapshot) (d : ModelDecision)
    (approved : AdjustedParameters) (slippage : Option SlippageEstimate) :
    Except PyError (Option SlippageEstimate) :=
  if slippage.isSome ∧ (approved.marginUsdt ≠ d.marginUsdt ∨ approved.leverage ≠ d.leverage) then
    (preTradeSlippage config snapshot d approved.marginUsdt approved.leverage).map some
  else .ok slippage

/-- The execution of an approved result. Only an order that is known to have left
nothing is taken back from the counter. -/
def enter (A : ExchangeAdapter σ) (config : AppConfig) (snapshot : MarketSnapshot)
    (d : ModelDecision) (r : RiskValidationResult) (slippage : Option SlippageEstimate) :
    Call (PipelineState σ) Unit := fun st =>
  match r.adjustedParameters with
  | none => (.error (.runtimeError "RiskValidationResult sin adjusted_parameters"), st)
  | some approved =>
    match executedEstimate config snapshot d approved slippage with
    | .error e => (.error e, st)
    | .ok estimate =>
      let opened := st.openedThisTick + 1
      match ExecutionEngine.executeApprovedPlan A (executionSettings config) d r estimate
          st.toTradingState with
      | (.error e, t) => (.error e, ⟨t, opened⟩)
      | (.ok execution, t) =>
        let result := execution.orderResult
        if (result.status = .cancelled ∨ result.status = .failed) ∧ result.quantityFilled = 0 then
          (.ok (), ⟨t, opened - 1⟩)
        else (.ok (), ⟨t, opened⟩)

/-- The model's decision about a snapshot and the aggregator's action, if there is a
decision at all. -/
def askModel (o : DecisionSources) (snapshot : MarketSnapshot) :
    Except PyError (Option (ModelDecision × DecisionType)) :=
  match o.analyse snapshot with
  | .error e => .error e
  | .ok () =>
    match o.request snapshot with
    | .error e => .error e
    | .ok none => .ok none
    | .ok (some d) =>
      match o.aggregate snapshot d with
      | .error e => .error e
      | .ok action => .ok (some (d, action))

def auditDecision (config : AppConfig) (d : ModelDecision) (action : DecisionType) (s : Session) :
    Session :=
  if config.storage.logAllDecisions then
    (s.auditModelDecision d).auditDecisionAggregation ⟨d.decisionId, action⟩
  else s

def auditValidation (config : AppConfig) (r : RiskValidationResult) (s : Session) : Session :=
  if config.storage.logRiskValidations then
    s.auditRiskValidation ⟨r, config.storage.logAllDecisions⟩
  else s

/-- `_process_symbol`: from the snapshot of a symbol to at most one entry. -/
def processSymbol (A : ExchangeAdapter σ) (config : AppConfig) (o : DecisionSources)
    (reliable : Bool) (snapshot : MarketSnapshot) : Call (PipelineState σ) Unit := fun st =>
  match askModel o snapshot with
  | .error e => (.error e, st)
  | .ok none => (.ok (), st)
  | .ok (some (d, action)) =>
    let st := { st with session := auditDecision config d action st.session }
    if action = .noOperar then (.ok (), st)
    else match assess A config reliable snapshot d st with
      | (.error e, x) => (.error e, { st with exchange := x })
      | (.ok (r, slippage), x) =>
        let st := { st with exchange := x, session := auditValidation config r st.session }
        if r.decision.executable then enter A config snapshot d r slippage st else (.ok (), st)

/-- A symbol under its savepoint: a failure takes back the rows it flushed and is
logged. -/
def processNested (A : ExchangeAdapter σ) (config : AppConfig) (o : DecisionSources)
    (reliable : Bool) (snapshot : MarketSnapshot) (st : PipelineState σ) : PipelineState σ :=
  match processSymbol A config o reliable snapshot st with
  | (.ok (), st') => st'
  | (.error _, st') => { st' with session := st'.session.rollbackTo st.session }

end CycleRunner

end FuturesBot
