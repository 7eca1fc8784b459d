import FuturesBot.Positions.ConfigMapper
import FuturesBot.Positions.Manager
import FuturesBot.Risk.Engine
import FuturesBot.Storage.Session

namespace FuturesBot
open Lib

/-- The constants of an `ExecutionEngine`. -/
structure ExecutionSettings where
  environment : Environment
  positionManagementDefaults : PositionManagementConfig

/-- What the engine works on: the desk it shares with the tick service, and the
session. -/
structure TradingState (σ : Type u) extends Desk σ where
  session : Session

structure ExecutionResult where
  orderResult : OrderResult
  tradeId : Option RowId
  orderDbId : RowId
  positionRegistered : Bool

namespace ExecutionEngine

/-- The plan is refused before anything reaches the exchange. -/
def admitPlan (d : ModelDecision) (r : RiskValidationResult) (atr : Option Amount) :
    Except PyError (AdjustedParameters × Amount) :=
  if ¬r.decision.executable then .error (.valueError "RiskValidationResult no es ejecutable")
  else if d.entryType = .noEntry then
    .error (.valueError "ModelDecision.entry_type=NO_ENTRY no puede ejecutarse")
  else match r.adjustedParameters with
    | none => .error (.runtimeError "RiskValidationResult sin adjusted_parameters")
    | some adjusted =>
      if d.entryPrice ≤ 0 then .error (.valueError "entry_price debe ser > 0")
      else match atr with
        | none => .error (.valueError "No hay VolatilityAssessment reciente")
        | some atr1h => .ok (adjusted, atr1h)

/-- Rounded down, so that the approved margin is never exceeded. -/
def computeQuantity (marginUsdt : Amount) (leverage : ℤ) (d : ModelDecision) : Amount :=
  quantizeWith roundDown quantPlaces (marginUsdt * leverage / d.entryPrice)

/-- The decision's identifier is the order's, and the book is the one that the
estimate was made against. -/
def buildOrderRequest (d : ModelDecision) (quantity : Amount)
    (estimate : Option SlippageEstimate) : Except PyError OrderRequest :=
  OrderRequest.build
    { clientOrderId := d.decisionId, symbol := d.symbol, side := entrySide d,
      orderType := entryOrderType d, quantity := quantity, price := some d.entryPrice,
      bid := estimate.map (·.bid), ask := estimate.map (·.ask) }

/-- The settings of the symbol, and then the request of the entry order. -/
def prepareOrder (A : ExchangeAdapter σ) (d : ModelDecision) (adjusted : AdjustedParameters)
    (estimate : Option SlippageEstimate) : Call σ OrderRequest := fun x =>
  match A.setMarginType d.symbol d.marginType x with
  | (.error e, x) => (.error e, x)
  | (.ok (), x) =>
    match A.setLeverage d.symbol adjusted.leverage x with
    | (.error e, x) => (.error e, x)
    | (.ok (), x) =>
      (buildOrderRequest d (computeQuantity adjusted.marginUsdt adjusted.leverage d) estimate, x)

def orderRow (s : ExecutionSettings) (d : ModelDecision) (result : OrderResult)
    (estimate : Option SlippageEstimate) (now : Timestamp) : OrderRow where
  clientOrderId := result.clientOrderId
  symbol := result.symbol
  environment := s.environment
  orderType := result.orderType
  side := result.side
  quantity := if result.status = .filled then result.quantityFilled else result.quantityRequested
  price := some d.entryPrice
  status := result.status
  createdAt := now
  filledAt := if result.status = .filled then some result.timestampUtc else none
  fillPrice := result.fillPrice
  fee := some result.feeUsdt
  slippageUsdt := if result.status = .filled then result.slippageUsdt else none
  estimatedSlippageUsdt := estimate.map (·.estimatedSlippageUsdt)
  isSimulated := result.isSimulated

def tradeRow (s : ExecutionSettings) (d : ModelDecision) (adjusted : AdjustedParameters)
    (result : OrderResult) : TradeRow where
  symbol := d.symbol
  environment := s.environment
  direction := d.decision
  entryPrice := result.fillPrice
  marginUsdt := adjusted.marginUsdt
  leverage := adjusted.leverage
  quantity := some result.quantityFilled
  status := .open
  openedAt := result.timestampUtc

def positionRow (s : ExecutionSettings) (d : ModelDecision) (adjusted : AdjustedParameters)
    (result : OrderResult) (fillPrice : Amount) (tradeId : RowId) : PositionRow where
  tradeId := tradeId
  symbol := d.symbol
  environment := s.environment
  direction := d.decision
  quantity := result.quantityFilled
  entryPrice := fillPrice
  marginUsdt := adjusted.marginUsdt
  leverage := adjusted.leverage
  stopLoss := some d.stopLoss
  takeProfit := some d.takeProfit
  status := .open
  openedAt := result.timestampUtc
  updatedAt := result.timestampUtc

/-- The exits that a filled entry is handed over with. -/
def planConfig (s : ExecutionSettings) (d : ModelDecision) (atr1h entryPrice : Amount) :
    Except PyError PositionConfig :=
  buildPositionConfig d.symbol d.stopLoss d.takeProfit d.positionManagementPlan.useTrailingStop
    d.positionManagementPlan.moveToBreakEven s.positionManagementDefaults entryPrice (some atr1h)

/-- What is done with the answer to the entry order. The three rows of a fill are
flushed first, and committed only once the exits are registered. -/
def recordEntry (s : ExecutionSettings) (d : ModelDecision) (adjusted : AdjustedParameters)
    (atr1h : Amount) (estimate : Option SlippageEstimate) (result : OrderResult) :
    Call (TradingState σ) ExecutionResult := fun st =>
  let orderId := st.session.working.orders.length
  let recorded := st.session.addOrder (orderRow s d result estimate st.session.now)
  if result.status ≠ .filled then
    (.ok ⟨result, none, orderId, false⟩, { st with session := recorded.commit })
  else match result.fillPrice with
    | none =>
      (.error (.runtimeError "OrderResult.status=FILLED sin fill_price"),
        { st with session := recorded.commit })
    | some fillPrice =>
      let tradeId := recorded.working.trades.length
      let opened := ((recorded.addTrade (tradeRow s d adjusted result)).linkTrade orderId tradeId
        ).addPosition (positionRow s d adjusted result fillPrice tradeId)
      match planConfig s d atr1h fillPrice with
      | .error e => (.error e, { st with session := opened })
      | .ok config =>
        (.ok ⟨result, some tradeId, orderId, true⟩,
          { st with manager := st.manager.setConfig config, session := opened.commit })

/-- The result of an order that has already been stored. -/
def resultFromExistingOrder (rowId : RowId) (row : OrderRow) : Except PyError ExecutionResult :=
  match OrderResult.build
      { clientOrderId := row.clientOrderId, symbol := row.symbol, side := row.side,
        orderType := row.orderType, status := row.status, quantityRequested := row.quantity,
        quantityFilled := if row.status = .filled then row.quantity else 0,
        fillPrice := row.fillPrice, feeUsdt := row.fee.getD 0, slippageUsdt := row.slippageUsdt,
        isSimulated := row.isSimulated, timestampUtc := row.filledAt.getD row.createdAt } with
  | .error e => .error e
  | .ok result => .ok ⟨result, row.tradeId, rowId, row.tradeId.isSome⟩

def executeApprovedPlan (A : ExchangeAdapter σ) (s : ExecutionSettings) (d : ModelDecision)
    (r : RiskValidationResult) (estimate : Option SlippageEstimate) :
    Call (TradingState σ) ExecutionResult := fun st =>
  match st.session.working.getByClientOrderId d.decisionId with
  | some row =>
    (resultFromExistingOrder
      ((st.session.working.orders ++ st.session.working.ordersOfOtherRuns).findIdx
        (·.clientOrderId = d.decisionId)) row, st)
  | none =>
    match admitPlan d r (st.session.working.latestAtr d.symbol) with
    | .error e => (.error e, st)
    | .ok (adjusted, atr1h) =>
      match prepareOrder A d adjusted estimate st.exchange with
      | (.error e, x) => (.error e, { st with exchange := x })
      | (.ok request, x) =>
        match A.placeOrder request x with
        | (.error e, x) => (.error e, { st with exchange := x })
        | (.ok result, x) =>
          recordEntry s d adjusted atr1h estimate result { st with exchange := x }

end ExecutionEngine

end FuturesBot
