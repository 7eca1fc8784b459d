import FuturesBot.Positions.Manager
import FuturesBot.Storage.Session

namespace FuturesBot
open Lib

inductive DiscrepancyType
  | missingInDb | missingInAdapter | quantityMismatch | priceMismatch | statusMismatch
  | sideMismatch | partialFill | missingProtection | manualSlTpChange
  deriving DecidableEq, Repr

structure PositionDiscrepancy where
  symbol : Symbol
  discrepancyType : DiscrepancyType
  deriving DecidableEq, Repr

structure OrderDiscrepancy where
  clientOrderId : ClientOrderId
  symbol : Symbol
  discrepancyType : DiscrepancyType
  deriving DecidableEq, Repr

structure ReconciliationReport where
  positionDiscrepancies : List PositionDiscrepancy
  orderDiscrepancies : List OrderDiscrepancy
  failedSymbols : List Symbol
  balanceFetchFailed : Bool

def ReconciliationReport.isComplete (r : ReconciliationReport) : Bool :=
  r.failedSymbols.isEmpty && !r.balanceFetchFailed

def OrderSide.value : OrderSide → String
  | .buy => "BUY"
  | .sell => "SELL"

def DecisionType.value : DecisionType → String
  | .long => "LONG"
  | .short => "SHORT"
  | .noOperar => "NO_OPERAR"

namespace ReconciliationEngine

/-- Differences up to the eighth decimal are rounding. -/
def decimalTolerance : Amount := 1 / 100000000

def orderFetchLimit : ℕ := 1000

/-- `sorted(set(..))`. -/
def sortedSymbols (symbols : List Symbol) : List Symbol :=
  symbols.dedup.insertionSort (· ≤ ·)

/-- The side of the exchange is compared as text with the direction of the row. -/
def comparePosition (symbol : Symbol) (position : PositionState) (row : PositionRow) :
    List PositionDiscrepancy :=
  (if position.side.value ≠ row.direction.value then [⟨symbol, .sideMismatch⟩] else []) ++
  (if decimalTolerance < |position.quantity - row.quantity| then [⟨symbol, .quantityMismatch⟩]
    else []) ++
  (if decimalTolerance < |position.entryPrice - row.entryPrice| then [⟨symbol, .priceMismatch⟩]
    else [])

/-- A level that the exchange reports by itself must be the one watched here. -/
def checkManualSlTpChange (symbol : Symbol) (adapterValue configValue : Option Amount) :
    List PositionDiscrepancy :=
  match adapterValue with
  | none => []
  | some v =>
    if configValue.any (fun c => |v - c| ≤ decimalTolerance) then []
    else [⟨symbol, .manualSlTpChange⟩]

def checkProtection (symbol : Symbol) (position : PositionState) (m : PositionManager) :
    List PositionDiscrepancy :=
  match m.getConfig symbol with
  | none => [⟨symbol, .missingProtection⟩]
  | some config =>
    checkManualSlTpChange symbol position.stopLoss ((m.getEffectiveSl symbol).or config.stopLoss) ++
    checkManualSlTpChange symbol position.takeProfit ((m.getEffectiveTp symbol).or config.takeProfit)

/-- The findings about a symbol that could be read. -/
def positionFindings (symbol : Symbol) (position : Option PositionState)
    (row : Option PositionRow) (m : PositionManager) : List PositionDiscrepancy :=
  match position, row with
  | none, none => []
  | some _, none => [⟨symbol, .missingInDb⟩]
  | none, some _ => [⟨symbol, .missingInAdapter⟩]
  | some p, some r => comparePosition symbol p r ++ checkProtection symbol p m

/-- Calls a read for every symbol, keeping what was returned and which calls
raised. -/
def readEach (read : Symbol → Call σ α) : List Symbol → σ → (List (Symbol × α) × List Symbol) × σ
  | [], x => (([], []), x)
  | symbol :: symbols, x =>
    match read symbol x with
    | (.error _, x) =>
      let ((answers, failed), x) := readEach read symbols x
      ((answers, symbol :: failed), x)
    | (.ok a, x) =>
      let ((answers, failed), x) := readEach read symbols x
      (((symbol, a) :: answers, failed), x)

/-- The last open row of a symbol, as a dictionary built from all rows keeps it. -/
def openRow (db : Database) (symbol : Symbol) : Option PositionRow :=
  (db.listOpenPositions.filter (·.symbol = symbol)).getLast?

def reconcilePositions (A : ExchangeAdapter σ) (symbols : List Symbol) (m : PositionManager)
    (db : Database) (x : σ) : (List PositionDiscrepancy × List Symbol) × σ :=
  let all := sortedSymbols (symbols ++ db.listOpenPositions.map (·.symbol))
  let ((answers, failed), x) := readEach A.getPosition all x
  ((answers.flatMap (fun a => positionFindings a.1 a.2 (openRow db a.1) m), failed), x)

def compareOrder (order : OrderResult) (row : Option OrderRow) : List OrderDiscrepancy :=
  match row with
  | none => [⟨order.clientOrderId, order.symbol, .missingInDb⟩]
  | some row =>
    if order.status = .partiallyFilled then [⟨order.clientOrderId, order.symbol, .partialFill⟩]
    else if order.status ≠ row.status then [⟨order.clientOrderId, order.symbol, .statusMismatch⟩]
    else []

def reconcileOrders (A : ExchangeAdapter σ) (symbols : List Symbol) (db : Database) (x : σ) :
    (List OrderDiscrepancy × List Symbol) × σ :=
  let pending := db.listByStatus .pending orderFetchLimit
  let all := sortedSymbols (symbols ++ pending.map (·.symbol))
  let ((answers, failed), x) := readEach A.getOpenOrders all x
  let orders := answers.flatMap (·.2)
  let compared := orders.flatMap (fun o => compareOrder o (db.getByClientOrderId o.clientOrderId))
  let resolved := pending.filter (fun row =>
    row.clientOrderId ∉ orders.map (·.clientOrderId) ∧ row.symbol ∉ failed)
  ((compared ++ resolved.map (fun row => ⟨row.clientOrderId, row.symbol, .missingInAdapter⟩),
    failed), x)

/-- The balance, the positions and the orders, each read on its own account. -/
def reconcile (A : ExchangeAdapter σ) (symbols : List Symbol) (m : PositionManager)
    (db : Database) (x : σ) : ReconciliationReport × σ :=
  let (account, x) := A.getAccountState x
  let ((positions, positionsFailed), x) := reconcilePositions A symbols m db x
  let ((orders, ordersFailed), x) := reconcileOrders A symbols db x
  ({ positionDiscrepancies := positions
     orderDiscrepancies := orders
     failedSymbols := sortedSymbols (positionsFailed ++ ordersFailed)
     balanceFetchFailed := !account.isOk }, x)

end ReconciliationEngine

end FuturesBot
