import FuturesBot.Risk.Engine
import Mathlib.Data.List.MinMax
import Mathlib.Data.List.Sort

namespace FuturesBot

/-- The key of a stored row: its place in the table, standing for the UUID. -/
abbrev RowId := ℕ

/- The tables of one bot run, with the columns that the modelled code reads or
writes, in the order of insertion. -/

structure OrderRow where
  tradeId : Option RowId := none
  clientOrderId : ClientOrderId
  symbol : Symbol
  environment : Environment
  orderType : OrderType
  side : OrderSide
  quantity : Amount
  price : Option Amount
  status : OrderStatus
  createdAt : Timestamp
  filledAt : Option Timestamp
  fillPrice : Option Amount
  fee : Option Amount
  slippageUsdt : Option Amount
  estimatedSlippageUsdt : Option Amount
  isSimulated : Bool

inductive RowStatus
  | open | closed
  deriving DecidableEq, Repr

structure TradeRow where
  symbol : Symbol
  environment : Environment
  direction : DecisionType
  entryPrice : Option Amount
  marginUsdt : Amount
  leverage : ℤ
  quantity : Option Amount
  netPnl : Option Amount := none
  status : RowStatus
  openedAt : Timestamp
  closedAt : Option Timestamp := none

structure PositionRow where
  tradeId : RowId
  symbol : Symbol
  environment : Environment
  direction : DecisionType
  quantity : Amount
  entryPrice : Amount
  marginUsdt : Amount
  leverage : ℤ
  stopLoss : Option Amount
  takeProfit : Option Amount
  status : RowStatus
  openedAt : Timestamp
  updatedAt : Timestamp

structure VolatilityAssessmentRow where
  symbol : Symbol
  timestamp : Timestamp
  atr : Option Amount

/-- What is kept of an aggregation: the decision it weighed and its own verdict. -/
structure DecisionAggregationRow where
  decisionId : ClientOrderId
  finalAction : DecisionType

structure RiskValidationRow where
  result : RiskValidationResult
  linked : Bool

/-- `ordersOfOtherRuns` is found by identifier only; every other query is about the run. -/
structure Database where
  orders : List OrderRow := []
  ordersOfOtherRuns : List OrderRow := []
  trades : List TradeRow := []
  positions : List PositionRow := []
  volatilityAssessments : List VolatilityAssessmentRow := []
  decisions : List ModelDecision := []
  decisionAggregations : List DecisionAggregationRow := []
  riskValidations : List RiskValidationRow := []

/-- Midnight UTC of the day of a timestamp. -/
def dayStart (now : Timestamp) : Timestamp := now - now % (24 * 60 * 60 * 1000000)

namespace Database

def listOpenPositions (db : Database) : List PositionRow :=
  db.positions.filter (·.status = .open)

/-- The newest orders of a status, at most `limit` of them. -/
def listByStatus (db : Database) (status : OrderStatus) (limit : ℕ) : List OrderRow :=
  ((db.orders.filter (·.status = status)).insertionSort (fun a b => b.createdAt ≤ a.createdAt)).take
    limit

def getByClientOrderId (db : Database) (oid : ClientOrderId) : Option OrderRow :=
  (db.orders ++ db.ordersOfOtherRuns).find? (·.clientOrderId = oid)

/-- The newest assessment of the symbol; it may have been stored without an ATR. -/
def latestAtr (db : Database) (symbol : Symbol) : Option Amount :=
  ((db.volatilityAssessments.filter (·.symbol = symbol)).argmax (·.timestamp)).bind (·.atr)

/-- The absolute sum of the negative results of the closed trades that pass. -/
def lossOf (db : Database) (keep : TradeRow → Bool) : Amount :=
  |((db.trades.filter (fun t => t.status = .closed && keep t)).filterMap
    (fun t => t.netPnl.filter (· < 0))).sum|

/-- The loss of the current UTC day and the loss of the whole run. -/
def getLossTotals (db : Database) (now : Timestamp) : Amount × Amount :=
  (db.lossOf (fun t => t.closedAt.any (dayStart now ≤ ·)), db.lossOf (fun _ => true))

def lastClosed (db : Database) (keep : TradeRow → Bool) : Option TradeRow :=
  (db.trades.filter (fun t => t.status = .closed && t.closedAt.isSome && keep t)).argmax
    (fun t => t.closedAt.getD 0)

def getLastClosedTrade (db : Database) (symbol : Symbol) : Option TradeRow :=
  db.lastClosed (·.symbol = symbol)

def getLastClosedTradeAnySymbol (db : Database) : Option TradeRow := db.lastClosed (fun _ => true)

end Database

/-- A session of the worker. It sees its own flushed rows, `working`; other
sessions and a restarted worker see `committed`. -/
structure Session where
  working : Database := {}
  committed : Database := {}
  commits : ℕ := 0
  now : Timestamp := 0

namespace Session

def commit (s : Session) : Session :=
  { s with committed := s.working, commits := s.commits + 1 }

/-- Rolls back to a savepoint, which a commit in between has released. -/
def rollbackTo (s saved : Session) : Session :=
  if s.commits = saved.commits then { s with working := saved.working } else s

def addOrder (row : OrderRow) (s : Session) : Session :=
  { s with working := { s.working with orders := s.working.orders ++ [row] } }

def addTrade (row : TradeRow) (s : Session) : Session :=
  { s with working := { s.working with trades := s.working.trades ++ [row] } }

def addPosition (row : PositionRow) (s : Session) : Session :=
  { s with working := { s.working with positions := s.working.positions ++ [row] } }

def rollback (s : Session) : Session := { s with working := s.committed }

def addVolatilityAssessment (row : VolatilityAssessmentRow) (s : Session) : Session :=
  { s with working := { s.working with
      volatilityAssessments := s.working.volatilityAssessments ++ [row] } }

/-- A decision that is already stored is not stored again. -/
def auditModelDecision (d : ModelDecision) (s : Session) : Session :=
  if s.working.decisions.any (·.decisionId = d.decisionId) then s
  else { s with working := { s.working with decisions := s.working.decisions ++ [d] } }

def auditDecisionAggregation (row : DecisionAggregationRow) (s : Session) : Session :=
  { s with working := { s.working with
      decisionAggregations := s.working.decisionAggregations ++ [row] } }

def auditRiskValidation (row : RiskValidationRow) (s : Session) : Session :=
  { s with working := { s.working with riskValidations := s.working.riskValidations ++ [row] } }

/-- Sets the trade of an order that has been flushed before it. -/
def linkTrade (order trade : RowId) (s : Session) : Session :=
  { s with working := { s.working with
      orders := s.working.orders.modify order (fun o => { o with tradeId := some trade }) } }

/-- An order of the plan has been committed. -/
def Recorded (s : Session) (oid : ClientOrderId) : Prop :=
  ∃ o ∈ s.committed.orders, o.clientOrderId = oid

instance (s : Session) (oid : ClientOrderId) : Decidable (s.Recorded oid) :=
  inferInstanceAs (Decidable (∃ o ∈ s.committed.orders, _))

/-- Nothing committed is missing from what the session itself sees. -/
def Consistent (s : Session) : Prop :=
  ∀ oid, s.Recorded oid → ∃ o ∈ s.working.orders, o.clientOrderId = oid

@[simp] theorem commit_committed (s : Session) : s.commit.committed = s.working := rfl

@[simp] theorem commit_working (s : Session) : s.commit.working = s.working := rfl

theorem recorded_commit (s : Session) (oid : ClientOrderId) :
    s.commit.Recorded oid ↔ ∃ o ∈ s.working.orders, o.clientOrderId = oid := .rfl

/-- An order flushed under a new identifier is recorded by the commit. -/
theorem recorded_addOrder {s : Session} (hn : ∀ o ∈ s.working.orders, o.clientOrderId ≠ oid)
    (row : OrderRow) :
    (s.addOrder row).commit.Recorded oid ↔ row.clientOrderId = oid := by
  simp only [recorded_commit, addOrder, List.mem_append, List.mem_singleton]
  constructor
  · intro h
    obtain ⟨o, ho | rfl, he⟩ := h
    · exact absurd he (hn o ho)
    · exact he
  · intro he
    exact ⟨row, .inr rfl, he⟩

/-- Linking a trade changes no order's identifier. -/
theorem mem_linkTrade (s : Session) (order trade : RowId) (oid : ClientOrderId) :
    (∃ o ∈ (s.linkTrade order trade).working.orders, o.clientOrderId = oid) ↔
      ∃ o ∈ s.working.orders, o.clientOrderId = oid := by
  have hm : (s.linkTrade order trade).working.orders.map (·.clientOrderId) =
      s.working.orders.map (·.clientOrderId) := by
    apply List.ext_getElem?
    intro n
    simp only [linkTrade, List.getElem?_map, List.getElem?_modify]
    cases s.working.orders[n]? <;> simp
    split <;> rfl
  have hmem := congrArg (oid ∈ ·) hm
  simpa only [List.mem_map, eq_iff_iff] using hmem

end Session

end FuturesBot
