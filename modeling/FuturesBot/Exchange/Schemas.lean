import FuturesBot.Core.Constants
import Mathlib.Data.Option.Basic

namespace FuturesBot

inductive OrderSide
  | buy | sell
  deriving DecidableEq, Repr

inductive OrderType
  | market | limit | stopMarket | takeProfitMarket
  deriving DecidableEq, Repr

inductive OrderStatus
  | pending | filled | partiallyFilled | cancelled | failed
  deriving DecidableEq, Repr

inductive MarginType
  | isolated | cross
  deriving DecidableEq, Repr

structure OrderRequestFields where
  clientOrderId : ClientOrderId
  symbol : Symbol
  side : OrderSide
  orderType : OrderType
  quantity : Amount
  price : Option Amount
  stopPrice : Option Amount := none
  isReduceOnly : Bool := false
  bid : Option Amount := none
  ask : Option Amount := none

/-- The book must be given whole or not at all, and must not be crossed. -/
def bookCoherent : Option Amount → Option Amount → Prop
  | some b, some a => b < a
  | none, none => True
  | _, _ => False

instance : Decidable (bookCoherent b a) := by
  cases b <;> cases a <;> unfold bookCoherent <;> infer_instance

def OrderRequestFields.Valid (f : OrderRequestFields) : Prop :=
  0 < f.quantity ∧ (∀ p ∈ f.price, 0 < p) ∧ (∀ p ∈ f.stopPrice, 0 < p) ∧
  (∀ p ∈ f.bid, 0 < p) ∧ (∀ p ∈ f.ask, 0 < p) ∧
  bookCoherent f.bid f.ask ∧ f.symbol ∈ allowedSymbols

instance (f : OrderRequestFields) : Decidable f.Valid :=
  inferInstanceAs (Decidable (_ ∧ _))

structure OrderRequest extends OrderRequestFields where
  valid : toOrderRequestFields.Valid

def OrderRequest.build (f : OrderRequestFields) : Except PyError OrderRequest :=
  if h : f.Valid then .ok ⟨f, h⟩ else .error (.validationError "OrderRequest")

theorem OrderRequest.build_ok (h : OrderRequest.build f = .ok r) : r.toOrderRequestFields = f := by
  unfold OrderRequest.build at h
  split at h <;> cases h
  rfl

theorem OrderRequest.build_of_valid (h : f.Valid) : OrderRequest.build f = .ok ⟨f, h⟩ :=
  dif_pos h

structure OrderResultFields where
  clientOrderId : ClientOrderId
  symbol : Symbol
  side : OrderSide
  orderType : OrderType
  status : OrderStatus
  quantityRequested : Amount
  quantityFilled : Amount := 0
  fillPrice : Option Amount := none
  feeUsdt : Amount := 0
  slippageUsdt : Option Amount := none
  isSimulated : Bool
  timestampUtc : Timestamp

def OrderResultFields.Valid (f : OrderResultFields) : Prop :=
  0 ≤ f.quantityFilled ∧ (∀ p ∈ f.fillPrice, 0 ≤ p) ∧ 0 ≤ f.feeUsdt ∧
  (∀ s ∈ f.slippageUsdt, 0 ≤ s)

instance (f : OrderResultFields) : Decidable f.Valid :=
  inferInstanceAs (Decidable (_ ∧ _))

structure OrderResult extends OrderResultFields where
  valid : toOrderResultFields.Valid

def OrderResult.build (f : OrderResultFields) : Except PyError OrderResult :=
  if h : f.Valid then .ok ⟨f, h⟩ else .error (.validationError "OrderResult")

theorem OrderResult.build_ok (h : OrderResult.build f = .ok r) : r.toOrderResultFields = f := by
  unfold OrderResult.build at h
  split at h <;> cases h
  rfl

theorem OrderResult.build_of_valid (h : f.Valid) : OrderResult.build f = .ok ⟨f, h⟩ :=
  dif_pos h

theorem OrderResult.build_of_invalid (h : ¬f.Valid) :
    OrderResult.build f = .error (.validationError "OrderResult") :=
  dif_neg h

structure PositionStateFields where
  symbol : Symbol
  side : OrderSide
  quantity : Amount
  entryPrice : Amount
  markPrice : Option Amount := none
  unrealizedPnl : Amount := 0
  marginUsdt : Amount
  leverage : ℤ
  stopLoss : Option Amount := none
  takeProfit : Option Amount := none
  isSimulated : Bool

def PositionStateFields.Valid (f : PositionStateFields) : Prop :=
  0 < f.quantity ∧ 0 < f.entryPrice ∧ (∀ p ∈ f.markPrice, 0 < p) ∧ 0 < f.marginUsdt ∧
  1 ≤ f.leverage ∧ (∀ p ∈ f.stopLoss, 0 ≤ p) ∧ (∀ p ∈ f.takeProfit, 0 ≤ p)

instance (f : PositionStateFields) : Decidable f.Valid :=
  inferInstanceAs (Decidable (_ ∧ _))

structure PositionState extends PositionStateFields where
  valid : toPositionStateFields.Valid

def PositionState.build (f : PositionStateFields) : Except PyError PositionState :=
  if h : f.Valid then .ok ⟨f, h⟩ else .error (.validationError "PositionState")

theorem PositionState.build_ok (h : PositionState.build f = .ok p) :
    p.toPositionStateFields = f := by
  unfold PositionState.build at h
  split at h <;> cases h
  rfl

theorem PositionState.build_of_valid (h : f.Valid) : PositionState.build f = .ok ⟨f, h⟩ :=
  dif_pos h

theorem PositionState.build_of_invalid (h : ¬f.Valid) :
    PositionState.build f = .error (.validationError "PositionState") :=
  dif_neg h

/-- The balance may be negative; only the two margins are bounded. -/
structure AccountState where
  balanceUsdt : Amount
  equityUsdt : Amount
  availableMarginUsdt : Amount
  usedMarginUsdt : Amount
  isSimulated : Bool
  available_nonneg : 0 ≤ availableMarginUsdt
  used_nonneg : 0 ≤ usedMarginUsdt

/-- Exchange fees as fractions of the notional, refused outside `[0, 1)`. -/
structure FeeRates where
  maker : Amount
  taker : Amount
  maker_range : 0 ≤ maker ∧ maker < 1
  taker_range : 0 ≤ taker ∧ taker < 1

end FuturesBot
