import FuturesBot.Exchange.Adapter
import FuturesBot.Lib.Dict
import Mathlib.Tactic.Linarith

namespace FuturesBot
open Lib

/-- What the fee and slippage models distinguish; every stop is a taker fill. -/
inductive ModelOrderType
  | market | limit | stop
  deriving DecidableEq, Repr

def OrderType.modelType : OrderType → ModelOrderType
  | .market => .market
  | .limit => .limit
  | .stopMarket | .takeProfitMarket => .stop

structure FeeModel where
  takerRate : Amount := 5 / 10000
  makerRate : Amount := 2 / 10000

def FeeModel.calculate (m : FeeModel) (notional : Amount) (t : ModelOrderType) : Amount :=
  let rate := match t with | .market | .stop => m.takerRate | .limit => m.makerRate
  quantize (notional * rate)

/-- The rates the simulated fills are charged with, as the pre-trade gate sees them. -/
def FeeModel.rates (m : FeeModel) : Except PyError FeeRates :=
  if h : (0 ≤ m.makerRate ∧ m.makerRate < 1) ∧ (0 ≤ m.takerRate ∧ m.takerRate < 1) then
    .ok ⟨m.makerRate, m.takerRate, h.1, h.2⟩
  else .error (.valueError "fee rate fuera de [0, 1)")

structure SlippageModel where
  marketBps : Amount := 2

/-- A taker fill is moved against the order by a fixed number of basis points. -/
def SlippageModel.apply (m : SlippageModel) (price : Amount) (side : OrderSide)
    (t : ModelOrderType) : Amount :=
  match t with
  | .limit => quantize price
  | .market | .stop =>
    let factor := m.marketBps / basisPoints
    match side with
    | .buy => quantize (price * (1 + factor))
    | .sell => quantize (price * (1 - factor))

def computeFundingPayment (side : OrderSide) (quantity markPrice fundingRate : Amount) : Amount :=
  match side with
  | .buy => quantity * markPrice * fundingRate
  | .sell => -(quantity * markPrice * fundingRate)

/-- The in-memory simulation. `now` is the clock its results are stamped with. -/
structure PaperAdapter where
  balanceUsdt : Amount := 1000
  fee : FeeModel := {}
  slip : SlippageModel := {}
  orders : Dict ClientOrderId OrderResult := .empty
  positions : Dict Symbol PositionState := .empty
  leverage : Dict Symbol ℤ := .empty
  fundingPaid : Dict Symbol Amount := .empty
  now : Timestamp := 0

def maxLeveragePaper : ℤ := 10

namespace PaperAdapter

/-- Half the book is added to a buy and taken from a sell, when the book is known. -/
def crossSpread (fillPrice : Amount) (req : OrderRequest) : Except PyError Amount :=
  match req.bid, req.ask with
  | some bid, some ask => do
    let spread ← halfSpread bid ask
    match req.side with
    | .buy => pure (quantize (fillPrice + spread))
    | .sell => pure (quantize (fillPrice - spread))
  | _, _ => pure fillPrice

/-- A new position, or the weighted average with one in the same direction. An
order against an open position without reduce-only replaces it. -/
def openOrNetPosition (req : OrderRequest) (fillPrice : Amount) : Call PaperAdapter Unit := fun a =>
  let leverage := (a.leverage.get req.symbol).getD 1
  let newMargin := fillPrice * req.quantity / leverage
  let fresh : PositionStateFields :=
    { symbol := req.symbol, side := req.side, quantity := req.quantity, entryPrice := fillPrice,
      marginUsdt := newMargin, leverage := leverage, isSimulated := true }
  let fields := match a.positions.get req.symbol with
    | none => fresh
    | some existing =>
      if existing.side ≠ req.side then fresh
      else
        let totalQuantity := existing.quantity + req.quantity
        { fresh with
          quantity := totalQuantity
          entryPrice := (existing.entryPrice * existing.quantity + fillPrice * req.quantity) /
            totalQuantity
          marginUsdt := existing.marginUsdt + newMargin }
  match PositionState.build fields with
  | .error e => (.error e, a)
  | .ok p => (.ok (), { a with positions := a.positions.set req.symbol p })

/-- Realises the PnL of the closed part. Closing at least what is open removes
the position; closing less keeps its entry price. -/
def closeOrReducePosition (symbol : Symbol) (quantity fillPrice : Amount) :
    Call PaperAdapter Unit := fun a =>
  match a.positions.get symbol with
  | none => (.ok (), a)
  | some existing =>
    let pnlPerUnit := match existing.side with
      | .buy => fillPrice - existing.entryPrice
      | .sell => existing.entryPrice - fillPrice
    let closedQty := min quantity existing.quantity
    let a := { a with balanceUsdt := a.balanceUsdt + pnlPerUnit * closedQty }
    if existing.quantity ≤ closedQty then
      (.ok (), { a with positions := a.positions.pop symbol })
    else
      let remainingQty := existing.quantity - closedQty
      let leverage := (a.leverage.get symbol).getD existing.leverage
      match PositionState.build
          { symbol := symbol, side := existing.side, quantity := remainingQty,
            entryPrice := existing.entryPrice,
            marginUsdt := existing.entryPrice * remainingQty / leverage,
            leverage := existing.leverage, isSimulated := true } with
      | .error e => (.error e, a)
      | .ok p => (.ok (), { a with positions := a.positions.set symbol p })

/-- The fee is taken before the position changes and the result is validated
after it, so a late failure keeps the earlier effects. -/
def fillMarketOrder (req : OrderRequest) : Call PaperAdapter OrderResult := fun a =>
  match req.price with
  | none => (.error (.valueError "place_order MARKET requiere price > 0 para simular el fill."), a)
  | some price =>
    match crossSpread (a.slip.apply price req.side req.orderType.modelType) req with
    | .error e => (.error e, a)
    | .ok fillPrice =>
      let notional := quantize (fillPrice * req.quantity)
      let feeUsdt := a.fee.calculate notional req.orderType.modelType
      let slippageUsdt := quantize (|fillPrice - price| * req.quantity)
      let charged := { a with balanceUsdt := a.balanceUsdt - feeUsdt }
      let moved := if req.isReduceOnly then
          closeOrReducePosition req.symbol req.quantity fillPrice charged
        else openOrNetPosition req fillPrice charged
      match moved with
      | (.error e, a) => (.error e, a)
      | (.ok (), a) =>
        (OrderResult.build
          { clientOrderId := req.clientOrderId, symbol := req.symbol, side := req.side,
            orderType := req.orderType, status := .filled, quantityRequested := req.quantity,
            quantityFilled := req.quantity, fillPrice := some fillPrice, feeUsdt := feeUsdt,
            slippageUsdt := some slippageUsdt, isSimulated := true, timestampUtc := a.now }, a)

def registerPendingOrder (req : OrderRequest) : Call PaperAdapter OrderResult := fun a =>
  (OrderResult.build
    { clientOrderId := req.clientOrderId, symbol := req.symbol, side := req.side,
      orderType := req.orderType, status := .pending, quantityRequested := req.quantity,
      isSimulated := true, timestampUtc := a.now }, a)

/-- A known identifier returns the stored result and changes nothing. -/
def placeOrder (req : OrderRequest) : Call PaperAdapter OrderResult := fun a =>
  match a.orders.get req.clientOrderId with
  | some result => (.ok result, a)
  | none =>
    let outcome := if req.orderType = .market then fillMarketOrder req a
      else registerPendingOrder req a
    match outcome with
    | (.error e, a) => (.error e, a)
    | (.ok result, a) => (.ok result, { a with orders := a.orders.set req.clientOrderId result })

def cancelOrder (id : ClientOrderId) : Call PaperAdapter Bool := fun a =>
  match a.orders.get id with
  | none => (.ok false, a)
  | some result =>
    if result.status ≠ .pending then (.ok false, a)
    else match OrderResult.build
        { clientOrderId := result.clientOrderId, symbol := result.symbol, side := result.side,
          orderType := result.orderType, status := .cancelled,
          quantityRequested := result.quantityRequested, isSimulated := true,
          timestampUtc := a.now } with
      | .error e => (.error e, a)
      | .ok cancelled => (.ok true, { a with orders := a.orders.set id cancelled })

def getOpenOrders (symbol : Symbol) (a : PaperAdapter) : List OrderResult :=
  a.orders.values.filter (fun o => o.symbol = symbol ∧ o.status = .pending)

def usedMargin (a : PaperAdapter) : Amount := (a.positions.values.map (·.marginUsdt)).sum

def unrealizedPnl (a : PaperAdapter) : Amount := (a.positions.values.map (·.unrealizedPnl)).sum

theorem usedMargin_nonneg (a : PaperAdapter) : 0 ≤ a.usedMargin := by
  apply List.sum_nonneg
  intro m hm
  obtain ⟨p, _, rfl⟩ := List.mem_map.mp hm
  exact le_of_lt p.valid.2.2.2.1

def getAccountState (a : PaperAdapter) : AccountState where
  balanceUsdt := a.balanceUsdt
  equityUsdt := a.balanceUsdt + a.unrealizedPnl
  availableMarginUsdt := max 0 (a.balanceUsdt + a.unrealizedPnl - a.usedMargin)
  usedMarginUsdt := a.usedMargin
  isSimulated := true
  available_nonneg := le_max_left _ _
  used_nonneg := a.usedMargin_nonneg

def setLeverage (symbol : Symbol) (leverage : ℤ) : Call PaperAdapter Unit := fun a =>
  if leverage < 1 ∨ maxLeveragePaper < leverage then
    (.error (.valueError "Leverage fuera del rango permitido en PAPER"), a)
  else (.ok (), { a with leverage := a.leverage.set symbol leverage })

def setMarginType (_symbol : Symbol) (marginType : MarginType) : Call PaperAdapter Unit := fun a =>
  if marginType = .cross then
    (.error (.valueError "Cross margin está prohibido. Solo se permite ISOLATED."), a)
  else (.ok (), a)

def applyFunding (symbol : Symbol) (fundingRate markPrice : Amount) (a : PaperAdapter) :
    Amount × PaperAdapter :=
  match a.positions.get symbol with
  | none => (0, a)
  | some position =>
    let payment := computeFundingPayment position.side position.quantity markPrice fundingRate
    (payment, { a with
      balanceUsdt := a.balanceUsdt - payment
      fundingPaid := a.fundingPaid.set symbol ((a.fundingPaid.get symbol).getD 0 + payment) })

def exchange : ExchangeAdapter PaperAdapter where
  placeOrder := placeOrder
  cancelOrder := cancelOrder
  getOrderStatus id a := (.ok (a.orders.get id), a)
  getPosition symbol a := (.ok (a.positions.get symbol), a)
  getOpenOrders symbol a := (.ok (a.getOpenOrders symbol), a)
  getAccountState a := (.ok a.getAccountState, a)
  setLeverage := setLeverage
  setMarginType := setMarginType
  getFeeRates _ a := (a.fee.rates, a)

theorem getPosition_ok (h : exchange.getPosition s a = (.ok p, a')) :
    a.positions.get s = p ∧ a' = a := by
  cases h
  exact ⟨rfl, rfl⟩

/-- A reduce-only fill takes the smaller of the two quantities from the position,
and the position itself once nothing is left of it. -/
def Reduced (symbol : Symbol) (quantity : Amount) (a a' : PaperAdapter) : Prop :=
  match a.positions.get symbol with
  | none => a'.positions = a.positions
  | some p =>
    if p.quantity ≤ quantity then a'.positions = a.positions.pop symbol
    else ∃ p', a'.positions = a.positions.set symbol p' ∧ p'.quantity = p.quantity - quantity ∧
      p'.side = p.side ∧ p'.entryPrice = p.entryPrice

theorem closeOrReducePosition_reduced
    (h : closeOrReducePosition symbol quantity price a = (.ok (), a')) :
    Reduced symbol quantity a a' ∧ a'.orders = a.orders := by
  unfold closeOrReducePosition at h
  unfold Reduced
  cases hp : a.positions.get symbol with
  | none =>
    simp only [hp] at h
    cases h
    exact ⟨rfl, rfl⟩
  | some p =>
    simp only [hp] at h
    by_cases hq : p.quantity ≤ quantity
    · rw [if_pos (by rw [min_eq_right hq])] at h
      cases h
      simp only [if_pos hq, and_self]
    · have hl := le_of_lt (lt_of_not_ge hq)
      rw [min_eq_left hl, if_neg hq] at h
      simp only [if_neg hq]
      split at h
      · cases h
      · rename_i p' hb
        cases h
        have hf := PositionState.build_ok hb
        exact ⟨⟨p', rfl, congrArg (·.quantity) hf, congrArg (·.side) hf,
          congrArg (·.entryPrice) hf⟩, rfl⟩

theorem fillMarketOrder_reduced (hr : req.isReduceOnly)
    (h : fillMarketOrder req a = (.ok result, a')) :
    Reduced req.symbol req.quantity a a' ∧ a'.orders = a.orders := by
  unfold fillMarketOrder at h
  split at h
  · cases h
  · split at h
    · cases h
    · simp only [if_pos hr] at h
      split at h
      · cases h
      · rename_i a₁ hc
        obtain ⟨_, rfl⟩ := Prod.mk.inj h
        have hc := closeOrReducePosition_reduced hc
        exact ⟨hc.1, hc.2⟩

/-- What an accepted close order does, when its identifier is new. -/
theorem placeOrder_reduced (hn : a.orders.get req.clientOrderId = none)
    (hm : req.orderType = .market) (hr : req.isReduceOnly)
    (h : placeOrder req a = (.ok result, a')) :
    Reduced req.symbol req.quantity a a' ∧
    a'.orders = a.orders.set req.clientOrderId result := by
  unfold placeOrder at h
  simp only [hn, if_pos hm] at h
  split at h
  · cases h
  · rename_i a₁ hf
    cases h
    obtain ⟨hp, ho⟩ := fillMarketOrder_reduced hr hf
    exact ⟨hp, by rw [ho]⟩

theorem Reduced.closed (h : Reduced symbol quantity a a') (hp : a.positions.get symbol = some p)
    (hq : p.quantity ≤ quantity) : a'.positions.get symbol = none := by
  simp only [Reduced, hp, if_pos hq] at h
  simp [h]

/-- The open quantity of a symbol. -/
def held (a : PaperAdapter) (s : Symbol) : Amount :=
  match a.positions.get s with
  | some p => p.quantity
  | none => 0

theorem held_none {a : PaperAdapter} (h : a.positions.get s = none) : a.held s = 0 := by
  simp [held, h]

theorem held_some {a : PaperAdapter} (h : a.positions.get s = some p) :
    a.held s = p.quantity := by
  simp [held, h]

theorem Reduced.held {a a' : PaperAdapter} (h : Reduced symbol quantity a a')
    (hq : 0 ≤ quantity) :
    a'.held = Function.update a.held symbol (a.held symbol - min quantity (a.held symbol)) := by
  funext s
  have hs : s ≠ symbol ∨ s = symbol := (em (s = symbol)).symm
  unfold Reduced at h
  cases hp : a.positions.get symbol with
  | none =>
    simp only [hp] at h
    have he : a'.held s = a.held s := by simp [PaperAdapter.held, h]
    rcases hs with hs | rfl
    · rw [Function.update_of_ne hs, he]
    · rw [Function.update_self, he, held_none hp, min_eq_right hq, sub_zero]
  | some p =>
    simp only [hp] at h
    by_cases hl : p.quantity ≤ quantity
    · rw [if_pos hl] at h
      rcases hs with hs | rfl
      · rw [Function.update_of_ne hs]
        simp [PaperAdapter.held, h, hs]
      · rw [Function.update_self, held_some hp, min_eq_right hl, sub_self]
        exact held_none (by simp [h])
    · rw [if_neg hl] at h
      obtain ⟨p', hm, hr, _⟩ := h
      rcases hs with hs | rfl
      · rw [Function.update_of_ne hs]
        simp [PaperAdapter.held, hm, hs]
      · rw [Function.update_self, held_some hp, min_eq_left (le_of_lt (lt_of_not_ge hl)), ← hr]
        exact held_some (by simp [hm])

/-- Only the balance and the positions may have changed. -/
def Moved (a a' : PaperAdapter) : Prop :=
  ∃ balance positions, a' = { a with balanceUsdt := balance, positions := positions }

theorem Moved.refl (a : PaperAdapter) : Moved a a := ⟨a.balanceUsdt, a.positions, rfl⟩

theorem Moved.trans (h : Moved a a') (h' : Moved a' a'') : Moved a a'' := by
  obtain ⟨_, _, rfl⟩ := h
  obtain ⟨balance, positions, rfl⟩ := h'
  exact ⟨balance, positions, rfl⟩

theorem closeOrReducePosition_moved
    (h : closeOrReducePosition symbol quantity price a = (r, a')) : Moved a a' := by
  unfold closeOrReducePosition at h
  split at h
  · cases h
    exact .refl a
  · dsimp only at h
    split at h
    · cases h
      exact ⟨_, _, rfl⟩
    · split at h <;> cases h <;> exact ⟨_, _, rfl⟩

theorem openOrNetPosition_moved (h : openOrNetPosition req price a = (r, a')) : Moved a a' := by
  unfold openOrNetPosition at h
  dsimp only at h
  split at h <;> cases h <;> exact ⟨_, _, rfl⟩

theorem fillMarketOrder_moved (req : OrderRequest) (a : PaperAdapter) :
    Moved a (fillMarketOrder req a).2 := by
  unfold fillMarketOrder
  split
  · exact .refl a
  · split
    · exact .refl a
    · have hcharged : ∀ fee, Moved a { a with balanceUsdt := a.balanceUsdt - fee } :=
        fun fee => ⟨_, _, rfl⟩
      dsimp only
      split
      all_goals
        rename_i hm
        split at hm
        · exact (hcharged _).trans (closeOrReducePosition_moved hm)
        · exact (hcharged _).trans (openOrNetPosition_moved hm)

/-- An order changes the record of the orders, too. -/
theorem placeOrder_moved (req : OrderRequest) (a : PaperAdapter) :
    ∃ orders, Moved { a with orders := orders } (placeOrder req a).2 := by
  unfold placeOrder
  split
  · exact ⟨a.orders, .refl a⟩
  · dsimp only
    have hm : Moved a (if req.orderType = .market then fillMarketOrder req a
        else registerPendingOrder req a).2 := by
      split
      · exact fillMarketOrder_moved req a
      · exact .refl a
    split
    · rename_i h
      rw [h] at hm
      exact ⟨a.orders, hm⟩
    · rename_i result a₁ h
      rw [h] at hm
      obtain ⟨_, _, rfl⟩ := hm
      exact ⟨_, _, _, rfl⟩

/-- An order records itself under its own identifier only. -/
theorem placeOrder_orders (req : OrderRequest) (a : PaperAdapter)
    (hn : oid ≠ req.clientOrderId) :
    (placeOrder req a).2.orders.get oid = a.orders.get oid := by
  unfold placeOrder
  split
  · rfl
  · dsimp only
    have ho : (if req.orderType = .market then fillMarketOrder req a
        else registerPendingOrder req a).2.orders = a.orders := by
      split
      · obtain ⟨_, _, h⟩ := fillMarketOrder_moved req a
        rw [h]
      · rfl
    split
    · rename_i h
      rw [h] at ho
      exact congrArg (·.get oid) ho
    · rename_i h
      rw [h] at ho
      simp only [Dict.get_set, if_neg hn]
      exact congrArg (·.get oid) ho

/-- The simulation fills market orders whole, once its late failures are undone. -/
theorem exchange_fillsOrRefuses :
    FillsOrRefuses exchange.atomic held (fun a oid => a.orders.get oid = none) where
  getPosition_held _ _ := rfl
  getPosition_fresh _ _ _ h := h
  getPosition_none _ _ h := held_none (Except.ok.inj h)
  getPosition_some _ _ _ h := held_some (Except.ok.inj h)
  placeOrder_refused req a e h := by
    simp only [ExchangeAdapter.atomic] at h ⊢
    split at h
    · rfl
    · cases h
  placeOrder_filled req a r hf hm hr h := by
    simp only [ExchangeAdapter.atomic] at h ⊢
    split at h
    · cases h
    · rename_i r' a' ho
      exact (placeOrder_reduced hf hm hr ho).1.held (le_of_lt req.valid.1)
  placeOrder_fresh req a oid hf hn := by
    simp only [ExchangeAdapter.atomic]
    have ho := placeOrder_orders req a hn
    split
    · exact hf
    · rename_i h
      change placeOrder req a = _ at h
      rw [h] at ho
      exact ho.trans hf

end PaperAdapter

end FuturesBot
