import FuturesBot.Backtesting.Schemas
import FuturesBot.Core.Decimals
import FuturesBot.Exchange.Paper
import FuturesBot.Lib.Loops

namespace FuturesBot
open Lib

/-- Candles between a signal and its execution, beyond the one that always passes. -/
structure LatencyModel where
  extraCandles : ℕ := 0

def LatencyModel.fillCandleOffset (m : LatencyModel) : ℕ := 1 + m.extraCandles

structure PartialFillModel where
  fillRatio : Amount := 1
  ratio_range : 0 ≤ fillRatio ∧ fillRatio ≤ 1 := by norm_num

structure BacktestingEngine where
  fee : FeeModel := {}
  slip : SlippageModel := {}
  latency : LatencyModel := {}
  partialFill : PartialFillModel := {}
  partialCloseEnabled : Bool := false

/-- A strategy: it is told the index of the candle and the candles before it. It may
keep a state of its own, and raise. -/
abbrev SignalProvider (ρ : Type u) := ℕ → List CandleRow → Call ρ TradeSignal

/-- A product in the digits of the context, and then in the decimals of the simulation. Sums and
differences need no more digits than they have. -/
def quantizeProduct (x y : Amount) : Amount := quantize (Decimal.roundContext (x * y))

theorem quantizeProduct_isDecimal : IsDecimal quantPlaces (quantizeProduct x y) :=
  quantize_isDecimal

namespace TradeSide

def entrySide : TradeSide → OrderSide
  | .long => .buy
  | .short => .sell

def exitSide : TradeSide → OrderSide
  | .long => .sell
  | .short => .buy

def grossPnl (side : TradeSide) (entryPrice exitFill quantity : Amount) : Amount :=
  match side with
  | .long => quantizeProduct (exitFill - entryPrice) quantity
  | .short => quantizeProduct (entryPrice - exitFill) quantity

end TradeSide

/-- The side that a signal opens, if it opens any. -/
def SignalAction.side : SignalAction → Option TradeSide
  | .long => some .long
  | .short => some .short
  | .close | .noOp => none

theorem TradeSignal.levelsEnd {signal : TradeSignal} (h : signal.action.side = some side) :
    LevelsEnd signal.takeProfitLevels := by
  have ha : signal.action = .long ∨ signal.action = .short := by
    cases hs : signal.action <;> simp [hs, SignalAction.side] at h ⊢
  exact (signal.exits ha).2.2

namespace BacktestingEngine

variable (e : BacktestingEngine)

/-- The targets of a new position: the levels of the signal, or its single price. -/
def usingLevels (signal : TradeSignal) : Bool :=
  e.partialCloseEnabled && !signal.takeProfitLevels.isEmpty

/-- A market fill at the open of the candle. Nothing is opened where the simulated
liquidity leaves no quantity. -/
def openPosition (signal : TradeSignal) (candle : CandleRow) (i : ℕ) :
    Except PyError (Option OpenPosition) :=
  match signal.stopLoss with
  | none => .error (.valueError "stop_loss es obligatorio para señales")
  | some stopLoss =>
    if ¬e.usingLevels signal ∧ signal.takeProfit.isNone then
      .error (.valueError "take_profit es obligatorio para señales cuando partial_close_enabled=False")
    else
      let entrySide := if signal.action = .long then .buy else .sell
      let fillPrice := e.slip.apply candle.openPrice entrySide .market
      let requestedNotional := quantizeProduct signal.marginUsdt signal.leverage
      if fillPrice = 0 then .error .zeroDivisionError
      else
        let requestedQuantity := quantize (Decimal.roundContext (requestedNotional / fillPrice))
        let fillRatio := e.partialFill.fillRatio
        let quantity := quantizeProduct requestedQuantity fillRatio
        if quantity ≤ 0 then .ok none
        else
          let notional := quantizeProduct requestedNotional fillRatio
          match h : signal.action.side with
          | none => .error (.validationError "OpenPosition")
          | some side =>
            .ok (some
              { side := side, entryCandleIndex := i, entryPrice := fillPrice, stopLoss := stopLoss,
                takeProfit := if e.usingLevels signal then none else signal.takeProfit,
                takeProfitLevels := if e.usingLevels signal then signal.takeProfitLevels else [],
                leverage := signal.leverage, marginUsdt := quantizeProduct signal.marginUsdt fillRatio,
                notionalUsdt := notional, quantity := quantity,
                entryFeeUsdt := e.fee.calculate notional .market,
                entrySlippageUsdt := quantizeProduct |fillPrice - candle.openPrice| quantity,
                exclusive := by split <;> simp
                levelsEnd := by
                  split
                  · exact TradeSignal.levelsEnd h
                  · intro level hl
                    cases hl })

def closePosition (pos : OpenPosition) (closePrice : Amount) (i : ℕ) (exitReason : ExitReason)
    (orderType : ModelOrderType) : ClosedTrade :=
  let exitFill := e.slip.apply closePrice pos.side.exitSide orderType
  let exitSlippage := quantizeProduct |exitFill - closePrice| pos.quantity
  let exitFee := e.fee.calculate (quantizeProduct exitFill pos.quantity) orderType
  let grossPnl := pos.side.grossPnl pos.entryPrice exitFill pos.quantity
  let totalFunding := pos.accruedFundingUsdt
  { side := pos.side, entryCandleIndex := pos.entryCandleIndex, exitCandleIndex := i,
    entryPrice := pos.entryPrice, exitPrice := exitFill, exitReason := exitReason,
    leverage := pos.leverage, marginUsdt := pos.marginUsdt, notionalUsdt := pos.notionalUsdt,
    grossPnlUsdt := grossPnl, entryFeeUsdt := pos.entryFeeUsdt, exitFeeUsdt := exitFee,
    entrySlippageUsdt := pos.entrySlippageUsdt, exitSlippageUsdt := exitSlippage,
    fundingCostUsdt := quantize totalFunding,
    netPnlUsdt := quantize (grossPnl - pos.entryFeeUsdt - exitFee - pos.entrySlippageUsdt -
      exitSlippage - totalFunding),
    holdCandles := i - pos.entryCandleIndex }

/-- The first level is spent. -/
def spendLevel (pos : OpenPosition) : OpenPosition :=
  { pos with
    takeProfitLevels := pos.takeProfitLevels.tail
    exclusive := pos.exclusive.imp id (fun h => by rw [h]; rfl)
    levelsEnd := pos.levelsEnd.tail }

/-- An intermediate level closes its fraction, with the same fraction of the costs. One
that rounds to nothing is spent without a trade. -/
def partialCloseTp (pos : OpenPosition) (level : TakeProfitLevel) (i : ℕ) :
    Option ClosedTrade × OpenPosition :=
  let closeFraction := level.closeFraction
  let closeQty := quantizeProduct pos.quantity closeFraction
  if closeQty ≤ 0 then (none, spendLevel pos)
  else
    let exitFill := e.slip.apply level.price pos.side.exitSide .limit
    let exitSlippage := quantizeProduct |exitFill - level.price| closeQty
    let exitFee := e.fee.calculate (quantizeProduct exitFill closeQty) .limit
    let grossPnl := pos.side.grossPnl pos.entryPrice exitFill closeQty
    let partialEntryFee := quantizeProduct pos.entryFeeUsdt closeFraction
    let partialEntrySlip := quantizeProduct pos.entrySlippageUsdt closeFraction
    let partialFunding := quantizeProduct pos.accruedFundingUsdt closeFraction
    let trade : ClosedTrade :=
      { side := pos.side, entryCandleIndex := pos.entryCandleIndex, exitCandleIndex := i,
        entryPrice := pos.entryPrice, exitPrice := exitFill, exitReason := .tpPartial,
        leverage := pos.leverage, marginUsdt := quantizeProduct pos.marginUsdt closeFraction,
        notionalUsdt := quantizeProduct pos.notionalUsdt closeFraction, grossPnlUsdt := grossPnl,
        entryFeeUsdt := partialEntryFee, exitFeeUsdt := exitFee,
        entrySlippageUsdt := partialEntrySlip, exitSlippageUsdt := exitSlippage,
        fundingCostUsdt := partialFunding,
        netPnlUsdt := quantize (grossPnl - partialEntryFee - exitFee - partialEntrySlip -
          exitSlippage - partialFunding),
        holdCandles := i - pos.entryCandleIndex }
    let remainingFraction := Decimal.roundContext (1 - closeFraction)
    (some trade,
      { spendLevel pos with
        quantity := quantize (pos.quantity - closeQty)
        marginUsdt := quantizeProduct pos.marginUsdt remainingFraction
        notionalUsdt := quantizeProduct pos.notionalUsdt remainingFraction
        entryFeeUsdt := quantizeProduct pos.entryFeeUsdt remainingFraction
        entrySlippageUsdt := quantizeProduct pos.entrySlippageUsdt remainingFraction
        accruedFundingUsdt := quantizeProduct pos.accruedFundingUsdt remainingFraction })

/-- Whether the candle reaches a target on the winning side of the position. -/
def targetHit (side : TradeSide) (price : Amount) (candle : CandleRow) : Bool :=
  match side with
  | .long => price ≤ candle.high
  | .short => candle.low ≤ price

def stopHit (side : TradeSide) (price : Amount) (candle : CandleRow) : Bool :=
  match side with
  | .long => candle.low ≤ price
  | .short => price ≤ candle.high

/-- The single target of a position. -/
def checkSingleTp (pos : OpenPosition) (candle : CandleRow) (i : ℕ) :
    Option ClosedTrade × Option OpenPosition :=
  match pos.takeProfit with
  | none => (none, none)
  | some price =>
    if targetHit pos.side price candle then (some (e.closePosition pos price i .tp .limit), none)
    else (none, none)

/-- What a candle does to the position: the trade it closes and, unless it leaves the
position alone, what is open after it. The stop goes before any target. -/
def checkSlTp (pos : OpenPosition) (candle : CandleRow) (i : ℕ) :
    Option ClosedTrade × Option OpenPosition :=
  if stopHit pos.side pos.stopLoss candle then
    (some (e.closePosition pos pos.stopLoss i .sl .market), none)
  else match pos.takeProfitLevels with
    | level :: later =>
      if targetHit pos.side level.price candle then
        if later.isEmpty then (some (e.closePosition pos level.price i .tp .limit), none)
        else
          let (trade, pos') := e.partialCloseTp pos level i
          (trade, some pos')
      else e.checkSingleTp pos candle i
    | [] => e.checkSingleTp pos candle i

/-- Positive where the position pays. -/
def computeFunding (pos : OpenPosition) (candle : CandleRow) : Amount :=
  let notional := Decimal.roundContext (pos.quantity * candle.close)
  match pos.side with
  | .long => quantizeProduct notional candle.fundingRate
  | .short => -quantizeProduct notional candle.fundingRate

end BacktestingEngine

/-- The variables of the loop, and a log of the calls of the provider. -/
structure BacktestState (ρ : Type u) where
  openPos : Option OpenPosition := none
  pendingEntry : Option (TradeSignal × ℕ) := none
  pendingCloseIndex : Option ℕ := none
  history : List CandleRow := []
  closedTrades : List ClosedTrade := []
  provider : ρ
  calls : List (ℕ × List CandleRow) := []

namespace BacktestingEngine

variable (e : BacktestingEngine) (i : ℕ) (candle : CandleRow)

/-- A due entry takes the free slot, and is gone even where it is not filled. -/
def fillPendingEntry : Call (BacktestState ρ) Unit := fun s =>
  match s.pendingEntry with
  | none => (.ok (), s)
  | some (signal, fillIdx) =>
    if fillIdx ≤ i ∧ s.openPos.isNone then
      match e.openPosition signal candle i with
      | .error err => (.error err, s)
      | .ok newPos => (.ok (), { s with pendingEntry := none, openPos := newPos })
    else (.ok (), s)

/-- A due CLOSE, at the open of the candle. One that is asked for while a position is
open stays until some position is closed by it. -/
def closeRequested (s : BacktestState ρ) : BacktestState ρ :=
  match s.pendingCloseIndex, s.openPos with
  | some closeIdx, some pos =>
    if closeIdx ≤ i then
      { s with
        closedTrades := s.closedTrades ++
          [e.closePosition pos candle.openPrice i .closeSignal .market]
        openPos := none
        pendingCloseIndex := none }
    else s
  | _, _ => s

def checkExits (s : BacktestState ρ) : BacktestState ρ :=
  match s.openPos with
  | none => s
  | some pos =>
    match e.checkSlTp pos candle i with
    | (some trade, updatedPos) =>
      { s with closedTrades := s.closedTrades ++ [trade], openPos := updatedPos }
    | (none, some updatedPos) => { s with openPos := some updatedPos }
    | (none, none) => s

def accrueFunding (s : BacktestState ρ) : BacktestState ρ :=
  match s.openPos with
  | none => s
  | some pos =>
    if candle.fundingRate = 0 then s
    else
      { s with
        openPos := some
          { pos with
            accruedFundingUsdt := pos.accruedFundingUsdt + computeFunding pos candle } }

def schedule (signal : TradeSignal) (s : BacktestState ρ) : BacktestState ρ :=
  if (signal.action = .long ∨ signal.action = .short) ∧ s.openPos.isNone ∧ s.pendingEntry.isNone then
    { s with pendingEntry := some (signal, i + e.latency.fillCandleOffset) }
  else if signal.action = .close ∧ s.openPos.isSome ∧ s.pendingCloseIndex.isNone then
    { s with pendingCloseIndex := some (i + e.latency.fillCandleOffset) }
  else s

def askProvider (provider : SignalProvider ρ) : Call (BacktestState ρ) Unit := fun s =>
  let s := { s with calls := s.calls ++ [(i, s.history)] }
  match provider i s.history s.provider with
  | (.error err, p) => (.error err, { s with provider := p })
  | (.ok signal, p) => (.ok (), e.schedule i signal { s with provider := p })

/-- The turn of a candle. It joins the history once it is over. -/
def turn (provider : SignalProvider ρ) : Call (BacktestState ρ) Unit := fun s =>
  match e.fillPendingEntry i candle s with
  | (.error err, s) => (.error err, s)
  | (.ok (), s) =>
    let s := accrueFunding candle (e.checkExits i candle (e.closeRequested i candle s))
    match e.askProvider i provider s with
    | (.error err, s) => (.error err, s)
    | (.ok (), s) => (.ok (), { s with history := s.history ++ [candle] })

/-- A whole backtest: its trades, and the state that it ends in. A position that is
still open is closed at the close of the last candle. -/
def run (candles : List CandleRow) (provider : SignalProvider ρ) (start : ρ) :
    Except PyError (List ClosedTrade) × BacktestState ρ :=
  match candles.getLast? with
  | none => (.ok [], { provider := start })
  | some last =>
    match loop (fun i candle => e.turn i candle provider) 0 candles { provider := start } with
    | (.error err, s) => (.error err, s)
    | (.ok (), s) =>
      match s.openPos with
      | none => (.ok s.closedTrades, s)
      | some pos =>
        (.ok (s.closedTrades ++
          [e.closePosition pos last.close (candles.length - 1) .endOfData .limit]), s)

end BacktestingEngine

end FuturesBot
