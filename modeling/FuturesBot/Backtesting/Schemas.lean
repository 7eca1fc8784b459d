import FuturesBot.Positions.Schemas

namespace FuturesBot

/-- One candle. `funding_rate` applies at its close. -/
structure CandleRow where
  timestampUtc : Timestamp
  openPrice : Amount
  high : Amount
  low : Amount
  close : Amount
  volume : Amount
  fundingRate : Amount := 0
  open_range : low ≤ openPrice ∧ openPrice ≤ high
  close_range : low ≤ close ∧ close ≤ high
  volume_nonneg : 0 ≤ volume

inductive SignalAction
  | long | short | close | noOp
  deriving DecidableEq, Repr

inductive TradeSide
  | long | short
  deriving DecidableEq, Repr

/-- Levels that end with the whole of what is left, if there are any. -/
def LevelsEnd (levels : List TakeProfitLevel) : Prop :=
  ∀ level ∈ levels.getLast?, level.closeFraction = 1

theorem LevelsEnd.tail (h : LevelsEnd levels) : LevelsEnd levels.tail := by
  intro level hl
  rcases levels with _ | ⟨first, _ | ⟨second, rest⟩⟩
  · cases hl
  · cases hl
  · exact h level (by simpa using hl)

structure TradeSignal where
  action : SignalAction
  stopLoss : Option Amount := none
  takeProfit : Option Amount := none
  takeProfitLevels : List TakeProfitLevel := []
  leverage : ℤ := 1
  marginUsdt : Amount := 10
  leverage_range : 1 ≤ leverage ∧ leverage ≤ 10
  margin_pos : 0 < marginUsdt
  exits : action = .long ∨ action = .short → stopLoss.isSome ∧
    (takeProfit.isSome ↔ takeProfitLevels = []) ∧ LevelsEnd takeProfitLevels

/-- An open position of the simulation. Its two kinds of targets exclude each other. -/
structure OpenPosition where
  side : TradeSide
  entryCandleIndex : ℕ
  entryPrice : Amount
  stopLoss : Amount
  takeProfit : Option Amount
  takeProfitLevels : List TakeProfitLevel
  leverage : ℤ
  marginUsdt : Amount
  notionalUsdt : Amount
  quantity : Amount
  entryFeeUsdt : Amount
  entrySlippageUsdt : Amount
  accruedFundingUsdt : Amount := 0
  exclusive : takeProfit = none ∨ takeProfitLevels = []
  levelsEnd : LevelsEnd takeProfitLevels

inductive ExitReason
  | sl | tp | tpPartial | closeSignal | endOfData
  deriving DecidableEq, Repr

/-- `is_partial` is validated to say that the reason is TP_PARTIAL. -/
structure ClosedTrade where
  side : TradeSide
  entryCandleIndex : ℕ
  exitCandleIndex : ℕ
  entryPrice : Amount
  exitPrice : Amount
  exitReason : ExitReason
  leverage : ℤ
  marginUsdt : Amount
  notionalUsdt : Amount
  grossPnlUsdt : Amount
  entryFeeUsdt : Amount
  exitFeeUsdt : Amount
  entrySlippageUsdt : Amount
  exitSlippageUsdt : Amount
  fundingCostUsdt : Amount
  netPnlUsdt : Amount
  holdCandles : ℕ
  deriving DecidableEq

end FuturesBot
