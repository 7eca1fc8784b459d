import FuturesBot.Backtesting.Amounts

namespace FuturesBot
open Lib

structure BacktestConfig where
  symbol : Symbol
  timeframe : String
  initialBalanceUsdt : Amount := 100
  initial_pos : 0 < initialBalanceUsdt

/-- The profit factor is infinite where nothing has been lost. -/
structure BacktestRunResult where
  symbol : Symbol
  timeframe : String
  candlesProcessed : ℕ
  trades : List ClosedTrade
  totalTrades : ℕ
  winningTrades : ℕ
  losingTrades : ℕ
  winRate : Option Amount
  profitFactor : Option (WithTop Amount)
  expectancyUsdt : Option Amount
  maxDrawdownPct : Option Amount
  totalGrossPnl : Amount
  totalFeesPaid : Amount
  totalSlippageCost : Amount
  totalFundingCost : Amount
  totalNetPnl : Amount
  finalBalanceUsdt : Amount

def ClosedTrade.wins (trade : ClosedTrade) : Bool := 0 < trade.netPnlUsdt

/-- A trade that breaks even loses. -/
def ClosedTrade.loses (trade : ClosedTrade) : Bool := trade.netPnlUsdt ≤ 0

def totalNetPnl (trades : List ClosedTrade) : Amount := (trades.map (·.netPnlUsdt)).sum

def profitFactor (trades : List ClosedTrade) : Option (WithTop Amount) :=
  let grossWins := totalNetPnl (trades.filter (·.wins))
  let grossLosses := ((trades.filter (·.loses)).map (|·.netPnlUsdt|)).sum
  if grossLosses = 0 then if grossWins = 0 then none else some ⊤
  else some (grossWins / grossLosses : Amount)

def expectancy (trades : List ClosedTrade) : Option Amount :=
  if trades.isEmpty then none else some (quantize (totalNetPnl trades / trades.length))

def drawdownOver (equity peak maxDd : Amount) : List ClosedTrade → Amount
  | [] => maxDd
  | trade :: trades =>
    let equity := equity + trade.netPnlUsdt
    let peak := if peak < equity then equity else peak
    let drawdown := if 0 < peak then (peak - equity) / peak else 0
    drawdownOver equity peak (if maxDd < drawdown then drawdown else maxDd) trades

def maxDrawdown (trades : List ClosedTrade) (initialBalance : Amount) : Option Amount :=
  if trades.isEmpty then none else some (drawdownOver initialBalance initialBalance 0 trades)

def computeBacktestMetrics (trades : List ClosedTrade) (symbol : Symbol) (timeframe : String)
    (candlesProcessed : ℕ) (initialBalanceUsdt : Amount) : BacktestRunResult where
  symbol := symbol
  timeframe := timeframe
  candlesProcessed := candlesProcessed
  trades := trades
  totalTrades := trades.length
  winningTrades := trades.countP (·.wins)
  losingTrades := trades.countP (·.loses)
  winRate := if 0 < trades.length then some (trades.countP (·.wins) / trades.length) else none
  profitFactor := profitFactor trades
  expectancyUsdt := expectancy trades
  maxDrawdownPct := maxDrawdown trades initialBalanceUsdt
  totalGrossPnl := quantize (trades.map (·.grossPnlUsdt)).sum
  totalFeesPaid := quantize (trades.map (·.feesUsdt)).sum
  totalSlippageCost := quantize (trades.map (·.slippageUsdt)).sum
  totalFundingCost := quantize (trades.map (·.fundingCostUsdt)).sum
  totalNetPnl := quantize (totalNetPnl trades)
  finalBalanceUsdt := quantize (initialBalanceUsdt + totalNetPnl trades)

theorem wins_add_loses (trades : List ClosedTrade) :
    trades.countP (·.wins) + trades.countP (·.loses) = trades.length := by
  have hloses : ∀ trade ∈ trades, trade.loses ↔ decide (¬trade.wins = true) = true := by
    intro trade _
    simp [ClosedTrade.loses, ClosedTrade.wins]
  rw [List.countP_congr hloses]
  exact (List.length_eq_countP_add_countP _).symm

/-- The totals are the sums of the trades, and nothing else. -/
structure BacktestRunResult.Sums (result : BacktestRunResult) : Prop where
  total : result.totalTrades = result.trades.length
  split : result.winningTrades + result.losingTrades = result.totalTrades
  gross : result.totalGrossPnl = (result.trades.map (·.grossPnlUsdt)).sum
  fees : result.totalFeesPaid = (result.trades.map (·.feesUsdt)).sum
  slippage : result.totalSlippageCost = (result.trades.map (·.slippageUsdt)).sum
  funding : result.totalFundingCost = (result.trades.map (·.fundingCostUsdt)).sum
  net : result.totalNetPnl = (result.trades.map (·.netPnlUsdt)).sum

namespace BacktestingEngine

variable {e : BacktestingEngine} {candles : List CandleRow} {provider : SignalProvider ρ}
  {start : ρ}

/-- A backtest with the metrics of its trades. -/
def backtest (e : BacktestingEngine) (config : BacktestConfig) (candles : List CandleRow)
    (provider : SignalProvider ρ) (start : ρ) : Except PyError BacktestRunResult :=
  match (e.run candles provider start).1 with
  | .error err => .error err
  | .ok trades => .ok (computeBacktestMetrics trades config.symbol config.timeframe candles.length
      config.initialBalanceUsdt)

theorem metrics_sums (h : ∀ trade ∈ trades, trade.Balanced) :
    (computeBacktestMetrics trades symbol timeframe processed initial).Sums := by
  have hsum : ∀ amount : ClosedTrade → Amount,
      (∀ trade ∈ trades, IsDecimal quantPlaces (amount trade)) →
      quantize (trades.map amount).sum = (trades.map amount).sum := by
    intro amount hamount
    apply quantize_eq_self
    apply IsDecimal.sum
    intro x hx
    obtain ⟨trade, hm, rfl⟩ := List.mem_map.mp hx
    exact hamount trade hm
  exact
    { total := rfl
      split := wins_add_loses trades
      gross := hsum _ fun trade hm => (h trade hm).gross
      fees := hsum _ fun trade hm => (h trade hm).fees
      slippage := hsum _ fun trade hm => (h trade hm).slippage
      funding := hsum _ fun trade hm => (h trade hm).funding
      net := hsum _ fun trade hm => (h trade hm).net_isDecimal }

/-- The accounts of a backtest add up: those of each trade, the totals, and the final balance,
which is rounded once an initial balance has more decimals than the trades. -/
theorem backtest_accounts (h : e.backtest config candles provider start = .ok result) :
    (∀ trade ∈ result.trades, trade.netPnlUsdt =
      trade.grossPnlUsdt - trade.feesUsdt - trade.slippageUsdt - trade.fundingCostUsdt) ∧
    result.Sums ∧
    result.finalBalanceUsdt =
      quantize (config.initialBalanceUsdt + (result.trades.map (·.netPnlUsdt)).sum) ∧
    (result.finalBalanceUsdt =
        config.initialBalanceUsdt + (result.trades.map (·.netPnlUsdt)).sum ↔
      IsDecimal quantPlaces config.initialBalanceUsdt) := by
  unfold backtest at h
  split at h
  · cases h
  rename_i trades hrun
  cases h
  have hbalanced := run_balanced hrun
  have hnet : IsDecimal quantPlaces (totalNetPnl trades) := by
    apply IsDecimal.sum
    intro x hx
    obtain ⟨trade, hm, rfl⟩ := List.mem_map.mp hx
    exact (hbalanced trade hm).net_isDecimal
  refine ⟨fun trade hm => (hbalanced trade hm).net, metrics_sums hbalanced, rfl, ?_⟩
  change quantize (config.initialBalanceUsdt + totalNetPnl trades) = _ ↔ _
  rw [← totalNetPnl]
  constructor
  · intro hexact
    have hdecimal : IsDecimal quantPlaces (config.initialBalanceUsdt + totalNetPnl trades) :=
      hexact ▸ quantize_isDecimal
    have hinitial := hdecimal.sub hnet
    rwa [add_sub_cancel_right] at hinitial
  · intro hinitial
    exact quantize_eq_self (hinitial.add hnet)

end BacktestingEngine

def unitConfig : BacktestConfig where
  symbol := "BTCUSDT"
  timeframe := "1h"
  initialBalanceUsdt := 1 + 1 / 10 ^ 9
  initial_pos := by norm_num

/-- The accounts of the rally's backtest. -/
theorem rally_accounts : ∃ result,
    standardEngine.backtest unitConfig rallyOnce longAtStart () = .ok result ∧ result.Sums := by
  have hok : (standardEngine.backtest unitConfig rallyOnce longAtStart ()).toOption.isSome =
      true := by
    decide +kernel
  obtain ⟨result, hr⟩ := ok_of_isSome hok
  exact ⟨result, hr, (BacktestingEngine.backtest_accounts hr).2.1⟩

/-- A billionth of the initial balance is not in the final one. -/
theorem billionth_lost :
    ¬∀ (e : BacktestingEngine) (config : BacktestConfig) (candles : List CandleRow)
      (provider : SignalProvider Unit) (start : Unit) (result : BacktestRunResult),
      e.backtest config candles provider start = .ok result →
      (∀ trade ∈ result.trades, trade.netPnlUsdt =
        trade.grossPnlUsdt - trade.feesUsdt - trade.slippageUsdt - trade.fundingCostUsdt) ∧
      result.Sums ∧
      result.finalBalanceUsdt =
        config.initialBalanceUsdt + (result.trades.map (·.netPnlUsdt)).sum := by
  intro h
  have hfinal := (h standardEngine unitConfig [] longAtStart () _ rfl).2.2
  revert hfinal
  decide +kernel

end FuturesBot
