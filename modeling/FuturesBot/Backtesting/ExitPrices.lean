import FuturesBot.Backtesting.Amounts

namespace FuturesBot
open Lib

/-- The price of an exit before slippage, and the kind of order that it is filled as. -/
def PositionChange.exit : PositionChange → Option (Amount × ModelOrderType)
  | .opened _ _ | .funded _ => none
  | .reduced _ level => some (level.price, .limit)
  | .closed _ price _ orderType => some (price, orderType)

/-- The market has traded at the price during the candle. -/
def CandleRow.Trades (candle : CandleRow) (price : Amount) : Prop :=
  candle.low ≤ price ∧ price ≤ candle.high

/-- The whole candle lies on the losing side of the price. -/
def CandleRow.Below (candle : CandleRow) (side : TradeSide) (price : Amount) : Prop :=
  match side with
  | .long => candle.high < price
  | .short => price < candle.low

/-- The whole candle lies on the winning side of the price. -/
def CandleRow.Above (candle : CandleRow) (side : TradeSide) (price : Amount) : Prop :=
  match side with
  | .long => price < candle.low
  | .short => candle.high < price

theorem stop_trades_iff (h : BacktestingEngine.stopHit side price candle) :
    candle.Trades price ↔ ¬candle.Below side price := by
  unfold BacktestingEngine.stopHit at h
  unfold CandleRow.Trades CandleRow.Below
  cases side with
  | long =>
    have hlow : candle.low ≤ price := of_decide_eq_true h
    exact (and_iff_right hlow).trans not_lt.symm
  | short =>
    have hhigh : price ≤ candle.high := of_decide_eq_true h
    exact (and_iff_left hhigh).trans not_lt.symm

theorem target_trades_iff (h : BacktestingEngine.targetHit side price candle) :
    candle.Trades price ↔ ¬candle.Above side price := by
  unfold BacktestingEngine.targetHit at h
  unfold CandleRow.Trades CandleRow.Above
  cases side with
  | long =>
    have hhigh : price ≤ candle.high := of_decide_eq_true h
    exact (and_iff_left hhigh).trans not_lt.symm
  | short =>
    have hlow : candle.low ≤ price := of_decide_eq_true h
    exact (and_iff_right hlow).trans not_lt.symm

/-- The next target of a position. -/
def OpenPosition.NextTarget (pos : OpenPosition) (price : Amount) : Prop :=
  pos.takeProfit = some price ∨ ∃ level ∈ pos.takeProfitLevels.head?, price = level.price

theorem OpenPosition.FinalTarget.next {pos : OpenPosition} (h : pos.FinalTarget price) :
    pos.NextTarget price := by
  rcases h with ⟨level, hlevels, hprice⟩ | hsingle
  · refine .inr ⟨level, ?_, hprice⟩
    rw [hlevels]
    rfl
  · exact .inl hsingle

/-- The rule that the price of an exit follows, by its reason. A stop and a target are filled
at exactly their own price, also where the whole candle lies beyond it. -/
structure ExitRule (pos : OpenPosition) (candle : CandleRow) (reason : ExitReason)
    (price : Amount) : Prop where
  closeSignal : reason = .closeSignal → price = candle.openPrice ∧ candle.Trades price
  endOfData : reason = .endOfData → price = candle.close ∧ candle.Trades price
  stop : reason = .sl →
    price = pos.stopLoss ∧ (candle.Trades price ↔ ¬candle.Below pos.side price)
  target : reason = .tp ∨ reason = .tpPartial →
    pos.NextTarget price ∧ (candle.Trades price ↔ ¬candle.Above pos.side price)

namespace BacktestingEngine

variable {e : BacktestingEngine} {candles : List CandleRow} {provider : SignalProvider ρ}
  {start : ρ}

theorem tradeOf_exit {x : BacktestEvent} (h : e.tradeOf x = some trade) :
    ∃ price orderType, x.change.exit = some (price, orderType) ∧
      trade.exitPrice = e.slip.apply price x.change.position.side.exitSide orderType := by
  rcases tradeOf_cases h with ⟨pos, level, hx, ht⟩ | ⟨pos, price, reason, orderType, hx, rfl⟩
  · rw [hx]
    exact ⟨_, _, rfl, (partialCloseTp_trade ht).price⟩
  · rw [hx]
    exact ⟨_, _, rfl, rfl⟩

theorem exitRule {x : BacktestEvent} (hallowed : e.Allowed x) (h : e.tradeOf x = some trade)
    (hexit : x.change.exit = some (price, orderType)) :
    ExitRule x.change.position x.candle trade.exitReason price := by
  unfold Allowed at hallowed
  rcases tradeOf_cases h with ⟨pos, level, hx, ht⟩ | ⟨pos, price, reason, orderType, hx, rfl⟩
  all_goals rw [hx] at hallowed hexit ⊢
  · cases hexit
    obtain ⟨⟨next, later, hlevels⟩, -, hhit⟩ := hallowed
    have hreason := (partialCloseTp_trade ht).reason
    refine ⟨?_, ?_, ?_, fun _ => ⟨.inr ⟨level, ?_, rfl⟩, target_trades_iff hhit⟩⟩
    · intro hr
      rw [hreason] at hr
      cases hr
    · intro hr
      rw [hreason] at hr
      cases hr
    · intro hr
      rw [hreason] at hr
      cases hr
    · change level ∈ pos.takeProfitLevels.head?
      rw [hlevels]
      rfl
  · cases hexit
    cases reason with
    | sl =>
      obtain ⟨hhit, hprice, -⟩ := hallowed
      exact ⟨nofun, nofun, fun _ => ⟨hprice, stop_trades_iff hhit⟩, nofun⟩
    | tp =>
      obtain ⟨htarget, -, hhit, -⟩ := hallowed
      exact ⟨nofun, nofun, nofun, fun _ => ⟨htarget.next, target_trades_iff hhit⟩⟩
    | tpPartial => exact hallowed.elim
    | closeSignal =>
      obtain ⟨rfl, -⟩ := hallowed
      exact ⟨fun _ => ⟨rfl, x.candle.open_range⟩, nofun, nofun, nofun⟩
    | endOfData =>
      obtain ⟨rfl, -⟩ := hallowed
      exact ⟨nofun, fun _ => ⟨rfl, x.candle.close_range⟩, nofun, nofun⟩

/-- Every trade of a backtest leaves by the rule of its reason. -/
theorem exits_follow_rule (h : (e.run candles provider start).1 = .ok trades) :
    ∀ trade ∈ trades, ∃ x ∈ e.events candles provider start, e.tradeOf x = some trade ∧
      candles[trade.exitCandleIndex]? = some x.candle ∧
      ∃ price orderType, x.change.exit = some (price, orderType) ∧
        trade.exitPrice = e.slip.apply price trade.side.exitSide orderType ∧
        ExitRule x.change.position x.candle trade.exitReason price := by
  obtain ⟨htrades, -⟩ := events_trades h
  intro trade hm
  rw [htrades] at hm
  obtain ⟨x, hx, ht⟩ := List.mem_filterMap.mp hm
  obtain ⟨price, orderType, hexit, hprice⟩ := tradeOf_exit ht
  refine ⟨x, hx, ht, ?_, price, orderType, hexit, ?_, exitRule (events_allowed hx) ht hexit⟩
  · rw [(tradeOf_indices ht).2]
    exact events_candle hx
  · have hside : trade.side = x.change.position.side :=
      congrArg (·.2.1) (tradeOf_position ht).1
    rw [hprice, hside]

end BacktestingEngine

/-- The rally's long leaves by the rule of its target. -/
theorem rally_follows_rule : ∃ trades,
    (standardEngine.run rallyOnce longAtStart ()).1 = .ok trades ∧
    ∀ trade ∈ trades, ∃ x ∈ standardEngine.events rallyOnce longAtStart (),
      standardEngine.tradeOf x = some trade ∧ rallyOnce[trade.exitCandleIndex]? = some x.candle ∧
      ∃ price orderType, x.change.exit = some (price, orderType) ∧
        trade.exitPrice = standardEngine.slip.apply price trade.side.exitSide orderType ∧
        ExitRule x.change.position x.candle trade.exitReason price := by
  have hok : (standardEngine.run rallyOnce longAtStart ()).1.toOption.isSome = true := by
    decide +kernel
  obtain ⟨trades, hr⟩ := ok_of_isSome hok
  exact ⟨trades, hr, BacktestingEngine.exits_follow_rule hr⟩

/-- A candle far below the stop of the long. -/
def crashCandle : CandleRow :=
  { quietCandle with
    openPrice := 50
    high := 55
    low := 45
    close := 50
    open_range := by norm_num
    close_range := by norm_num }

def crashAfterEntry : List CandleRow := [quietCandle, quietCandle, crashCandle]

/-- The stop at 80 is filled at 80, in a candle that has not traded above 55. -/
theorem stop_above_candle :
    ¬∀ (e : BacktestingEngine) (candles : List CandleRow) (provider : SignalProvider Unit)
      (start : Unit) (trades : List ClosedTrade),
      (e.run candles provider start).1 = .ok trades →
      ∀ trade ∈ trades, ∀ x ∈ e.events candles provider start, e.tradeOf x = some trade →
      ∀ price orderType, x.change.exit = some (price, orderType) → x.candle.Trades price := by
  intro h
  have he : (standardEngine.events crashAfterEntry longAtStart ()).any (fun x =>
      (standardEngine.tradeOf x).isSome && x.change.exit.any (x.candle.high < ·.1)) = true := by
    decide +kernel
  have hok : (standardEngine.run crashAfterEntry longAtStart ()).1.toOption.isSome = true := by
    decide +kernel
  obtain ⟨x, hx, he⟩ := List.any_eq_true.mp he
  obtain ⟨ht, he⟩ := Bool.and_eq_true_iff.mp he
  obtain ⟨trade, ht⟩ := Option.isSome_iff_exists.mp ht
  obtain ⟨exit, hexit, habove⟩ := (Option.any_eq_true _ _).mp he
  obtain ⟨trades, hr⟩ := ok_of_isSome hok
  have hm : trade ∈ trades := by
    rw [(BacktestingEngine.events_trades hr).1]
    exact List.mem_filterMap.mpr ⟨x, hx, ht⟩
  have htrades := h _ _ _ _ trades hr trade hm x hx ht exit.1 exit.2 hexit
  exact absurd htrades.2 (not_le.mpr (of_decide_eq_true habove))

end FuturesBot
