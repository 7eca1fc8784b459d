import FuturesBot.Backtesting.ExitPrices

namespace FuturesBot
open Lib

/-- The quantity that an event takes from the position. A level that rounds to nothing takes
nothing. -/
def PositionChange.closedQuantity : PositionChange → Amount
  | .opened _ _ | .funded _ => 0
  | .reduced pos level => max 0 (quantizeProduct pos.quantity level.closeFraction)
  | .closed pos _ _ _ => pos.quantity

/-- The net of a trade is what its quantity makes between the two prices before slippage, less
fees, slippage and funding. -/
def ClosedTrade.ChargedOnce (trade : ClosedTrade) (entryReference exitReference quantity : Amount) :
    Prop :=
  trade.netPnlUsdt = trade.side.grossPnl entryReference exitReference quantity -
    trade.feesUsdt - trade.slippageUsdt - trade.fundingCostUsdt

instance (trade : ClosedTrade) (entryReference exitReference quantity : Amount) :
    Decidable (trade.ChargedOnce entryReference exitReference quantity) :=
  inferInstanceAs (Decidable (_ = _))

/-- What the two fills of a trade slip does not outlast the rounding of its gross. -/
def SlippageRoundedAway (slip : SlippageModel) (side : TradeSide)
    (entryReference exitReference : Amount) (orderType : ModelOrderType) (quantity : Amount) :
    Prop :=
  side.grossPnl (slip.apply entryReference side.entrySide .market)
      (slip.apply exitReference side.exitSide orderType) quantity =
    side.grossPnl entryReference exitReference quantity

instance (slip : SlippageModel) (side : TradeSide) (entryReference exitReference : Amount)
    (orderType : ModelOrderType) (quantity : Amount) :
    Decidable (SlippageRoundedAway slip side entryReference exitReference orderType quantity) :=
  inferInstanceAs (Decidable (_ = _))

theorem quantizeProduct_neg (x y : Amount) : quantizeProduct (-x) y = -quantizeProduct x y := by
  unfold quantizeProduct quantize quantizeWith Decimal.roundContext
  rw [neg_mul, Rounding.neg, neg_mul, roundHalfEven_neg, Int.cast_neg, neg_div]

/-- Two products that are rounded to the same are not further apart than a unit of the last decimal
and the error of the context. -/
theorem abs_sub_le_of_quantizeProduct_eq (h : quantizeProduct a x = quantizeProduct b x) :
    |a * x - b * x| ≤ 1 / 10 ^ quantPlaces + (|a * x| + |b * x|) / (2 * 10 ^ 27) := by
  have hleft := Decimal.abs_roundContext_sub_le (a * x)
  have hright := Decimal.abs_roundContext_sub_le (b * x)
  have hboth := abs_sub_le_of_quantize_eq h
  rw [abs_sub_comm] at hleft
  have hway := abs_sub_le (a * x) (Decimal.roundContext (a * x)) (b * x)
  have hrest := abs_sub_le (Decimal.roundContext (a * x)) (Decimal.roundContext (b * x)) (b * x)
  rw [add_div]
  linarith

/-- Slippage that makes a difference of more than one unit of the last decimal, and of the last
digit of the context, is not. -/
theorem slippage_not_roundedAway {slip : SlippageModel} {side : TradeSide}
    (h : 1 / 10 ^ quantPlaces +
        (|(slip.apply exitReference side.exitSide orderType -
            slip.apply entryReference side.entrySide .market) * quantity| +
          |(exitReference - entryReference) * quantity|) / (2 * 10 ^ 27) <
      |(slip.apply exitReference side.exitSide orderType -
          slip.apply entryReference side.entrySide .market) * quantity -
        (exitReference - entryReference) * quantity|) :
    ¬SlippageRoundedAway slip side entryReference exitReference orderType quantity := by
  intro haway
  apply not_le.mpr h
  unfold SlippageRoundedAway TradeSide.grossPnl at haway
  cases side with
  | long => exact abs_sub_le_of_quantizeProduct_eq haway
  | short =>
    have hturned : ∀ a b : Amount, quantizeProduct (b - a) quantity =
        -quantizeProduct (a - b) quantity := by
      intro a b
      rw [← quantizeProduct_neg, neg_sub]
    dsimp only at haway
    rw [hturned (slip.apply exitReference _ _), hturned exitReference, neg_inj] at haway
    exact abs_sub_le_of_quantizeProduct_eq haway

namespace BacktestingEngine

variable {e : BacktestingEngine} {candles : List CandleRow} {provider : SignalProvider ρ}
  {start : ρ}

theorem tradeOf_gross {x : BacktestEvent} (h : e.tradeOf x = some trade) :
    trade.grossPnlUsdt = trade.side.grossPnl x.change.position.entryPrice trade.exitPrice
      x.change.closedQuantity := by
  rcases tradeOf_cases h with ⟨pos, level, hx, ht⟩ | ⟨pos, price, reason, orderType, hx, rfl⟩
  all_goals rw [hx]
  · have hpart := partialCloseTp_trade ht
    have hside : trade.side = pos.side := congrArg (·.2.1) hpart.entry
    rw [PositionChange.closedQuantity, max_eq_right (le_of_lt hpart.quantity), hside]
    exact hpart.gross
  · rfl

/-- A position is entered at the fill of a market order at the open of the candle of its entry. -/
theorem entryPrice_slipped (hx : x ∈ e.events candles provider start) :
    ∃ candle, candles[x.entry]? = some candle ∧ x.change.position.entryPrice =
      e.slip.apply candle.openPrice x.change.position.side.entrySide .market := by
  obtain ⟨o, hl⟩ := events_lineage (e := e) candles provider start
  obtain ⟨y, hy, hent, -⟩ := hl.entered x hx
  have hindex : y.index = x.entry := hent.index
  obtain ⟨signal, pos, hopened, hallowed, hentry⟩ := hent
  have hside : pos.side = x.change.position.side := congrArg (·.2.1) hentry
  have hprice : pos.entryPrice = x.change.position.entryPrice := congrArg (·.2.2) hentry
  refine ⟨y.candle, hindex ▸ events_candle hy, ?_⟩
  rw [Allowed, hopened] at hallowed
  rw [← hprice, ← hside]
  exact (openPosition_ok hallowed).1

/-- The slippage of a trade is charged once just when none of it is left in the gross. -/
theorem charged_once_iff (h : (e.run candles provider start).1 = .ok trades) :
    (∀ trade ∈ trades, ∃ x ∈ e.events candles provider start, e.tradeOf x = some trade) ∧
    ∀ x ∈ e.events candles provider start, ∀ trade, e.tradeOf x = some trade →
      ∀ candle, candles[trade.entryCandleIndex]? = some candle →
      ∀ price orderType, x.change.exit = some (price, orderType) →
      (trade.ChargedOnce candle.openPrice price x.change.closedQuantity ↔
        SlippageRoundedAway e.slip trade.side candle.openPrice price orderType
          x.change.closedQuantity) := by
  obtain ⟨htrades, hr⟩ := events_trades h
  refine ⟨?_, ?_⟩
  · intro trade hm
    rw [htrades] at hm
    exact List.mem_filterMap.mp hm
  intro x hx trade ht candle hc price orderType hexit
  have hside : trade.side = x.change.position.side := congrArg (·.2.1) (tradeOf_position ht).1
  obtain ⟨candle', hc', hentry⟩ := entryPrice_slipped hx
  rw [(tradeOf_indices ht).1, hc'] at hc
  cases hc
  obtain ⟨price', orderType', hexit', hexitPrice⟩ := tradeOf_exit ht
  cases hexit.symm.trans hexit'
  have hgross := tradeOf_gross ht
  rw [hentry, hexitPrice, ← hside] at hgross
  have hnet := (tradeOf_balanced (events_rounded hr x hx) ht).net
  rw [hgross] at hnet
  unfold ClosedTrade.ChargedOnce SlippageRoundedAway
  rw [hnet, sub_left_inj, sub_left_inj, sub_left_inj]

end BacktestingEngine

/-- The engine with fills at the prices that they are asked for. -/
def unslippedEngine : BacktestingEngine := { standardEngine with slip := { marketBps := 0 } }

/-- The rally's long, from 100 to a target at 105. -/
theorem rally_charged_once : ∃ trades,
    (unslippedEngine.run rallyOnce longAtStart ()).1 = .ok trades ∧
    ∃ x ∈ unslippedEngine.events rallyOnce longAtStart (), ∃ trade,
      unslippedEngine.tradeOf x = some trade ∧
      trade.ChargedOnce 100 105 x.change.closedQuantity := by
  have hok : (unslippedEngine.run rallyOnce longAtStart ()).1.toOption.isSome = true := by
    decide +kernel
  have he : (unslippedEngine.events rallyOnce longAtStart ()).any (fun x =>
      (unslippedEngine.tradeOf x).any fun trade => trade.entryCandleIndex = 1 ∧
        x.change.exit = some (105, .limit) ∧ SlippageRoundedAway unslippedEngine.slip trade.side
          100 105 .limit x.change.closedQuantity) = true := by
    decide +kernel
  obtain ⟨x, hx, he⟩ := List.any_eq_true.mp he
  obtain ⟨trade, ht, he⟩ := (Option.any_eq_true _ _).mp he
  obtain ⟨hentry, hexit, haway⟩ := of_decide_eq_true he
  obtain ⟨trades, hr⟩ := ok_of_isSome hok
  have hc : rallyOnce[trade.entryCandleIndex]? = some rallyCandle := by rw [hentry]; rfl
  exact ⟨trades, hr, x, hx, trade, ht, ((BacktestingEngine.charged_once_iff hr).2 x hx trade ht
    rallyCandle hc 105 .limit hexit).mpr haway⟩

/-- A long from 100 to 105 at two basis points: its entry slips in its gross, and once more in
its net. -/
theorem slippage_charged_twice :
    ¬∀ (e : BacktestingEngine) (candles : List CandleRow) (provider : SignalProvider Unit)
      (start : Unit) (trades : List ClosedTrade),
      (e.run candles provider start).1 = .ok trades →
      ∀ x ∈ e.events candles provider start, ∀ trade, e.tradeOf x = some trade →
      ∀ candle, candles[trade.entryCandleIndex]? = some candle →
      ∀ price orderType, x.change.exit = some (price, orderType) →
      trade.ChargedOnce candle.openPrice price x.change.closedQuantity := by
  intro h
  have hok : (standardEngine.run rallyOnce longAtStart ()).1.toOption.isSome = true := by
    decide +kernel
  have he : (standardEngine.events rallyOnce longAtStart ()).any (fun x =>
      (standardEngine.tradeOf x).any fun trade => trade.entryCandleIndex = 1 ∧
        x.change.exit = some (105, .limit) ∧
        ¬trade.ChargedOnce 100 105 x.change.closedQuantity) = true := by
    decide +kernel
  obtain ⟨x, hx, he⟩ := List.any_eq_true.mp he
  obtain ⟨trade, ht, he⟩ := (Option.any_eq_true _ _).mp he
  obtain ⟨hentry, hexit, htwice⟩ := of_decide_eq_true he
  obtain ⟨trades, hr⟩ := ok_of_isSome hok
  have hc : rallyOnce[trade.entryCandleIndex]? = some rallyCandle := by rw [hentry]; rfl
  exact htwice (h standardEngine rallyOnce longAtStart () trades hr x hx trade ht rallyCandle hc
    105 .limit hexit)

end FuturesBot
