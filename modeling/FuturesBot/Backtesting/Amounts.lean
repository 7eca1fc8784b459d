import FuturesBot.Backtesting.Timeline

namespace FuturesBot
open Lib

/-- The amounts of a position have no more decimals than the simulation. -/
structure OpenPosition.Rounded (pos : OpenPosition) : Prop where
  quantity : IsDecimal quantPlaces pos.quantity
  margin : IsDecimal quantPlaces pos.marginUsdt
  notional : IsDecimal quantPlaces pos.notionalUsdt
  entryFee : IsDecimal quantPlaces pos.entryFeeUsdt
  entrySlippage : IsDecimal quantPlaces pos.entrySlippageUsdt
  accruedFunding : IsDecimal quantPlaces pos.accruedFundingUsdt

def ClosedTrade.feesUsdt (trade : ClosedTrade) : Amount := trade.entryFeeUsdt + trade.exitFeeUsdt

def ClosedTrade.slippageUsdt (trade : ClosedTrade) : Amount :=
  trade.entrySlippageUsdt + trade.exitSlippageUsdt

/-- What a trade makes is the gross less all of its costs, and none of it is rounded away. -/
structure ClosedTrade.Balanced (trade : ClosedTrade) : Prop where
  net : trade.netPnlUsdt =
    trade.grossPnlUsdt - trade.feesUsdt - trade.slippageUsdt - trade.fundingCostUsdt
  gross : IsDecimal quantPlaces trade.grossPnlUsdt
  fees : IsDecimal quantPlaces trade.feesUsdt
  slippage : IsDecimal quantPlaces trade.slippageUsdt
  funding : IsDecimal quantPlaces trade.fundingCostUsdt

theorem ClosedTrade.Balanced.net_isDecimal {trade : ClosedTrade} (h : trade.Balanced) :
    IsDecimal quantPlaces trade.netPnlUsdt := by
  rw [h.net]
  exact ((h.gross.sub h.fees).sub h.slippage).sub h.funding

theorem FeeModel.calculate_isDecimal (m : FeeModel) (notional : Amount) (t : ModelOrderType) :
    IsDecimal quantPlaces (m.calculate notional t) := quantize_isDecimal

theorem TradeSide.grossPnl_isDecimal (side : TradeSide) (entryPrice exitFill quantity : Amount) :
    IsDecimal quantPlaces (side.grossPnl entryPrice exitFill quantity) := by
  cases side <;> exact quantizeProduct_isDecimal

namespace BacktestingEngine

variable {e : BacktestingEngine} {i : ℕ} {candle : CandleRow} {candles : List CandleRow}
  {provider : SignalProvider ρ} {start : ρ}

theorem computeFunding_isDecimal (pos : OpenPosition) (candle : CandleRow) :
    IsDecimal quantPlaces (computeFunding pos candle) := by
  unfold computeFunding
  dsimp only
  split
  · exact quantizeProduct_isDecimal
  · exact quantizeProduct_isDecimal.neg

theorem SignalAction.entrySide_of_side {action : SignalAction} (h : action.side = some side) :
    (if action = .long then OrderSide.buy else OrderSide.sell) = side.entrySide := by
  cases action <;> cases h <;> rfl

/-- A position starts at the fill of a market order at the open, with some quantity. -/
theorem openPosition_ok (h : e.openPosition signal candle i = .ok (some pos)) :
    pos.entryPrice = e.slip.apply candle.openPrice pos.side.entrySide .market ∧
      0 < pos.quantity ∧ pos.accruedFundingUsdt = 0 ∧ pos.Rounded := by
  unfold openPosition at h
  generalize hbuy : (if signal.action = .long then OrderSide.buy else OrderSide.sell) = side at h
  split at h
  · cases h
  dsimp only at h
  split at h
  · cases h
  split at h
  · cases h
  split at h
  · cases h
  rename_i hquantity
  split at h
  · cases h
  rename_i hside
  cases h
  refine ⟨?_, lt_of_not_ge hquantity, rfl, ?_⟩
  · rw [← SignalAction.entrySide_of_side hside, hbuy]
  · constructor
    all_goals dsimp only
    · exact quantizeProduct_isDecimal
    · exact quantizeProduct_isDecimal
    · exact quantizeProduct_isDecimal
    · exact FeeModel.calculate_isDecimal _ _ _
    · exact quantizeProduct_isDecimal
    · exact .zero

/-- What the entries of a run have and its events keep, all of its positions have. -/
theorem positions_have {P : OpenPosition → Prop} (hr : Run e.Happens none l o)
    (hopened : ∀ x ∈ l, ∀ signal pos, x.change = .opened signal pos → e.Allowed x → P pos)
    (hkept : ∀ x ∈ l, ∀ pos pos', x.change.before = some pos → P pos →
      e.after x = some pos' → P pos') :
    (∀ x ∈ l, P x.change.position) ∧ ∀ pos, o = some pos → P pos := by
  induction hr with
  | nil => exact ⟨List.forall_mem_nil _, fun _ h => by cases h⟩
  | @snoc o o' l x _ hx ih =>
    obtain ⟨hl, ho⟩ := ih (fun y hy => hopened y (List.mem_append_left _ hy))
      fun y hy => hkept y (List.mem_append_left _ hy)
    have hm : x ∈ l ++ [x] := List.mem_append_right _ (List.mem_singleton_self x)
    have hposition : P x.change.position := by
      cases hopen : o with
      | none =>
        obtain ⟨signal, pos, hentry⟩ := opened_of_no_before (hx.before.trans hopen)
        rw [hentry]
        exact hopened x hm signal pos hentry hx.allowed
      | some pos =>
        rw [(position_of_before (hx.before.trans hopen)).1]
        exact ho pos hopen
    refine ⟨?_, ?_⟩
    · intro y hy
      rcases List.mem_append.mp hy with hy | hy
      · exact hl y hy
      · rw [List.mem_singleton.mp hy]
        exact hposition
    · intro pos' hpos'
      have hafter := hx.after.trans hpos'
      cases hx' : x.change with
      | opened signal pos =>
        rw [after, hx'] at hafter
        rw [hx'] at hposition
        cases hafter
        exact hposition
      | _ pos =>
        rw [hx'] at hposition
        exact hkept x hm pos pos' (by rw [hx']; rfl) hposition hafter

theorem after_cases {x : BacktestEvent} (hb : x.change.before = some pos)
    (ha : e.after x = some pos') :
    (∃ level, x.change = .reduced pos level ∧ pos' = (e.partialCloseTp pos level x.index).2) ∨
      x.change = .funded pos ∧ pos' =
        { pos with
          accruedFundingUsdt := pos.accruedFundingUsdt + computeFunding pos x.candle } := by
  unfold after at ha
  cases hx : x.change with
  | opened signal pos₀ =>
    rw [hx] at hb
    cases hb
  | reduced pos₀ level =>
    rw [hx] at hb ha
    cases hb
    cases ha
    exact .inl ⟨level, rfl, rfl⟩
  | funded pos₀ =>
    rw [hx] at hb ha
    cases hb
    cases ha
    exact .inr ⟨rfl, rfl⟩
  | closed pos₀ price reason orderType =>
    rw [hx] at ha
    cases ha

theorem partialCloseTp_rounded (h : pos.Rounded) (level : TakeProfitLevel) :
    (e.partialCloseTp pos level i).2.Rounded := by
  unfold partialCloseTp
  dsimp only
  split
  · exact ⟨h.quantity, h.margin, h.notional, h.entryFee, h.entrySlippage, h.accruedFunding⟩
  · constructor
    · exact quantize_isDecimal
    all_goals exact quantizeProduct_isDecimal

/-- The amounts of every position of a backtest are rounded. -/
theorem events_rounded (hr : Run e.Happens none l o) : ∀ x ∈ l, x.change.position.Rounded := by
  refine (positions_have hr ?_ ?_).1
  · intro y _ signal pos hopened hallowed
    rw [Allowed, hopened] at hallowed
    exact (openPosition_ok hallowed).2.2.2
  · intro y _ pos pos' hbefore hpos hafter
    rcases after_cases hbefore hafter with ⟨level, -, rfl⟩ | ⟨-, rfl⟩
    · exact partialCloseTp_rounded hpos level
    · have hfunding := computeFunding_isDecimal pos y.candle
      exact ⟨hpos.quantity, hpos.margin, hpos.notional, hpos.entryFee, hpos.entrySlippage,
        hpos.accruedFunding.add hfunding⟩

theorem quantize_net (hg : IsDecimal quantPlaces gross) (hef : IsDecimal quantPlaces entryFee)
    (hxf : IsDecimal quantPlaces exitFee) (hes : IsDecimal quantPlaces entrySlippage)
    (hxs : IsDecimal quantPlaces exitSlippage) (hf : IsDecimal quantPlaces funding) :
    quantize (gross - entryFee - exitFee - entrySlippage - exitSlippage - funding) =
      gross - (entryFee + exitFee) - (entrySlippage + exitSlippage) - funding := by
  rw [quantize_eq_self (((((hg.sub hef).sub hxf).sub hes).sub hxs).sub hf)]
  ring

/-- A trade of rounded amounts is balanced. -/
theorem closePosition_balanced (h : pos.Rounded) (price : Amount) (reason : ExitReason)
    (orderType : ModelOrderType) :
    (e.closePosition pos price i reason orderType).Balanced := by
  have hgross := pos.side.grossPnl_isDecimal pos.entryPrice
    (e.slip.apply price pos.side.exitSide orderType) pos.quantity
  have hexit := e.fee.calculate_isDecimal
    (quantizeProduct (e.slip.apply price pos.side.exitSide orderType) pos.quantity) orderType
  constructor
  all_goals
    simp only [closePosition, ClosedTrade.feesUsdt, ClosedTrade.slippageUsdt,
      quantize_eq_self h.accruedFunding]
  · exact quantize_net hgross h.entryFee hexit h.entrySlippage quantizeProduct_isDecimal
      h.accruedFunding
  · exact hgross
  · exact h.entryFee.add hexit
  · exact h.entrySlippage.add quantizeProduct_isDecimal
  · exact h.accruedFunding

theorem partialCloseTp_balanced (h : (e.partialCloseTp pos level i).1 = some trade) :
    trade.Balanced := by
  have hgross := pos.side.grossPnl_isDecimal pos.entryPrice
    (e.slip.apply level.price pos.side.exitSide .limit)
    (quantizeProduct pos.quantity level.closeFraction)
  have hexit := e.fee.calculate_isDecimal
    (quantizeProduct (e.slip.apply level.price pos.side.exitSide .limit)
      (quantizeProduct pos.quantity level.closeFraction)) .limit
  unfold partialCloseTp at h
  dsimp only at h
  split at h
  · cases h
  · cases h
    constructor
    all_goals simp only [ClosedTrade.feesUsdt, ClosedTrade.slippageUsdt]
    · exact quantize_net hgross quantizeProduct_isDecimal hexit quantizeProduct_isDecimal
        quantizeProduct_isDecimal quantizeProduct_isDecimal
    · exact hgross
    · exact quantizeProduct_isDecimal.add hexit
    · exact quantizeProduct_isDecimal.add quantizeProduct_isDecimal
    · exact quantizeProduct_isDecimal

theorem tradeOf_balanced {x : BacktestEvent} (h : x.change.position.Rounded)
    (ht : e.tradeOf x = some trade) : trade.Balanced := by
  rcases tradeOf_cases ht with ⟨pos, level, hx, ht⟩ | ⟨pos, price, reason, orderType, hx, rfl⟩
  · exact partialCloseTp_balanced ht
  · rw [hx] at h
    exact closePosition_balanced h price reason orderType

/-- Every trade of a backtest is balanced. -/
theorem run_balanced (h : (e.run candles provider start).1 = .ok trades) :
    ∀ trade ∈ trades, trade.Balanced := by
  obtain ⟨htrades, hr⟩ := events_trades h
  intro trade hm
  rw [htrades] at hm
  obtain ⟨x, hx, ht⟩ := List.mem_filterMap.mp hm
  exact tradeOf_balanced (events_rounded hr x hx) ht

end BacktestingEngine

end FuturesBot
