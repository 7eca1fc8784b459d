import FuturesBot.Exchange.Conservation
import FuturesBot.Execution.Identity

namespace FuturesBot
open Lib ExecutionEngine

namespace PaperAdapter

/-- The margin of the position of a symbol on one of the sides. -/
def marginOn (a : PaperAdapter) (symbol : Symbol) (side : OrderSide) : Amount :=
  match a.positions.get symbol with
  | none => 0
  | some p => if p.side = side then p.marginUsdt else 0

/-- What has been booked for a symbol on a side. -/
def bookedMargin (symbol : Symbol) (side : OrderSide) (a a' : PaperAdapter) : Amount :=
  a'.marginOn symbol side - a.marginOn symbol side

/-- An opening fill books its notional over the leverage of the symbol. -/
theorem bookedMargin_fill {a a' : PaperAdapter} (hn : a.orders.get request.clientOrderId = none)
    (hm : request.orderType = .market) (hr : request.isReduceOnly = false)
    (h : placeOrder request a = (.ok result, a')) :
    ∃ price fillPrice, request.price = some price ∧
      fillPriceOf a.slip request price = .ok fillPrice ∧
      bookedMargin request.symbol request.side a a' =
        fillPrice * request.quantity / a.leverageOf request.symbol := by
  obtain ⟨price, fillPrice, a₁, hp, hf, hmv, -, rfl⟩ := placeOrder_filled hn hm h
  rw [moved, if_neg (by simp [hr])] at hmv
  obtain ⟨p', hp', rfl⟩ := openOrNetPosition_ok hmv
  have hnew : p'.toPositionStateFields = newPosition request fillPrice a := hp'
  refine ⟨price, fillPrice, hp, hf, ?_⟩
  unfold newPosition at hnew
  simp only [bookedMargin, marginOn, Dict.get_set_self]
  cases hpos : a.positions.get request.symbol with
  | none =>
    simp only [hpos] at hnew
    simp [hnew]
  | some p =>
    simp only [hpos] at hnew
    by_cases hs : p.side ≠ request.side
    · rw [if_pos hs] at hnew
      simp [hnew, hs]
    · rw [if_neg hs] at hnew
      simp [hnew, not_not.mp hs]

/-- An order that is filled, and was not known before, is a market order. -/
theorem placeOrder_market_of_filled {a a' : PaperAdapter}
    (hn : a.orders.get request.clientOrderId = none)
    (h : placeOrder request a = (.ok result, a')) (hf : result.status = .filled) :
    request.orderType = .market := by
  unfold placeOrder at h
  rw [hn] at h
  by_contra hm
  dsimp only at h
  rw [if_neg hm] at h
  split at h
  · cases h
  · rename_i hreg
    cases h
    obtain ⟨hb, -⟩ := Prod.mk.inj hreg
    have hfields := OrderResult.build_ok hb
    rw [hfields] at hf
    cases hf

end PaperAdapter

namespace ExecutionEngine

variable {st : TradingState PaperAdapter}

/-- The two settings of a symbol change its leverage and nothing else. -/
theorem prepareOrder_paper {a x : PaperAdapter}
    (h : prepareOrder PaperAdapter.exchange d p estimate a = (.ok request, x)) :
    x = { a with leverage := a.leverage.set d.symbol p.leverage } := by
  simp only [prepareOrder, PaperAdapter.exchange, PaperAdapter.setMarginType,
    PaperAdapter.setLeverage] at h
  split at h
  · cases h
  · rename_i hmargin
    split at hmargin
    · cases hmargin
    · cases hmargin
      split at h
      · cases h
      · rename_i hleverage
        split at hleverage
        · cases hleverage
        · cases hleverage
          exact (congrArg Prod.snd h).symm

theorem admitPlan_price (h : admitPlan d r atr = .ok (adjusted, atr1h)) : 0 < d.entryPrice := by
  unfold admitPlan at h
  split at h
  · cases h
  split at h
  · cases h
  split at h
  · cases h
  split at h
  · cases h
  · rename_i hprice
    exact lt_of_not_ge hprice

/-- An order that the adapter knows only after the call is the one that was sent. -/
theorem executeApprovedPlan_placed (hn : st.exchange.orders.get d.decisionId = none)
    (h : (executeApprovedPlan PaperAdapter.exchange s d r estimate st).2.exchange.orders.get
      d.decisionId = some result) :
    ∃ p request x, r.adjustedParameters = some p ∧ 0 < d.entryPrice ∧
      prepareOrder PaperAdapter.exchange d p estimate st.exchange = (.ok request, x) ∧
      PaperAdapter.placeOrder request x = (.ok result,
        (executeApprovedPlan PaperAdapter.exchange s d r estimate st).2.exchange) := by
  unfold executeApprovedPlan at h ⊢
  split at h
  · rw [hn] at h
    cases h
  split at h
  · rw [hn] at h
    cases h
  rename_i p atr1h hplan
  have hprepared : (prepareOrder PaperAdapter.exchange d p estimate st.exchange).2.orders.get =
      st.exchange.orders.get :=
    prepareOrder_known PaperAdapter.exchange_remembersOrders d p estimate st.exchange
  rcases hp : prepareOrder PaperAdapter.exchange d p estimate st.exchange with ⟨e | request, x⟩
  · simp only [hp] at h hprepared
    rw [hprepared, hn] at h
    cases h
  rw [hp] at hprepared
  have hid : request.clientOrderId = d.decisionId :=
    (buildOrderRequest_terms (prepareOrder_built hp)).1
  have hx : x.orders.get d.decisionId = none := by
    rw [hprepared, hn]
  have hplace : PaperAdapter.exchange.placeOrder request x = PaperAdapter.placeOrder request x :=
    rfl
  refine ⟨p, request, x, (admitPlan_ok hplan).2.2, admitPlan_price hplan, hp, ?_⟩
  simp only [hp, hplace] at h ⊢
  rcases ho : PaperAdapter.placeOrder request x with ⟨e | answer, x'⟩
  all_goals simp only [ho, recordEntry_exchange] at h ⊢
  all_goals rcases PaperAdapter.placeOrder_recorded request x with hsame | ⟨_, _, hok, hnew⟩
  · rw [ho, hid, hx] at hsame
    rw [hsame] at h
    cases h
  · rw [ho] at hok
    cases hok
  · rw [ho, hid, hx] at hsame
    rw [hsame] at h
    cases h
  · rw [ho] at hok
    cases hok
    rw [← hid, hnew] at h
    cases h
    rfl

/-- A filled entry is a market order at the price of the decision, which the adapter met under the
leverage of the plan. -/
theorem executeApprovedPlan_filled (hn : st.exchange.orders.get d.decisionId = none)
    (h : (executeApprovedPlan PaperAdapter.exchange s d r estimate st).2.exchange.orders.get
      d.decisionId = some result) (hf : result.status = .filled)
    (hr : r.adjustedParameters = some p) :
    ∃ request x, 0 < d.entryPrice ∧
      buildOrderRequest d (computeQuantity p.marginUsdt p.leverage d) estimate = .ok request ∧
      x = { st.exchange with leverage := st.exchange.leverage.set d.symbol p.leverage } ∧
      request.orderType = .market ∧ request.price = some d.entryPrice ∧
      x.orders.get request.clientOrderId = none ∧
      PaperAdapter.placeOrder request x = (.ok result,
        (executeApprovedPlan PaperAdapter.exchange s d r estimate st).2.exchange) := by
  obtain ⟨p', request, x, hr', hprice, hp, hplaced⟩ := executeApprovedPlan_placed hn h
  have hparams : p' = p := Option.some.inj (hr'.symm.trans hr)
  subst hparams
  have hbuilt := prepareOrder_built hp
  have hfields := OrderRequest.build_ok hbuilt
  have hx := prepareOrder_paper hp
  have hnew : x.orders.get request.clientOrderId = none := by
    rw [hx, hfields]
    exact hn
  refine ⟨request, x, hprice, hbuilt, hx, ?_, by rw [hfields], hnew, hplaced⟩
  exact PaperAdapter.placeOrder_market_of_filled hnew hplaced hf

/-- The margin pays for the quantity at the price of the simulated fill too: that price is not
above the one that the quantity was computed with, or above it by so little that the margin
still buys as many units. -/
def PaysForFill (slip : SlippageModel) (d : ModelDecision) (p : AdjustedParameters)
    (estimate : Option SlippageEstimate) : Prop :=
  ∃ request fillPrice,
    buildOrderRequest d (computeQuantity p.marginUsdt p.leverage d) estimate = .ok request ∧
    PaperAdapter.fillPriceOf slip request d.entryPrice = .ok fillPrice ∧
    (fillPrice ≤ d.entryPrice ∨ computeQuantity p.marginUsdt p.leverage d ≤
      quantizeWith roundDown quantPlaces (p.marginUsdt * p.leverage / fillPrice))

/-- A sell is filled at most at its price, when that price has no more decimals than the
simulation: only the buys can cost more than what they were approved for. -/
theorem fillPriceOf_sell {request : OrderRequest} (hs : request.side = .sell)
    (hb : 0 ≤ slip.marketBps) (hd : IsDecimal quantPlaces price) (hp : 0 ≤ price)
    (h : PaperAdapter.fillPriceOf slip request price = .ok fillPrice) : fillPrice ≤ price := by
  have hfactor : 0 ≤ price * (slip.marketBps / basisPoints) :=
    mul_nonneg hp (div_nonneg hb (by norm_num [basisPoints]))
  have happly : slip.apply price request.side request.orderType.modelType ≤ price := by
    unfold SlippageModel.apply
    rw [hs]
    split
    · exact quantize_le hd le_rfl
    all_goals exact quantize_le hd (by linarith)
  unfold PaperAdapter.fillPriceOf PaperAdapter.crossSpread at h
  split at h
  · rename_i bid ask _ _
    rcases hspread : halfSpread bid ask with e | spread
    · rw [hspread] at h
      cases h
    · rw [hspread, hs] at h
      rw [hs] at happly
      cases h
      unfold halfSpread at hspread
      split at hspread
      · cases hspread
      split at hspread
      · cases hspread
      rename_i hask
      cases hspread
      exact quantize_le hd (by linarith)
  · cases h
    exact happly

/-- A quantity that is rounded down at one price, and paid for at another. -/
theorem paid_within_iff {margin leverage price : Amount} (hm : 0 ≤ margin) (hl : 0 < leverage)
    (hp : 0 < price) (fillPrice : Amount) :
    fillPrice * quantizeWith roundDown quantPlaces (margin * leverage / price) / leverage ≤ margin ↔
      (fillPrice ≤ price ∨ quantizeWith roundDown quantPlaces (margin * leverage / price) ≤
        quantizeWith roundDown quantPlaces (margin * leverage / fillPrice)) := by
  have hnotional : 0 ≤ margin * leverage := mul_nonneg hm hl.le
  have hunits : 0 ≤ margin * leverage / price := div_nonneg hnotional hp.le
  rw [div_le_iff₀ hl]
  by_cases hf : fillPrice ≤ price
  · refine iff_of_true ?_ (.inl hf)
    have hquantity : 0 ≤ quantizeWith roundDown quantPlaces (margin * leverage / price) :=
      quantizeWith_nonneg (fun _ => roundDown_nonneg) hunits
    have hdown : quantizeWith roundDown quantPlaces (margin * leverage / price) ≤
        margin * leverage / price := (quantizeWith_roundDown_le_iff hunits hunits).mpr le_rfl
    calc fillPrice * quantizeWith roundDown quantPlaces (margin * leverage / price)
      _ ≤ price * quantizeWith roundDown quantPlaces (margin * leverage / price) :=
        mul_le_mul_of_nonneg_right hf hquantity
      _ ≤ margin * leverage := (le_div_iff₀' hp).mp hdown
  · have hfp : 0 < fillPrice := hp.trans (lt_of_not_ge hf)
    rw [← le_div_iff₀' hfp, quantizeWith_roundDown_le_iff hunits (div_nonneg hnotional hfp.le)]
    exact (or_iff_right hf).symm

/-- The margin that the adapter books for a filled entry is within the approved one just when
the approved one pays for the fill. -/
theorem approved_margin_iff (hn : st.exchange.orders.get d.decisionId = none)
    (h : (executeApprovedPlan PaperAdapter.exchange s d r estimate st).2.exchange.orders.get
      d.decisionId = some result) (hf : result.status = .filled)
    (hr : r.adjustedParameters = some p) :
    PaperAdapter.bookedMargin d.symbol (entrySide d) st.exchange
        (executeApprovedPlan PaperAdapter.exchange s d r estimate st).2.exchange ≤ p.marginUsdt ↔
      PaysForFill st.exchange.slip d p estimate := by
  obtain ⟨request, x, hprice, hbuilt, hx, hmarket, hreference, hnew, hplaced⟩ :=
    executeApprovedPlan_filled hn h hf hr
  have hfields := OrderRequest.build_ok hbuilt
  obtain ⟨price, fillPrice, hpr, hfill, hbooked⟩ :=
    PaperAdapter.bookedMargin_fill hnew hmarket (by rw [hfields]) hplaced
  cases hpr.symm.trans hreference
  subst hx
  have hleverage : PaperAdapter.leverageOf
      { st.exchange with leverage := st.exchange.leverage.set d.symbol p.leverage } d.symbol =
        p.leverage := by
    simp [PaperAdapter.leverageOf]
  have hbooked' : PaperAdapter.bookedMargin d.symbol (entrySide d) st.exchange
      (executeApprovedPlan PaperAdapter.exchange s d r estimate st).2.exchange =
        fillPrice * computeQuantity p.marginUsdt p.leverage d / p.leverage := by
    rw [hfields, hleverage] at hbooked
    exact hbooked
  have hpos : (0 : Amount) < p.leverage := by exact_mod_cast p.leverage_range.1
  rw [hbooked', computeQuantity, paid_within_iff p.margin_range.1.le hpos hprice fillPrice]
  constructor
  · intro hpays
    exact ⟨request, fillPrice, hbuilt, hfill, hpays⟩
  · rintro ⟨request', fillPrice', hbuilt', hfill', hpays⟩
    cases hbuilt.symm.trans hbuilt'
    cases hfill.symm.trans hfill'
    exact hpays

/-- The sample decision, approved and executed by an idle bot whose fills do not slip. -/
def unslippedSample (r : RiskValidationResult) : TradingState PaperAdapter :=
  (executeApprovedPlan PaperAdapter.exchange paperSettings sampleDecision r none
    { idleWithAtr 2 with exchange := { slip := { marketBps := 0 } } }).2

theorem unslipped_sample_paid : ∃ r p, approvedSample = some r ∧ r.adjustedParameters = some p ∧
    PaysForFill { marketBps := 0 } sampleDecision p none := by
  have he : approvedSample.any (fun r => r.adjustedParameters.any (fun p =>
      (unslippedSample r).exchange.orders.get "decision" |>.any (fun result =>
        result.status = .filled ∧ PaperAdapter.bookedMargin "BTCUSDT" .buy
          { slip := { marketBps := 0 } } (unslippedSample r).exchange ≤ p.marginUsdt))) = true := by
    decide +kernel
  obtain ⟨r, hr, he⟩ := (Option.any_eq_true _ _).mp he
  obtain ⟨p, hp, he⟩ := (Option.any_eq_true _ _).mp he
  obtain ⟨result, hresult, he⟩ := (Option.any_eq_true _ _).mp he
  obtain ⟨hfilled, hbooked⟩ := of_decide_eq_true he
  exact ⟨r, p, hr, hp, (approved_margin_iff (by decide) hresult hfilled hp).mp hbooked⟩

/-- Half a unit at 100 takes the whole of an approved margin of 10 at leverage 5. Its fill at
100.02 books 10.002. -/
theorem bought_above_approval :
    ¬∀ (d : ModelDecision) (r : RiskValidationResult) (ctx : RiskContext) (config : AppConfig)
      (s : ExecutionSettings) (estimate : Option SlippageEstimate) (st : TradingState PaperAdapter)
      (result : OrderResult) (p : AdjustedParameters),
      validate d ctx config = .ok r → r.decision.executable → r.adjustedParameters = some p →
      st.exchange.orders.get d.decisionId = none →
      (executeApprovedPlan PaperAdapter.exchange s d r estimate st).2.exchange.orders.get
        d.decisionId = some result → result.status = .filled →
      PaperAdapter.bookedMargin d.symbol (entrySide d) st.exchange
        (executeApprovedPlan PaperAdapter.exchange s d r estimate st).2.exchange ≤
          p.marginUsdt := by
  intro h
  have he : approvedSample.any (fun r => r.decision.executable && r.adjustedParameters.any (fun p =>
      (sampleEntry 2 r).exchange.orders.get "decision" |>.any (fun result =>
        result.status = .filled ∧ p.marginUsdt < PaperAdapter.bookedMargin "BTCUSDT" .buy
          (idleWithAtr 2).exchange (sampleEntry 2 r).exchange))) = true := by
    decide +kernel
  obtain ⟨r, hr, he⟩ := (Option.any_eq_true _ _).mp he
  obtain ⟨hx, he⟩ := Bool.and_eq_true_iff.mp he
  obtain ⟨p, hp, he⟩ := (Option.any_eq_true _ _).mp he
  obtain ⟨result, hresult, he⟩ := (Option.any_eq_true _ _).mp he
  obtain ⟨hfilled, habove⟩ := of_decide_eq_true he
  cases hv : validate sampleDecision sampleContext defaultConfig with
  | error e =>
    rw [approvedSample, hv] at hr
    cases hr
  | ok r' =>
    rw [approvedSample, hv] at hr
    cases hr
    exact absurd (h sampleDecision r _ _ paperSettings none (idleWithAtr 2) result p hv hx hp
      (by decide) hresult hfilled) (not_le.mpr habove)

end ExecutionEngine

end FuturesBot
