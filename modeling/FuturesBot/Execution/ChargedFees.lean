import FuturesBot.Execution.ApprovedMargin
import FuturesBot.Risk.FeeLaws

namespace FuturesBot
open Lib

theorem FeeModel.rates_taker {m : FeeModel} {r : FeeRates} (h : m.rates = .ok r) :
    r.taker = m.takerRate := by
  unfold FeeModel.rates at h
  split at h <;> cases h
  rfl

/-- The fee on what is filled stays within the one on what is approved, which is rounded up: in
units of the last decimal, it is less than half a unit above that. -/
def FeeCovers (takerRate approved filled : Amount) : Prop :=
  let due := ⌈approved * takerRate * 10 ^ quantPlaces⌉
  let excess := filled * takerRate * 10 ^ quantPlaces - due
  excess < 1 / 2 ∨ excess = 1 / 2 ∧ due % 2 = 0

theorem feeCovers_iff (h : 0 ≤ approved * takerRate) (filled : Amount) :
    quantize (filled * takerRate) ≤ costQuantize (approved * takerRate) ↔
      FeeCovers takerRate approved filled := by
  have hscaled : 0 ≤ approved * takerRate * 10 ^ quantPlaces := mul_nonneg h (by positivity)
  rw [costQuantize, quantizeWith, roundUp, if_pos hscaled]
  exact quantizeWith_le_iff _ _

namespace ExecutionEngine

variable {st : TradingState PaperAdapter}

/-- What a market entry is filled for is worth no more than was approved, or more by so little that
its fee is rounded to the projected one. -/
def FeeCoversFill (a : PaperAdapter) (d : ModelDecision) (p : AdjustedParameters)
    (estimate : Option SlippageEstimate) : Prop :=
  ∃ request fillPrice,
    buildOrderRequest d (computeQuantity p.marginUsdt p.leverage d) estimate = .ok request ∧
    PaperAdapter.fillPriceOf a.slip request d.entryPrice = .ok fillPrice ∧
    FeeCovers a.fee.takerRate (p.marginUsdt * p.leverage)
      (quantize (fillPrice * computeQuantity p.marginUsdt p.leverage d))

/-- The fee of a filled entry is within the projected one just when the projection covers the
fill. -/
theorem charged_fee_iff (hn : st.exchange.orders.get d.decisionId = none)
    (h : (executeApprovedPlan PaperAdapter.exchange s d r estimate st).2.exchange.orders.get
      d.decisionId = some result) (hf : result.status = .filled)
    (hr : r.adjustedParameters = some p) (hrates : st.exchange.fee.rates = .ok rates)
    (he : estimateFeesForDecision d p.marginUsdt p.leverage rates = .ok e) :
    result.feeUsdt ≤ e.entryFeeUsdt ↔ FeeCoversFill st.exchange d p estimate := by
  obtain ⟨request, x, -, hbuilt, hx, hmarket, hreference, hnew, hplaced⟩ :=
    executeApprovedPlan_filled hn h hf hr
  have hfields := OrderRequest.build_ok hbuilt
  obtain ⟨price, fillPrice, _, hpr, hfill, -, hresult, -⟩ :=
    PaperAdapter.placeOrder_filled hnew hmarket hplaced
  cases hpr.symm.trans hreference
  subst hx
  have hentry : d.entryType = .market := by
    by_contra hlimit
    rw [hfields] at hmarket
    simp [entryOrderType, hlimit] at hmarket
  have htaker := FeeModel.rates_taker hrates
  have hcharged : result.feeUsdt = quantize (quantize (fillPrice *
      computeQuantity p.marginUsdt p.leverage d) * st.exchange.fee.takerRate) := by
    rw [hresult]
    change PaperAdapter.feeOf st.exchange.fee request fillPrice = _
    rw [PaperAdapter.feeOf, hmarket, hfields]
    rfl
  have hprojected : e.entryFeeUsdt =
      costQuantize (p.marginUsdt * p.leverage * st.exchange.fee.takerRate) := by
    rw [estimateFees_entryFee he, exactEntryFee, entryRateOf, if_pos hentry, htaker]
  have hnonneg : 0 ≤ p.marginUsdt * p.leverage * st.exchange.fee.takerRate := by
    have hleverage : (0 : Amount) ≤ p.leverage := by
      exact_mod_cast (zero_le_one.trans p.leverage_range.1)
    exact mul_nonneg (mul_nonneg p.margin_range.1.le hleverage)
      (htaker ▸ rates.taker_range.1)
  rw [hcharged, hprojected, feeCovers_iff hnonneg]
  constructor
  · intro hcovers
    exact ⟨request, fillPrice, hbuilt, hfill, hcovers⟩
  · rintro ⟨request', fillPrice', hbuilt', hfill', hcovers⟩
    cases hbuilt.symm.trans hbuilt'
    cases hfill.symm.trans hfill'
    exact hcovers

/-- What the rates of an adapter project for the entry of the sample decision. -/
def projectedEntryFee (a : PaperAdapter) (p : AdjustedParameters) : Option Amount := do
  let rates ← a.fee.rates.toOption
  let e ← (estimateFeesForDecision sampleDecision p.marginUsdt p.leverage rates).toOption
  pure e.entryFeeUsdt

theorem projectedEntryFee_some (h : projectedEntryFee a p = some fee) :
    ∃ rates e, a.fee.rates = .ok rates ∧
      estimateFeesForDecision sampleDecision p.marginUsdt p.leverage rates = .ok e ∧
      e.entryFeeUsdt = fee := by
  unfold projectedEntryFee at h
  cases hrates : a.fee.rates with
  | error =>
    rw [hrates] at h
    cases h
  | ok rates =>
    cases he : estimateFeesForDecision sampleDecision p.marginUsdt p.leverage rates with
    | error =>
      rw [hrates, Except.toOption, Option.bind_eq_bind, Option.bind_some, he] at h
      cases h
    | ok e =>
      rw [hrates, Except.toOption, Option.bind_eq_bind, Option.bind_some, he] at h
      cases h
      exact ⟨rates, e, rfl, he, rfl⟩

theorem unslipped_sample_covered : ∃ r p, approvedSample = some r ∧ r.adjustedParameters = some p ∧
    FeeCoversFill { slip := { marketBps := 0 } } sampleDecision p none := by
  have he : approvedSample.any (fun r => r.adjustedParameters.any (fun p =>
      (unslippedSample r).exchange.orders.get "decision" |>.any (fun result =>
        projectedEntryFee { slip := { marketBps := 0 } } p |>.any (fun fee =>
          result.status = .filled ∧ result.feeUsdt ≤ fee)))) = true := by
    decide +kernel
  obtain ⟨r, hr, he⟩ := (Option.any_eq_true _ _).mp he
  obtain ⟨p, hp, he⟩ := (Option.any_eq_true _ _).mp he
  obtain ⟨result, hresult, he⟩ := (Option.any_eq_true _ _).mp he
  obtain ⟨fee, hfee, he⟩ := (Option.any_eq_true _ _).mp he
  obtain ⟨hfilled, hcharged⟩ := of_decide_eq_true he
  obtain ⟨rates, e, hrates, hestimate, rfl⟩ := projectedEntryFee_some hfee
  exact ⟨r, p, hr, hp,
    (charged_fee_iff (by decide) hresult hfilled hp hrates hestimate).mp hcharged⟩

/-- Half a unit at 100 is projected to cost 0.025. Its fill at 100.02 is charged 0.025005. -/
theorem charged_above_projection :
    ¬∀ (d : ModelDecision) (r : RiskValidationResult) (ctx : RiskContext) (config : AppConfig)
      (s : ExecutionSettings) (estimate : Option SlippageEstimate) (st : TradingState PaperAdapter)
      (result : OrderResult) (p : AdjustedParameters) (rates : FeeRates) (e : FeeEstimate),
      validate d ctx config = .ok r → r.decision.executable → r.adjustedParameters = some p →
      d.entryType = .market → st.exchange.orders.get d.decisionId = none →
      (executeApprovedPlan PaperAdapter.exchange s d r estimate st).2.exchange.orders.get
        d.decisionId = some result → result.status = .filled →
      st.exchange.fee.rates = .ok rates →
      estimateFeesForDecision d p.marginUsdt p.leverage rates = .ok e →
      result.feeUsdt ≤ e.entryFeeUsdt := by
  intro h
  have he : approvedSample.any (fun r => r.decision.executable && r.adjustedParameters.any (fun p =>
      (sampleEntry 2 r).exchange.orders.get "decision" |>.any (fun result =>
        projectedEntryFee (idleWithAtr 2).exchange p |>.any (fun fee =>
          result.status = .filled ∧ fee < result.feeUsdt)))) = true := by
    decide +kernel
  obtain ⟨r, hr, he⟩ := (Option.any_eq_true _ _).mp he
  obtain ⟨hx, he⟩ := Bool.and_eq_true_iff.mp he
  obtain ⟨p, hp, he⟩ := (Option.any_eq_true _ _).mp he
  obtain ⟨result, hresult, he⟩ := (Option.any_eq_true _ _).mp he
  obtain ⟨fee, hfee, he⟩ := (Option.any_eq_true _ _).mp he
  obtain ⟨hfilled, habove⟩ := of_decide_eq_true he
  obtain ⟨rates, e, hrates, hestimate, rfl⟩ := projectedEntryFee_some hfee
  cases hv : validate sampleDecision sampleContext defaultConfig with
  | error e =>
    rw [approvedSample, hv] at hr
    cases hr
  | ok r' =>
    rw [approvedSample, hv] at hr
    cases hr
    have hbounded := h sampleDecision r _ _ paperSettings none (idleWithAtr 2) result p rates e
      hv hx hp rfl (by decide) hresult hfilled hrates hestimate
    exact absurd hbounded (not_le.mpr habove)

end ExecutionEngine

end FuturesBot
