import FuturesBot.Decision.Schemas

namespace FuturesBot
open Lib

/-- The risk/reward is kept to four decimals, always rounded down. -/
def rrQuantize (x : Amount) : Amount := quantizeWith Int.floor 4 x

/-- Projected costs are rounded away from zero. -/
def costQuantize (x : Amount) : Amount := quantizeWith roundUp quantPlaces x

structure FeeEstimate where
  entryFeeUsdt : Amount
  exitFeeAtTpUsdt : Amount
  exitFeeAtSlUsdt : Amount
  grossRiskReward : Amount
  netRiskReward : Amount
  entryRate : Amount
  exitRate : Amount

def rewardPerUnit (side : DecisionType) (entryPrice takeProfit : Amount) : Amount :=
  if side = .long then takeProfit - entryPrice else entryPrice - takeProfit

def riskPerUnit (side : DecisionType) (entryPrice stopLoss : Amount) : Amount :=
  if side = .long then entryPrice - stopLoss else stopLoss - entryPrice

/-- The exit is always a taker fill; the entry only as a market order. -/
def estimateFees (side : DecisionType) (entryType : EntryType)
    (notionalUsdt entryPrice stopLoss takeProfit : Amount) (rates : FeeRates) :
    Except PyError FeeEstimate :=
  if side = .noOperar then .error (.valueError "side debe ser LONG o SHORT")
  else if entryType = .noEntry then .error (.valueError "entry_type debe ser MARKET o LIMIT")
  else if notionalUsdt ≤ 0 then .error (.valueError "notional_usdt debe ser > 0")
  else if entryPrice ≤ 0 ∨ stopLoss ≤ 0 ∨ takeProfit ≤ 0 then
    .error (.valueError "precios deben ser > 0")
  else if rewardPerUnit side entryPrice takeProfit ≤ 0 ∨ riskPerUnit side entryPrice stopLoss ≤ 0
    then .error (.valueError "SL/TP incoherentes")
  else
    let reward := rewardPerUnit side entryPrice takeProfit
    let risk := riskPerUnit side entryPrice stopLoss
    let entryRate := if entryType = .market then rates.taker else rates.maker
    let exitRate := rates.taker
    let quantity := notionalUsdt / entryPrice
    let netReward := reward - entryPrice * entryRate - takeProfit * exitRate
    let netRisk := risk + entryPrice * entryRate + stopLoss * exitRate
    .ok
      { entryFeeUsdt := costQuantize (notionalUsdt * entryRate)
        exitFeeAtTpUsdt := costQuantize (quantity * takeProfit * exitRate)
        exitFeeAtSlUsdt := costQuantize (quantity * stopLoss * exitRate)
        grossRiskReward := rrQuantize (reward / risk)
        netRiskReward := rrQuantize (netReward / netRisk)
        entryRate := entryRate
        exitRate := exitRate }

def estimateFeesForDecision (d : ModelDecision) (marginUsdt : Amount) (leverage : ℤ)
    (rates : FeeRates) : Except PyError FeeEstimate :=
  estimateFees d.decision d.entryType (marginUsdt * leverage) d.entryPrice d.stopLoss d.takeProfit
    rates

/-- Whether the decision describes an order at all. -/
def isEstimable (d : ModelDecision) : Bool := d.execute && d.entryType ≠ .noEntry

structure SlippageEstimate where
  estimatedSlippageUsdt : Amount
  halfSpreadUsdt : Amount
  impactUsdt : Amount
  expectedFillPrice : Amount
  bid : Amount
  ask : Amount

def entrySide (d : ModelDecision) : OrderSide := if d.decision = .long then .buy else .sell

def entryOrderType (d : ModelDecision) : OrderType := if d.entryType = .market then .market else .limit

def estimateSlippage (side : OrderSide) (orderType : OrderType)
    (notionalUsdt bid ask referencePrice marketImpactBps : Amount) :
    Except PyError SlippageEstimate :=
  if notionalUsdt ≤ 0 then .error (.valueError "notional_usdt debe ser > 0")
  else if bid ≤ 0 ∨ ask ≤ 0 then .error (.valueError "bid y ask deben ser > 0")
  else if ask ≤ bid then .error (.valueError "bid debe ser menor que ask")
  else if referencePrice ≤ 0 then .error (.valueError "reference_price debe ser > 0")
  else if marketImpactBps < 0 then .error (.valueError "market_impact_bps debe ser >= 0")
  else if orderType ≠ .market then
    .ok { estimatedSlippageUsdt := 0, halfSpreadUsdt := 0, impactUsdt := 0,
          expectedFillPrice := quantize referencePrice, bid := bid, ask := ask }
  else match halfSpread bid ask with
    | .error e => .error e
    | .ok half =>
      let quantity := notionalUsdt / referencePrice
      let impact := referencePrice * marketImpactBps / basisPoints
      let adverse := half + impact
      let fill := match side with
        | .buy => referencePrice + adverse
        | .sell => referencePrice - adverse
      .ok { estimatedSlippageUsdt := quantize (adverse * quantity)
            halfSpreadUsdt := quantize (half * quantity)
            impactUsdt := quantize (impact * quantity)
            expectedFillPrice := quantize fill, bid := bid, ask := ask }

/-- The book of a snapshot, as far as the estimate reads it. -/
structure SnapshotBook where
  symbol : Symbol
  bid : Amount
  ask : Amount

def estimateForDecision (snapshot : SnapshotBook) (d : ModelDecision) (marginUsdt : Amount)
    (leverage : ℤ) (marketImpactBps : Amount) : Except PyError SlippageEstimate :=
  if ¬isEstimable d then .error (.valueError "la decisión no describe una orden estimable")
  else if snapshot.symbol ≠ d.symbol then
    .error (.valueError "el snapshot es de otro símbolo")
  else
    estimateSlippage (entrySide d) (entryOrderType d) (marginUsdt * leverage) snapshot.bid
      snapshot.ask d.entryPrice marketImpactBps

/-- A decision to trade that enters with an order always has a fee estimate. -/
theorem estimateFeesForDecision_total (d : ModelDecision) (h : isEstimable d)
    (hm : 0 < marginUsdt) (hl : 1 ≤ leverage) (rates : FeeRates) :
    ∃ e, estimateFeesForDecision d marginUsdt leverage rates = .ok e := by
  simp only [isEstimable, Bool.and_eq_true, decide_eq_true_eq] at h
  obtain ⟨he, ht⟩ := h
  have hd := d.decision_of_execute he
  obtain ⟨hs, hp, _⟩ := d.protected_of_execute he
  have hentry := d.entryPrice_pos he
  have hlev : (0 : ℚ) < leverage := by exact_mod_cast hl
  have hn : 0 < marginUsdt * leverage := mul_pos hm hlev
  have hc := d.valid.2.2.2.2.2.2 he
  have hdist : 0 < rewardPerUnit d.decision d.entryPrice d.takeProfit ∧
      0 < riskPerUnit d.decision d.entryPrice d.stopLoss := by
    unfold ModelDecisionFields.SlTpCoherent at hc
    unfold rewardPerUnit riskPerUnit
    cases hk : d.decision with
    | long =>
      simp only [hk] at hc
      exact ⟨sub_pos.mpr hc.2, sub_pos.mpr hc.1⟩
    | short =>
      simp only [hk] at hc
      exact ⟨sub_pos.mpr hc.2, sub_pos.mpr hc.1⟩
    | noOperar => exact absurd hk hd
  unfold estimateFeesForDecision estimateFees
  rw [if_neg hd, if_neg ht, if_neg (not_le.mpr hn),
    if_neg (by simp [hentry, hs, hp]), if_neg (by simp [hdist.1, hdist.2])]
  exact ⟨_, rfl⟩

end FuturesBot
