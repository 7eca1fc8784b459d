import FuturesBot.Lib.Loops
import FuturesBot.Risk.Engine

namespace FuturesBot
open Lib

/-- The gates of the block phase apart from the one on liquidation. The checks of
stop, target and slippage never block a decision of the schema. -/
structure OtherGatesClear (A : Arithmetic) (d : ModelDecision) (ctx : RiskContext)
    (config : AppConfig) : Prop where
  daily : (checkDailyDrawdown A ctx.dailyLossUsdt config.challenge.initialBalanceUsdt
    config.risk.maxDailyLossPercent).outcome ≠ .block
  total : (checkTotalDrawdown A ctx.totalLossUsdt config.challenge.initialBalanceUsdt
    config.risk.maxTotalLossPercent).outcome ≠ .block
  funding : (checkFundingGate d ctx.fundingRate config.fundingGate).outcome ≠ .block
  fee : (checkFeeGate ctx.feeEstimate config.risk.minNetRiskReward).outcome ≠ .block
  openPositions : (checkMaxOpenPositions d ctx.openPositionsCount
    config.trading.maxOpenPositions).outcome ≠ .block
  martingala : ∃ c, checkAntiMartingala d.marginUsdt ctx.lastTradePnlUsdt
    ctx.lastTradeMarginUsdt = .ok c ∧ c.outcome ≠ .block
  escalation : ∃ c, checkAntiLeverageEscalation d.leverage ctx.lastAccountTradePnlUsdt
    ctx.lastAccountTradeLeverage = .ok c ∧ c.outcome ≠ .block
  averaging : (checkAntiAveraging ctx.openPositionUnrealizedPnlUsdt).outcome ≠ .block

variable {A : Arithmetic}

theorem checkSlippageEstimate_pass (e : Option SlippageEstimate) :
    (checkSlippageEstimate e).outcome = .pass := by
  cases e <;> rfl

theorem blockChecks_ok (h : blockChecks A d ctx config = .ok checks) :
    ∃ liquidation martingala escalation,
      checkLiquidationSafety A d config.liquidationSafety = .ok liquidation ∧
      checkAntiMartingala d.marginUsdt ctx.lastTradePnlUsdt ctx.lastTradeMarginUsdt =
        .ok martingala ∧
      checkAntiLeverageEscalation d.leverage ctx.lastAccountTradePnlUsdt
        ctx.lastAccountTradeLeverage = .ok escalation ∧
      checks = [checkSlRequired d, checkTpOrExitPlan d,
        checkDailyDrawdown A ctx.dailyLossUsdt config.challenge.initialBalanceUsdt
          config.risk.maxDailyLossPercent,
        checkTotalDrawdown A ctx.totalLossUsdt config.challenge.initialBalanceUsdt
          config.risk.maxTotalLossPercent,
        liquidation, checkFundingGate d ctx.fundingRate config.fundingGate,
        checkFeeGate ctx.feeEstimate config.risk.minNetRiskReward,
        checkMaxOpenPositions d ctx.openPositionsCount config.trading.maxOpenPositions,
        martingala, escalation, checkAntiAveraging ctx.openPositionUnrealizedPnlUsdt,
        checkSlippageEstimate ctx.slippageEstimate] := by
  unfold blockChecks at h
  cases hl : checkLiquidationSafety A d config.liquidationSafety with
  | error e => simp [hl, bind, Except.bind] at h
  | ok liquidation =>
    cases hm : checkAntiMartingala d.marginUsdt ctx.lastTradePnlUsdt ctx.lastTradeMarginUsdt with
    | error e => simp [hl, hm, bind, Except.bind] at h
    | ok martingala =>
      cases he : checkAntiLeverageEscalation d.leverage ctx.lastAccountTradePnlUsdt
        ctx.lastAccountTradeLeverage with
      | error e => simp [hl, hm, he, bind, Except.bind] at h
      | ok escalation =>
        simp only [hl, hm, he, bind, Except.bind, pure, Except.pure] at h
        cases h
        exact ⟨liquidation, martingala, escalation, rfl, rfl, rfl, rfl⟩

theorem gatesClear_iff : GatesClear A d ctx config ↔
    (∃ c, checkLiquidationSafety A d config.liquidationSafety = .ok c ∧ c.outcome ≠ .block) ∧
    OtherGatesClear A d ctx config := by
  constructor
  · intro h
    obtain ⟨checks, hok, hclear⟩ := h
    obtain ⟨l, m, e, hl, hm, he, rfl⟩ := blockChecks_ok hok
    simp only [List.mem_cons, List.not_mem_nil, or_false, forall_eq_or_imp, forall_eq] at hclear
    obtain ⟨_, _, hd, ht, hlc, hf, hfee, ho, hmc, hec, ha, _⟩ := hclear
    exact ⟨⟨l, hl, hlc⟩, hd, ht, hf, hfee, ho, ⟨m, hm, hmc⟩, ⟨e, he, hec⟩, ha⟩
  · intro h
    obtain ⟨⟨l, hl, hlc⟩, hd, ht, hf, hfee, ho, ⟨m, hm, hmc⟩, ⟨e, he, hec⟩, ha⟩ := h
    simp only [GatesClear, blockChecks, hl, hm, he, bind, Except.bind, pure, Except.pure]
    refine ⟨_, rfl, ?_⟩
    simp only [List.mem_cons, List.not_mem_nil, or_false, forall_eq_or_imp, forall_eq]
    refine ⟨?_, ?_, hd, ht, hlc, hf, hfee, ho, hmc, hec, ha, ?_⟩
    · simp [checkSlRequired_pass]
    · simp [checkTpOrExitPlan_pass]
    · simp [checkSlippageEstimate_pass]

theorem checkDrawdown_pass
    (h : (checkDrawdown A rule a b c loss initial limit).outcome ≠ .block) :
    0 < initial ∧ lossPercent A loss initial < A.float limit := by
  rw [checkDrawdown_outcome] at h
  by_contra hn
  rw [if_neg hn] at h
  exact h rfl

/-- What an executable result stands for. -/
structure SoundlyApproved (d : ModelDecision) (ctx : RiskContext) (config : AppConfig)
    (r : RiskValidationResult) (p : AdjustedParameters) : Prop where
  params : r.adjustedParameters = some p
  margin : 0 < p.marginUsdt ∧ p.marginUsdt ≤ min d.marginUsdt config.risk.maxMarginPerTradeUsdt
  leverage : p.leverage ≤ min d.leverage (config.leverage.capForEnv config.environment)
  adjusted : r.decision = .adjustDown ↔ p.marginUsdt < d.marginUsdt ∨ p.leverage < d.leverage
  balance : 0 < config.challenge.initialBalanceUsdt
  daily : ctx.dailyLossUsdt / config.challenge.initialBalanceUsdt * 100 <
    config.risk.maxDailyLossPercent
  total : ctx.totalLossUsdt / config.challenge.initialBalanceUsdt * 100 <
    config.risk.maxTotalLossPercent
  openPositions : ∃ n, ctx.openPositionsCount = some n ∧ n < config.trading.maxOpenPositions
  funding : ∃ rate, ctx.fundingRate = some rate ∧
    adverseFunding d.decision rate < config.fundingGate.maxAdverseFundingRate
  fees : ∃ e, ctx.feeEstimate = some e ∧ config.risk.minNetRiskReward ≤ e.netRiskReward
  martingala : ∀ pnl ∈ ctx.lastTradePnlUsdt, ∀ m ∈ ctx.lastTradeMarginUsdt, pnl < 0 →
    d.marginUsdt ≤ m
  escalation : ∀ pnl ∈ ctx.lastAccountTradePnlUsdt, ∀ l ∈ ctx.lastAccountTradeLeverage, pnl < 0 →
    d.leverage ≤ l
  averaging : ∀ pnl ∈ ctx.openPositionUnrealizedPnlUsdt, 0 ≤ pnl

/-- A loss at its limit or over it, which is below it in the percent that is compared. -/
def RoundedBelow (lossUsdt initialBalanceUsdt maxLossPercent : Amount) : Prop :=
  maxLossPercent ≤ lossUsdt / initialBalanceUsdt * 100 ∧
    lossPercent .python lossUsdt initialBalanceUsdt < nearestFloat maxLossPercent

/-- One of the two losses is. -/
def LossUnderstated (ctx : RiskContext) (config : AppConfig) : Prop :=
  RoundedBelow ctx.dailyLossUsdt config.challenge.initialBalanceUsdt
      config.risk.maxDailyLossPercent ∨
    RoundedBelow ctx.totalLossUsdt config.challenge.initialBalanceUsdt
      config.risk.maxTotalLossPercent

/-- A trade that the gates let through is sound, unless they saw too small a loss. -/
theorem soundlyApproved (hf : config.fundingGate.enabled)
    (hu : config.fundingGate.blockIfFundingUnknown) (hx : d.execute)
    (hg : GatesClear .python d ctx config) (hp : Sized d config r p)
    (hloss : ¬LossUnderstated ctx config) : SoundlyApproved d ctx config r p := by
  obtain ⟨_, ho⟩ := gatesClear_iff.mp hg
  have hd := d.decision_of_execute hx
  obtain ⟨m, hm, hmc⟩ := ho.martingala
  obtain ⟨l, hl, hlc⟩ := ho.escalation
  have hdaily := checkDrawdown_pass ho.daily
  have htotal := checkDrawdown_pass ho.total
  rw [LossUnderstated, not_or] at hloss
  exact {
    params := hp.params
    margin := ⟨p.margin_range.1, hp.margin.le⟩
    leverage := hp.leverage.le
    adjusted := hp.adjusted
    balance := hdaily.1
    daily := not_le.mp fun hle => hloss.1 ⟨hle, hdaily.2⟩
    total := not_le.mp fun hle => hloss.2 ⟨hle, htotal.2⟩
    openPositions := checkMaxOpenPositions_pass hd ho.openPositions
    funding := checkFundingGate_pass hf hu hd ho.funding
    fees := checkFeeGate_pass ho.fee
    martingala := checkAntiMartingala_pass hm hmc
    escalation := checkAntiLeverageEscalation_pass hl hlc
    averaging := checkAntiAveraging_pass ho.averaging }

/-- No result that is not executable carries parameters. -/
theorem RiskValidationResult.params_eq_none (r : RiskValidationResult) (h : ¬r.decision.executable) :
    r.adjustedParameters = none := by
  have hc := r.valid.2.2.2.2.2.2.1
  rw [Bool.eq_false_iff.mpr h] at hc
  simpa using hc.symm

/-- What every result of the risk engine should say: an executable one passed each gate and carries
capped parameters, and any other carries none. -/
def SoundlyAnswered (d : ModelDecision) (ctx : RiskContext) (config : AppConfig)
    (r : RiskValidationResult) : Prop :=
  (r.decision.executable → ∃ p, SoundlyApproved d ctx config r p) ∧
    (¬r.decision.executable → r.adjustedParameters = none)

/-- The risk engine is sound but for a loss that the percents understate, in a trade that nothing
else stops. -/
theorem validate_sound_iff (hf : config.fundingGate.enabled)
    (hu : config.fundingGate.blockIfFundingUnknown) :
    (∀ r, validate d ctx config = .ok r → SoundlyAnswered d ctx config r) ↔
      ¬(LossUnderstated ctx config ∧ d.execute ∧ GatesClear .python d ctx config ∧
        Sizable ctx config) := by
  constructor
  · intro h hn
    obtain ⟨hloss, hx, hg, hs⟩ := hn
    obtain ⟨r, hr, he⟩ := validate_of_gatesClear hx hg hs
    obtain ⟨p, hp⟩ := (h r hr).1 he
    rcases hloss with hdaily | htotal
    · exact absurd hp.daily (not_lt.mpr hdaily.1)
    · exact absurd hp.total (not_lt.mpr htotal.1)
  · intro h r hr
    refine ⟨?_, r.params_eq_none⟩
    intro he
    obtain ⟨hx, hg, hs, p, hp⟩ := validate_executable hr he
    exact ⟨p, soundlyApproved hf hu hx hg hp fun hloss => h ⟨hloss, hx, hg, hs⟩⟩

/-- Of two contexts with the same clear gates, one is approved just as the other is. -/
theorem validate_congr (hg : GatesClear A d ctx config → GatesClear A d ctx' config)
    (hs : Sizable ctx config → Sizable ctx' config) (h : validateWith A d ctx config = .ok r)
    (he : r.decision.executable) :
    ∃ r', validateWith A d ctx' config = .ok r' ∧ r'.decision.executable ∧
      r'.adjustedParameters = r.adjustedParameters := by
  obtain ⟨hx, hc, hz, p, hp⟩ := validate_executable h he
  obtain ⟨r', h', he'⟩ := validate_of_gatesClear hx (hg hc) (hs hz)
  obtain ⟨_, _, _, p', hp'⟩ := validate_executable h' he'
  have hpp : p' = p := AdjustedParameters.ext (hp'.margin.trans hp.margin.symm)
    (hp'.leverage.trans hp.leverage.symm)
  exact ⟨r', h', he', by rw [hp'.params, hp.params, hpp]⟩

/-- A PnL that is not negative is to the gates what no position is. -/
theorem gatesClear_unaveraged (d : ModelDecision) (ctx : RiskContext) (config : AppConfig)
    (h : ∀ pnl ∈ ctx.openPositionUnrealizedPnlUsdt, 0 ≤ pnl) :
    GatesClear A d { ctx with openPositionUnrealizedPnlUsdt := none } config ↔
      GatesClear A d ctx config := by
  have hnone : (checkAntiAveraging none).outcome ≠ .block := by decide
  have hpass : (checkAntiAveraging ctx.openPositionUnrealizedPnlUsdt).outcome ≠ .block := by
    cases hp : ctx.openPositionUnrealizedPnlUsdt with
    | none => exact hnone
    | some pnl =>
      have hle : 0 ≤ pnl := h pnl hp
      simp [checkAntiAveraging, hle]
  rw [gatesClear_iff, gatesClear_iff]
  constructor
  · intro hboth
    obtain ⟨hl, ho⟩ := hboth
    exact ⟨hl, { ho with averaging := hpass }⟩
  · intro hboth
    obtain ⟨hl, ho⟩ := hboth
    exact ⟨hl, { ho with averaging := hnone }⟩

/-- A long that risks 5 to win 20, with its liquidation 20% away. -/
def sampleDecision : ModelDecision where
  decisionId := "decision"
  environment := .paper
  decision := .long
  symbol := "BTCUSDT"
  entryType := .market
  entryPrice := 100
  stopLoss := 95
  takeProfit := 120
  leverage := 5
  marginUsdt := 10
  netRiskReward := 2
  liquidationDistancePercentEstimated := 20
  positionManagementPlan :=
    { useTrailingStop := true, moveToBreakEven := true, partialClosePlan := "",
      maxTimeInTradeMinutes := 0 }
  execute := true
  valid := by decide +kernel

def sampleFees : FeeEstimate where
  entryFeeUsdt := 25 / 1000
  exitFeeAtTpUsdt := 30 / 1000
  exitFeeAtSlUsdt := 24 / 1000
  grossRiskReward := 4
  netRiskReward := 38 / 10
  entryRate := 5 / 10000
  exitRate := 5 / 10000

def sampleContext : RiskContext where
  dailyLossUsdt := 0
  totalLossUsdt := 0
  fundingRate := some 0
  openPositionsCount := some 0
  feeEstimate := some sampleFees

theorem validate_sound_sample : ∃ r p, validate sampleDecision sampleContext defaultConfig = .ok r ∧
    SoundlyApproved sampleDecision sampleContext defaultConfig r p := by
  have he : ((validate sampleDecision sampleContext defaultConfig).toOption.map
      (fun r => r.decision.executable)) = some true := by decide +kernel
  have hloss : ¬LossUnderstated sampleContext defaultConfig := by
    intro h
    rcases h with h | h
    · exact absurd h.1 (by decide +kernel)
    · exact absurd h.1 (by decide +kernel)
  obtain ⟨r, hv, he⟩ := ok_of_map he
  obtain ⟨p, hp⟩ := ((validate_sound_iff rfl rfl).mpr (fun h => hloss h.1) r hv).1 he
  exact ⟨r, p, hv, hp⟩

/-- A limit of 29% of the balance. -/
def limitedConfig : AppConfig :=
  { defaultConfig with
    risk := { defaultConfig.risk with maxDailyLossPercent := 29 } }

/-- 29 of the 100 are 28.999999999999996% of them. -/
theorem loss_at_limit_approved :
    ¬∀ d ctx config, config.fundingGate.enabled → config.fundingGate.blockIfFundingUnknown →
      ∀ r, validate d ctx config = .ok r → SoundlyAnswered d ctx config r := by
  intro h
  have he : ((validate sampleDecision { sampleContext with dailyLossUsdt := 29 }
      limitedConfig).toOption.map (fun r => r.decision.executable)) = some true := by
    decide +kernel
  obtain ⟨r, hv, he⟩ := ok_of_map he
  obtain ⟨p, hp⟩ := (h _ _ limitedConfig rfl rfl r hv).1 he
  exact absurd hp.daily (by decide +kernel)

end FuturesBot
