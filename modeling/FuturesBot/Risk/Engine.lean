import FuturesBot.Risk.Checks
import FuturesBot.Lib.Dict

namespace FuturesBot
open Lib

inductive RiskDecision
  | approve | adjustDown | block | noOperar
  deriving DecidableEq, Repr

/-- `EXECUTABLE_RISK_DECISIONS`. -/
def RiskDecision.executable : RiskDecision → Bool
  | .approve | .adjustDown => true
  | .block | .noOperar => false

def maxMarginUsdt : Amount := 10

structure AdjustedParameters where
  marginUsdt : Amount
  leverage : ℤ
  margin_range : 0 < marginUsdt ∧ marginUsdt ≤ maxMarginUsdt
  leverage_range : 1 ≤ leverage ∧ leverage ≤ 10

theorem AdjustedParameters.ext {p p' : AdjustedParameters} (hm : p.marginUsdt = p'.marginUsdt)
    (hl : p.leverage = p'.leverage) : p = p' := by
  cases p
  cases p'
  congr

def AdjustedParameters.build (marginUsdt : Amount) (leverage : ℤ) :
    Except PyError AdjustedParameters :=
  if h : (0 < marginUsdt ∧ marginUsdt ≤ maxMarginUsdt) ∧ (1 ≤ leverage ∧ leverage ≤ 10) then
    .ok ⟨marginUsdt, leverage, h.1, h.2⟩
  else .error (.validationError "AdjustedParameters")

structure RiskValidationFields where
  symbol : Symbol
  decision : RiskDecision
  originalMarginUsdt : Amount
  originalLeverage : ℤ
  adjustedParameters : Option AdjustedParameters := none
  dailyLossAtCheckUsdt : Option Amount := none
  totalLossAtCheckUsdt : Option Amount := none
  reasons : List (String × String)

namespace RiskValidationFields

/-- Only the two executable decisions carry parameters, and an adjustment must
have reduced something. -/
def AdjustedCoherent (f : RiskValidationFields) : Prop :=
  (f.decision.executable = f.adjustedParameters.isSome) ∧
  (f.decision ≠ .noOperar → 0 < f.originalMarginUsdt) ∧
  (f.decision = .adjustDown → ∀ p ∈ f.adjustedParameters,
    p.marginUsdt < f.originalMarginUsdt ∨ p.leverage < f.originalLeverage)

def Valid (f : RiskValidationFields) : Prop :=
  (0 ≤ f.originalMarginUsdt ∧ f.originalMarginUsdt ≤ maxMarginUsdt) ∧
  (1 ≤ f.originalLeverage ∧ f.originalLeverage ≤ 10) ∧
  (∀ l ∈ f.dailyLossAtCheckUsdt, 0 ≤ l) ∧ (∀ l ∈ f.totalLossAtCheckUsdt, 0 ≤ l) ∧
  f.reasons ≠ [] ∧ f.symbol ∈ allowedSymbols ∧ f.AdjustedCoherent

instance (f : RiskValidationFields) : Decidable f.AdjustedCoherent :=
  inferInstanceAs (Decidable (_ ∧ _))

instance (f : RiskValidationFields) : Decidable f.Valid :=
  inferInstanceAs (Decidable (_ ∧ _))

end RiskValidationFields

structure RiskValidationResult extends RiskValidationFields where
  valid : toRiskValidationFields.Valid

def RiskValidationResult.build (f : RiskValidationFields) : Except PyError RiskValidationResult :=
  if h : f.Valid then .ok ⟨f, h⟩ else .error (.validationError "RiskValidationResult")

theorem RiskValidationResult.build_ok (h : RiskValidationResult.build f = .ok r) :
    r.toRiskValidationFields = f ∧ f.Valid := by
  unfold RiskValidationResult.build at h
  split at h <;> cases h
  exact ⟨rfl, by assumption⟩

/-- What the cycle knows besides the decision and the configuration. -/
structure RiskContext where
  dailyLossUsdt : Amount
  totalLossUsdt : Amount
  lastTradePnlUsdt : Option Amount := none
  lastTradeMarginUsdt : Option Amount := none
  openPositionUnrealizedPnlUsdt : Option Amount := none
  fundingRate : Option Amount
  openPositionsCount : Option ℤ
  feeEstimate : Option FeeEstimate
  slippageEstimate : Option SlippageEstimate := none
  lastAccountTradePnlUsdt : Option Amount := none
  lastAccountTradeLeverage : Option ℤ := none

def computeAdjustedMargin (original maxMargin : Amount) : Amount := min original maxMargin

def computeAdjustedLeverage (original : ℤ) (config : AppConfig) (environment : Environment) : ℤ :=
  min original (config.leverage.capForEnv environment)

/-- The checks of the block phase, in their order; three of them may raise. -/
def blockChecks (A : Arithmetic) (d : ModelDecision) (ctx : RiskContext) (config : AppConfig) :
    Except PyError (List CheckResult) := do
  let initialBalance := config.challenge.initialBalanceUsdt
  let liquidation ← checkLiquidationSafety A d config.liquidationSafety
  let martingala ← checkAntiMartingala d.marginUsdt ctx.lastTradePnlUsdt ctx.lastTradeMarginUsdt
  let escalation ← checkAntiLeverageEscalation d.leverage ctx.lastAccountTradePnlUsdt
    ctx.lastAccountTradeLeverage
  return [checkSlRequired d, checkTpOrExitPlan d,
    checkDailyDrawdown A ctx.dailyLossUsdt initialBalance config.risk.maxDailyLossPercent,
    checkTotalDrawdown A ctx.totalLossUsdt initialBalance config.risk.maxTotalLossPercent,
    liquidation,
    checkFundingGate d ctx.fundingRate config.fundingGate,
    checkFeeGate ctx.feeEstimate config.risk.minNetRiskReward,
    checkMaxOpenPositions d ctx.openPositionsCount config.trading.maxOpenPositions,
    martingala, escalation,
    checkAntiAveraging ctx.openPositionUnrealizedPnlUsdt,
    checkSlippageEstimate ctx.slippageEstimate]

def adjustChecks (d : ModelDecision) (config : AppConfig) : List CheckResult :=
  [checkMarginCap d.marginUsdt config.risk.maxMarginPerTradeUsdt,
    checkLeverageCap d.leverage config config.environment]

/-- The audit of a verdict: the reason of each rule, a later check replacing an
earlier one of the same rule. -/
def auditReasons (checks : List CheckResult) : List (String × String) :=
  (checks.foldl (fun (r : Dict String String) c => r.set c.rule c.reason) Dict.empty).items

/-- `validate`, whatever arithmetic its percentages are calculated in. -/
def validateWith (A : Arithmetic) (d : ModelDecision) (ctx : RiskContext) (config : AppConfig) :
    Except PyError RiskValidationResult :=
  let base : RiskValidationFields :=
    { symbol := d.symbol, decision := .noOperar, originalMarginUsdt := d.marginUsdt,
      originalLeverage := d.leverage, dailyLossAtCheckUsdt := some ctx.dailyLossUsdt,
      totalLossAtCheckUsdt := some ctx.totalLossUsdt,
      reasons := [("no_operar", "Aggregator no encontró edge suficiente para operar")] }
  if ¬d.execute then RiskValidationResult.build base
  else if d.marginUsdt ≤ 0 then
    .error (.valueError "decision.margin_usdt debe ser > 0 para decisiones ejecutables")
  else match blockChecks A d ctx config with
    | .error e => .error e
    | .ok checks =>
      if checks.any (fun c => c.outcome = .block) then
        RiskValidationResult.build
          { base with decision := .block, reasons := auditReasons checks }
      else
        let reasons := auditReasons (checks ++ adjustChecks d config)
        if (adjustChecks d config).any (fun c => c.outcome = .adjustDown) then
          match AdjustedParameters.build
              (computeAdjustedMargin d.marginUsdt config.risk.maxMarginPerTradeUsdt)
              (computeAdjustedLeverage d.leverage config config.environment) with
          | .error e => .error e
          | .ok p => RiskValidationResult.build
              { base with decision := .adjustDown, adjustedParameters := some p,
                          reasons := reasons }
        else match AdjustedParameters.build d.marginUsdt d.leverage with
          | .error e => .error e
          | .ok p => RiskValidationResult.build
              { base with decision := .approve, adjustedParameters := some p, reasons := reasons }

abbrev validate : ModelDecision → RiskContext → AppConfig → Except PyError RiskValidationResult :=
  validateWith .python

variable {A : Arithmetic}

theorem AdjustedParameters.build_ok (h : AdjustedParameters.build m l = .ok p) :
    p.marginUsdt = m ∧ p.leverage = l := by
  unfold AdjustedParameters.build at h
  split at h <;> cases h
  exact ⟨rfl, rfl⟩

theorem auditReasons_ne_nil (c : CheckResult) (cs : List CheckResult) :
    auditReasons (c :: cs) ≠ [] := by
  have keeps : ∀ (cs : List CheckResult) (d : Dict String String), c.rule ∈ d.keys →
      c.rule ∈ (cs.foldl (fun (r : Dict String String) c => r.set c.rule c.reason) d).keys := by
    intro cs
    induction cs with
    | nil => exact fun _ h => h
    | cons c' cs ih => exact fun d h => ih _ (Dict.mem_keys_set_of_mem h _ _)
  exact Dict.items_ne_nil (keeps cs _ (Dict.mem_keys_set_self _ _ _))

/-- What the block phase has seen is audited, whatever comes after it. -/
theorem auditReasons_blockChecks (h : blockChecks A d ctx config = .ok checks)
    (later : List CheckResult) : auditReasons (checks ++ later) ≠ [] := by
  cases checks with
  | nil =>
    simp only [blockChecks, bind, Except.bind, pure, Except.pure] at h
    repeat' split at h
    all_goals cases h
  | cons c rest => exact auditReasons_ne_nil c _

/-- Every check of the block phase returns, and none of them blocks. -/
def GatesClear (A : Arithmetic) (d : ModelDecision) (ctx : RiskContext) (config : AppConfig) : Prop :=
  ∃ checks, blockChecks A d ctx config = .ok checks ∧ ∀ c ∈ checks, c.outcome ≠ .block

/-- What the parameters of an executable result must fit in: the caps leave room
for a trade, and the losses are amounts. -/
def Sizable (ctx : RiskContext) (config : AppConfig) : Prop :=
  0 < config.risk.maxMarginPerTradeUsdt ∧ 1 ≤ config.leverage.capForEnv config.environment ∧
  0 ≤ ctx.dailyLossUsdt ∧ 0 ≤ ctx.totalLossUsdt

/-- A result that can be executed, spelled out. -/
structure Sized (d : ModelDecision) (config : AppConfig) (r : RiskValidationResult)
    (p : AdjustedParameters) : Prop where
  params : r.adjustedParameters = some p
  margin : p.marginUsdt = min d.marginUsdt config.risk.maxMarginPerTradeUsdt
  leverage : p.leverage = min d.leverage (config.leverage.capForEnv config.environment)
  adjusted : r.decision = .adjustDown ↔ p.marginUsdt < d.marginUsdt ∨ p.leverage < d.leverage

theorem adjustChecks_any (d : ModelDecision) (config : AppConfig) :
    (adjustChecks d config).any (fun c => c.outcome = .adjustDown) =
      decide (config.risk.maxMarginPerTradeUsdt < d.marginUsdt ∨
        config.leverage.capForEnv config.environment < d.leverage) := by
  unfold adjustChecks checkMarginCap checkLeverageCap
  by_cases hm : config.risk.maxMarginPerTradeUsdt < d.marginUsdt <;>
    by_cases hl : config.leverage.capForEnv config.environment < d.leverage <;> simp [hm, hl]

/-- An executable result means that every gate was clear, and carries the smaller
of each parameter and its cap. -/
theorem validate_executable (h : validateWith A d ctx config = .ok r) (he : r.decision.executable) :
    d.execute ∧ GatesClear A d ctx config ∧ Sizable ctx config ∧ ∃ p, Sized d config r p := by
  unfold validateWith at h
  dsimp only at h
  split at h
  · rw [(RiskValidationResult.build_ok h).1] at he
    cases he
  rename_i hx
  split at h
  · cases h
  split at h
  · cases h
  rename_i checks hc
  split at h
  · rw [(RiskValidationResult.build_ok h).1] at he
    cases he
  rename_i hb
  have hclear : GatesClear A d ctx config :=
    ⟨checks, hc, fun c hm ho => hb (List.any_eq_true.mpr ⟨c, hm, by simp [ho]⟩)⟩
  refine ⟨not_not.mp hx, hclear, ?_⟩
  rw [adjustChecks_any] at h
  split at h
  · rename_i ha
    have ha := of_decide_eq_true ha
    split at h
    · cases h
    · rename_i p hp
      obtain ⟨hm, hl⟩ := AdjustedParameters.build_ok hp
      obtain ⟨hr, hv⟩ := RiskValidationResult.build_ok h
      have hmin := hm ▸ p.margin_range.1
      have hone := hl ▸ p.leverage_range.1
      refine ⟨⟨lt_of_lt_of_le hmin (min_le_right _ _), le_trans hone (min_le_right _ _),
        hv.2.2.1 _ rfl, hv.2.2.2.1 _ rfl⟩, p, by rw [hr], hm, hl, ?_⟩
      rw [hr, hm, hl]
      exact ⟨fun _ => by simpa [computeAdjustedMargin, computeAdjustedLeverage] using ha,
        fun _ => rfl⟩
  · rename_i ha
    have ha : ¬(_ ∨ _) := fun hn => ha (decide_eq_true hn)
    rw [not_or, not_lt, not_lt] at ha
    split at h
    · cases h
    · rename_i p hp
      obtain ⟨hm, hl⟩ := AdjustedParameters.build_ok hp
      obtain ⟨hr, hv⟩ := RiskValidationResult.build_ok h
      have hpos := hm ▸ p.margin_range.1
      have hone := hl ▸ p.leverage_range.1
      refine ⟨⟨lt_of_lt_of_le hpos ha.1, le_trans hone ha.2, hv.2.2.1 _ rfl, hv.2.2.2.1 _ rfl⟩,
        p, by rw [hr], by rw [hm, min_eq_left ha.1], by rw [hl, min_eq_left ha.2], ?_⟩
      rw [hr, hm, hl]
      simp

/-- The converse: clear gates and room for a trade give an executable result. -/
theorem validate_of_gatesClear (hx : d.execute) (hc : GatesClear A d ctx config)
    (hs : Sizable ctx config) : ∃ r, validateWith A d ctx config = .ok r ∧ r.decision.executable := by
  obtain ⟨checks, hchecks, hclear⟩ := hc
  obtain ⟨hmax, hcap, hdaily, htotal⟩ := hs
  have hm := (d.protected_of_execute hx).2.2
  have hb : checks.any (fun c => decide (c.outcome = .block)) = false := by
    rw [List.any_eq_false]
    intro c hcm ho
    exact hclear c hcm (of_decide_eq_true ho)
  have hne := auditReasons_blockChecks hchecks
  have hmr := d.margin_range
  have hlr := d.leverage_range
  have hbase : ∀ (k : RiskDecision) (p : AdjustedParameters), k.executable →
      (k = .adjustDown → p.marginUsdt < d.marginUsdt ∨ p.leverage < d.leverage) →
      ∃ r, RiskValidationResult.build
        { symbol := d.symbol, decision := k, originalMarginUsdt := d.marginUsdt,
          originalLeverage := d.leverage, adjustedParameters := some p,
          dailyLossAtCheckUsdt := some ctx.dailyLossUsdt,
          totalLossAtCheckUsdt := some ctx.totalLossUsdt,
          reasons := auditReasons (checks ++ adjustChecks d config) } = .ok r ∧
        r.decision.executable := by
    intro k p hk ha
    refine ⟨⟨_, ?_⟩, dif_pos ?_, hk⟩
    all_goals
      refine ⟨⟨hm.le, hmr.2⟩, hlr, by simpa using hdaily, by simpa using htotal, hne _,
        d.symbol_allowed, hk, fun _ => hm, ?_⟩
      intro hka q hq
      cases hq
      exact ha hka
  unfold validateWith
  dsimp only
  rw [if_neg (not_not.mpr hx), if_neg (not_le.mpr hm), hchecks]
  dsimp only
  rw [if_neg (by rw [hb]; exact Bool.false_ne_true), adjustChecks_any]
  by_cases ha : config.risk.maxMarginPerTradeUsdt < d.marginUsdt ∨
      config.leverage.capForEnv config.environment < d.leverage
  · rw [if_pos (decide_eq_true ha)]
    have hp : (0 < computeAdjustedMargin d.marginUsdt config.risk.maxMarginPerTradeUsdt ∧
        computeAdjustedMargin d.marginUsdt config.risk.maxMarginPerTradeUsdt ≤ maxMarginUsdt) ∧
        (1 ≤ computeAdjustedLeverage d.leverage config config.environment ∧
        computeAdjustedLeverage d.leverage config config.environment ≤ 10) :=
      ⟨⟨lt_min hm hmax, le_trans (min_le_left _ _) hmr.2⟩,
        le_min hlr.1 hcap, le_trans (min_le_left _ _) hlr.2⟩
    rw [AdjustedParameters.build, dif_pos hp]
    refine hbase .adjustDown _ rfl (fun _ => ?_)
    simpa [computeAdjustedMargin, computeAdjustedLeverage] using ha
  · rw [if_neg (by simpa using ha)]
    rw [AdjustedParameters.build, dif_pos ⟨⟨hm, hmr.2⟩, hlr⟩]
    exact hbase .approve _ rfl (fun hk => by cases hk)

end FuturesBot
