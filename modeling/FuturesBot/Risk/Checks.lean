import FuturesBot.Core.Arithmetic
import FuturesBot.Risk.Estimates

namespace FuturesBot

inductive CheckOutcome
  | pass | block | adjustDown
  deriving DecidableEq, Repr

/-- One verdict, with the fixed part of the text that audits it. -/
structure CheckResult where
  outcome : CheckOutcome
  rule : String
  reason : String
  deriving DecidableEq, Repr

/-- The white space Python strips from a text. -/
def isPySpace (c : Char) : Bool :=
  let n := c.toNat
  (9 ≤ n && n ≤ 13) || (28 ≤ n && n ≤ 32) || n = 133 || n = 160 || n = 5760 ||
    (8192 ≤ n && n ≤ 8202) || n = 8232 || n = 8233 || n = 8239 || n = 8287 || n = 12288

def checkSlRequired (d : ModelDecision) : CheckResult :=
  if d.execute ∧ d.stopLoss ≤ 0 then
    ⟨.block, "sl_required", "SL ausente o cero: stop_loss obligatorio cuando execute=True."⟩
  else ⟨.pass, "sl_required", "SL presente."⟩

def checkTpOrExitPlan (d : ModelDecision) : CheckResult :=
  if ¬d.execute then ⟨.pass, "tp_or_exit_plan", "No aplica: execute=False."⟩
  else
    let plan := d.positionManagementPlan
    let hasTp := 0 < d.takeProfit
    let hasExitPlan := plan.useTrailingStop ∨ plan.moveToBreakEven ∨
      ¬plan.partialClosePlan.toList.all isPySpace ∨ 0 < plan.maxTimeInTradeMinutes
    if ¬hasTp ∧ ¬hasExitPlan then
      ⟨.block, "tp_or_exit_plan", "Sin TP ni plan de salida"⟩
    else ⟨.pass, "tp_or_exit_plan", "TP o plan de salida presente."⟩

/-- In percent of the balance: a quotient of `Decimal`s that goes on as a `float`. -/
def lossPercent (A : Arithmetic) (lossUsdt initialBalanceUsdt : Amount) : Amount :=
  A.float.mul (A.decimal (lossUsdt / initialBalanceUsdt)) 100

/-- A loss against a limit given in percent of the initial balance. Reaching the
limit blocks. -/
def checkDrawdown (A : Arithmetic) (rule invalid reached within : String)
    (lossUsdt initialBalanceUsdt maxLossPercent : Amount) : CheckResult :=
  if initialBalanceUsdt ≤ 0 then ⟨.block, rule, invalid⟩
  else if A.float maxLossPercent ≤ lossPercent A lossUsdt initialBalanceUsdt then
    ⟨.block, rule, reached⟩
  else ⟨.pass, rule, within⟩

def checkDailyDrawdown (A : Arithmetic)
    (dailyLossUsdt initialBalanceUsdt maxDailyLossPercent : Amount) : CheckResult :=
  checkDrawdown A "daily_drawdown"
    "Balance inicial inválido (≤0): no se puede calcular drawdown diario."
    "Drawdown diario alcanzó el límite: no se permiten nuevas entradas."
    "Drawdown diario dentro del límite." dailyLossUsdt initialBalanceUsdt maxDailyLossPercent

def checkTotalDrawdown (A : Arithmetic)
    (totalLossUsdt initialBalanceUsdt maxTotalLossPercent : Amount) : CheckResult :=
  checkDrawdown A "total_drawdown"
    "Balance inicial inválido (≤0): no se puede calcular drawdown total."
    "Drawdown total alcanzó el límite: bot detenido."
    "Drawdown total dentro del límite." totalLossUsdt initialBalanceUsdt maxTotalLossPercent

def checkMarginCap (marginUsdt maxMargin : Amount) : CheckResult :=
  if maxMargin < marginUsdt then
    ⟨.adjustDown, "margin_cap", "Margen supera el tope configurado: se ajusta a la baja."⟩
  else ⟨.pass, "margin_cap", "Margen dentro del tope."⟩

def checkLeverageCap (leverage : ℤ) (config : AppConfig) (environment : Environment) :
    CheckResult :=
  if config.leverage.capForEnv environment < leverage then
    ⟨.adjustDown, "leverage_cap", "Leverage supera el tope: se ajusta a la baja."⟩
  else ⟨.pass, "leverage_cap", "Leverage dentro del tope."⟩

/-- What the trade pays per interval: a long pays a positive rate, a short a
negative one. -/
def adverseFunding (decision : DecisionType) (fundingRate : Amount) : Amount :=
  if decision = .long then fundingRate else -fundingRate

def checkFundingGate (d : ModelDecision) (fundingRate : Option Amount)
    (config : FundingGateConfig) : CheckResult :=
  let rule := "funding_gate"
  if ¬config.enabled then ⟨.pass, rule, "Gate de funding deshabilitado en configuración."⟩
  else if d.decision = .noOperar then ⟨.pass, rule, "NO_OPERAR: no hay trade que validar."⟩
  else match fundingRate with
    | none =>
      if config.blockIfFundingUnknown then
        ⟨.block, rule, "Funding rate desconocido: revisión de funding obligatoria antes de operar."⟩
      else ⟨.pass, rule,
        "Funding rate desconocido; block_if_funding_unknown=False, no se bloquea."⟩
    | some fundingRate =>
      if config.maxAdverseFundingRate ≤ adverseFunding d.decision fundingRate then
        ⟨.block, rule, "Funding adverso alcanzó el límite."⟩
      else ⟨.pass, rule, "Funding adverso por debajo del límite."⟩

def checkMaxOpenPositions (d : ModelDecision) (openPositionsCount : Option ℤ)
    (maxOpenPositions : ℤ) : CheckResult :=
  let rule := "max_open_positions"
  if d.decision = .noOperar then ⟨.pass, rule, "NO_OPERAR: no hay trade que validar."⟩
  else match openPositionsCount with
    | none => ⟨.block, rule,
        "Conteo de posiciones abiertas no confiable (reconciliación incompleta)."⟩
    | some count =>
      if maxOpenPositions ≤ count then ⟨.block, rule, "Posiciones abiertas alcanzó el límite"⟩
      else ⟨.pass, rule, "Posiciones abiertas por debajo del límite"⟩

def estimateLiquidationPrice (A : Arithmetic) (entryPrice liqDistPct : Amount)
    (direction : DecisionType) : Amount :=
  let fraction := A.float.div liqDistPct 100
  if direction = .long then A.float.mul entryPrice (A.float.sub 1 fraction)
  else A.float.mul entryPrice (A.float.add 1 fraction)

def slIsPastLiquidation (A : Arithmetic) (sl liqPrice : Amount) (direction : DecisionType) : Bool :=
  if direction = .long then A.float sl ≤ liqPrice else liqPrice ≤ A.float sl

/-- In percent of the liquidation price; a division, which raises at zero. -/
def slBufferPercent (A : Arithmetic) (sl liqPrice : Amount) (direction : DecisionType) :
    Except PyError Amount :=
  let buffer := if direction = .long then A.float.sub sl liqPrice else A.float.sub liqPrice sl
  if liqPrice = 0 then .error .zeroDivisionError
  else .ok (A.float.mul (A.float.div buffer liqPrice) 100)

def checkLiquidationSafety (A : Arithmetic) (d : ModelDecision) (config : LiquidationSafetyConfig) :
    Except PyError CheckResult :=
  let rule := "liquidation_safety"
  if ¬config.enabled then .ok ⟨.pass, rule, "Check de liquidación deshabilitado en configuración."⟩
  else if d.decision = .noOperar then .ok ⟨.pass, rule, "NO_OPERAR: no hay trade que validar."⟩
  else if d.execute ∧ d.stopLoss ≤ 0 then .ok ⟨.block, rule, "SL ausente o cero"⟩
  else
    let liqDist := d.liquidationDistancePercentEstimated
    if liqDist = 0 then
      if config.blockIfLiquidationUnknown then
        .ok ⟨.block, "liquidation_unknown", "Distancia de liquidación desconocida (0%)"⟩
      else .ok ⟨.pass, rule, "Distancia desconocida aceptada"⟩
    else if d.entryPrice ≤ 0 then
      .ok ⟨.block, rule,
        "entry_price inválido: debe ser > 0 para calcular el precio de liquidación."⟩
    else
      let liqPrice := estimateLiquidationPrice A d.entryPrice liqDist d.decision
      if slIsPastLiquidation A d.stopLoss liqPrice d.decision then
        if config.blockIfStopAfterLiquidation then
          .ok ⟨.block, "sl_after_liquidation",
            "stop_loss está más allá del precio de liquidación; trade bloqueado."⟩
        else .ok ⟨.pass, rule, "SL más allá de liq aceptado"⟩
      else if liqDist < config.minDistanceEntryToLiquidationPercent then
        .ok ⟨.adjustDown, "entry_liq_distance",
          "Distancia entry→liquidación menor al mínimo requerido: se requiere ajuste."⟩
      else match slBufferPercent A d.stopLoss liqPrice d.decision with
        | .error e => .error e
        | .ok bufferPct =>
          if bufferPct < 0 then
            .ok ⟨.block, "sl_after_liquidation",
              "buffer SL→liquidación negativo: el SL está en o más allá del precio de liquidación."⟩
          else if bufferPct < A.float config.minBufferStopToLiquidationPercent then
            .ok ⟨.adjustDown, "sl_liq_buffer",
              "buffer SL→liquidación menor al mínimo: se requiere ajuste."⟩
          else .ok ⟨.pass, rule, "buffer SL→liquidación y distancia suficientes."⟩

/-- More margin than the last trade of the symbol, when that one lost. -/
def checkAntiMartingala (proposedMarginUsdt : Amount)
    (lastTradePnlUsdt lastTradeMarginUsdt : Option Amount) : Except PyError CheckResult :=
  let rule := "anti_martingala"
  if proposedMarginUsdt ≤ 0 then
    .error (.valueError "proposed_margin_usdt debe ser positivo")
  else if ∃ m ∈ lastTradeMarginUsdt, m ≤ 0 then
    .error (.valueError "last_trade_margin_usdt debe ser positivo")
  else match lastTradePnlUsdt, lastTradeMarginUsdt with
    | some pnl, some margin =>
      if 0 ≤ pnl then .ok ⟨.pass, rule, "Último trade con PnL ≥0: patrón martingala no aplicable."⟩
      else if margin < proposedMarginUsdt then
        .ok ⟨.block, rule, "Martingala detectada: el margen propuesto es mayor tras una pérdida."⟩
      else .ok ⟨.pass, rule, "Margen propuesto no supera el último tras pérdida."⟩
    | _, _ => .ok ⟨.pass, rule,
        "Sin historial de trades suficiente: anti-martingala no evaluado."⟩

/-- More leverage than the last trade of the account, when that one lost. -/
def checkAntiLeverageEscalation (proposedLeverage : ℤ) (lastTradePnlUsdt : Option Amount)
    (lastTradeLeverage : Option ℤ) : Except PyError CheckResult :=
  let rule := "anti_leverage_escalation"
  if proposedLeverage ≤ 0 then .error (.valueError "proposed_leverage debe ser positivo")
  else if ∃ l ∈ lastTradeLeverage, l ≤ 0 then
    .error (.valueError "last_trade_leverage debe ser positivo")
  else match lastTradePnlUsdt, lastTradeLeverage with
    | some pnl, some leverage =>
      if 0 ≤ pnl then
        .ok ⟨.pass, rule, "Último trade con PnL ≥0: anti-escalada de leverage no aplicable."⟩
      else if leverage < proposedLeverage then
        .ok ⟨.block, rule, "Escalada de leverage detectada: el leverage propuesto es mayor."⟩
      else .ok ⟨.pass, rule, "Leverage propuesto no supera el del último trade tras pérdida."⟩
    | _, _ => .ok ⟨.pass, rule,
        "Sin historial de trades suficiente: anti-escalada de leverage no evaluado."⟩

def checkAntiAveraging (openPositionUnrealizedPnlUsdt : Option Amount) : CheckResult :=
  let rule := "anti_averaging"
  match openPositionUnrealizedPnlUsdt with
  | none => ⟨.pass, rule, "Sin posición abierta: anti-averaging no aplicable."⟩
  | some pnl =>
    if 0 ≤ pnl then ⟨.pass, rule, "Posición abierta con PnL ≥0: anti-averaging no aplicable."⟩
    else ⟨.block, rule, "Promediado de pérdidas detectado"⟩

def checkFeeGate (estimate : Option FeeEstimate) (minNetRiskReward : Amount) : CheckResult :=
  let rule := "fee_gate"
  match estimate with
  | none => ⟨.block, rule,
      "Sin estimación de fees pre-trade: cálculo de fees obligatorio antes de operar (regla 12)."⟩
  | some estimate =>
    if estimate.netRiskReward < minNetRiskReward then
      ⟨.block, rule, "RR neto de fees por debajo del mínimo."⟩
    else ⟨.pass, rule, "Fees proyectados"⟩

/-- Informative only: it passes whatever it is given. -/
def checkSlippageEstimate (estimate : Option SlippageEstimate) : CheckResult :=
  match estimate with
  | none => ⟨.pass, "slippage_estimate", "Sin estimación de slippage pre-trade"⟩
  | some _ => ⟨.pass, "slippage_estimate", "Slippage estimado pre-trade"⟩

/- What each check lets through. -/

theorem checkSlRequired_pass (d : ModelDecision) : (checkSlRequired d).outcome = .pass := by
  unfold checkSlRequired
  split
  · rename_i h
    exact absurd h.2 (not_le.mpr (d.protected_of_execute h.1).1)
  · rfl

theorem checkTpOrExitPlan_pass (d : ModelDecision) : (checkTpOrExitPlan d).outcome = .pass := by
  unfold checkTpOrExitPlan
  split
  · rfl
  · rename_i he
    dsimp only
    split
    · rename_i h
      exact absurd (d.protected_of_execute (not_not.mp he)).2.1 h.1
    · rfl

variable {A : Arithmetic}

theorem checkDrawdown_outcome :
    (checkDrawdown A rule a b c loss initial limit).outcome =
      if 0 < initial ∧ lossPercent A loss initial < A.float limit then .pass else .block := by
  unfold checkDrawdown
  by_cases hi : initial ≤ 0
  · rw [if_pos hi, if_neg (fun h => absurd h.1 (not_lt.mpr hi))]
  · rw [if_neg hi]
    by_cases hl : A.float limit ≤ lossPercent A loss initial
    · rw [if_pos hl, if_neg (fun h => absurd h.2 (not_lt.mpr hl))]
    · rw [if_neg hl, if_pos ⟨not_le.mp hi, not_le.mp hl⟩]

/-- The two verdicts of a check that never adjusts. -/
def CheckResult.PassOrBlock (c : CheckResult) : Prop := c.outcome = .pass ∨ c.outcome = .block

theorem CheckResult.PassOrBlock.pass {c : CheckResult} (h : c.PassOrBlock)
    (hn : c.outcome ≠ .block) : c.outcome = .pass := h.resolve_right hn

theorem checkDrawdown_verdict : (checkDrawdown A rule a b c loss initial limit).PassOrBlock := by
  unfold CheckResult.PassOrBlock
  rw [checkDrawdown_outcome]
  split <;> simp

theorem checkFundingGate_verdict (d : ModelDecision) (rate : Option Amount)
    (config : FundingGateConfig) : (checkFundingGate d rate config).PassOrBlock := by
  unfold checkFundingGate
  repeat' split
  all_goals simp [CheckResult.PassOrBlock]

theorem checkFeeGate_verdict (estimate : Option FeeEstimate) (minimum : Amount) :
    (checkFeeGate estimate minimum).PassOrBlock := by
  unfold checkFeeGate
  repeat' split
  all_goals simp [CheckResult.PassOrBlock]

theorem checkMaxOpenPositions_verdict (d : ModelDecision) (count : Option ℤ) (limit : ℤ) :
    (checkMaxOpenPositions d count limit).PassOrBlock := by
  unfold checkMaxOpenPositions
  repeat' split
  all_goals simp [CheckResult.PassOrBlock]

theorem checkAntiAveraging_verdict (pnl : Option Amount) : (checkAntiAveraging pnl).PassOrBlock := by
  unfold checkAntiAveraging
  repeat' split
  all_goals simp [CheckResult.PassOrBlock]

theorem checkAntiMartingala_verdict (h : checkAntiMartingala margin pnl last = .ok c) :
    c.PassOrBlock := by
  unfold checkAntiMartingala at h
  dsimp only at h
  repeat' split at h
  all_goals cases h
  all_goals simp [CheckResult.PassOrBlock]

theorem checkAntiLeverageEscalation_verdict
    (h : checkAntiLeverageEscalation leverage pnl last = .ok c) : c.PassOrBlock := by
  unfold checkAntiLeverageEscalation at h
  dsimp only at h
  repeat' split at h
  all_goals cases h
  all_goals simp [CheckResult.PassOrBlock]

theorem checkFundingGate_pass (he : config.enabled) (hu : config.blockIfFundingUnknown)
    (hd : d.decision ≠ .noOperar) (h : (checkFundingGate d rate config).outcome ≠ .block) :
    ∃ r, rate = some r ∧ adverseFunding d.decision r < config.maxAdverseFundingRate := by
  cases rate with
  | none => simp [checkFundingGate, he, hu, hd] at h
  | some r =>
    refine ⟨r, rfl, ?_⟩
    by_contra hl
    simp [checkFundingGate, he, hd, not_lt.mp hl] at h

theorem checkMaxOpenPositions_pass (hd : d.decision ≠ .noOperar)
    (h : (checkMaxOpenPositions d count limit).outcome ≠ .block) :
    ∃ n, count = some n ∧ n < limit := by
  cases count with
  | none => simp [checkMaxOpenPositions, hd] at h
  | some n =>
    refine ⟨n, rfl, ?_⟩
    by_contra hl
    simp [checkMaxOpenPositions, hd, not_lt.mp hl] at h

theorem checkFeeGate_pass (h : (checkFeeGate estimate minimum).outcome ≠ .block) :
    ∃ e, estimate = some e ∧ minimum ≤ e.netRiskReward := by
  cases estimate with
  | none => simp [checkFeeGate] at h
  | some e =>
    refine ⟨e, rfl, ?_⟩
    by_contra hl
    simp [checkFeeGate, not_le.mp hl] at h

theorem checkAntiMartingala_pass (h : checkAntiMartingala margin pnl last = .ok c)
    (hc : c.outcome ≠ .block) : ∀ p ∈ pnl, ∀ m ∈ last, p < 0 → margin ≤ m := by
  rintro p rfl m rfl hp
  by_contra hl
  unfold checkAntiMartingala at h
  split at h
  · cases h
  · split at h
    · cases h
    · simp only [if_neg (not_le.mpr hp), if_pos (not_le.mp hl)] at h
      cases h
      exact hc rfl

theorem checkAntiLeverageEscalation_pass (h : checkAntiLeverageEscalation leverage pnl last = .ok c)
    (hc : c.outcome ≠ .block) : ∀ p ∈ pnl, ∀ l ∈ last, p < 0 → leverage ≤ l := by
  rintro p rfl l rfl hp
  by_contra hl
  unfold checkAntiLeverageEscalation at h
  split at h
  · cases h
  · split at h
    · cases h
    · simp only [if_neg (not_le.mpr hp), if_pos (not_le.mp hl)] at h
      cases h
      exact hc rfl

theorem checkAntiAveraging_pass (h : (checkAntiAveraging pnl).outcome ≠ .block) :
    ∀ p ∈ pnl, 0 ≤ p := by
  rintro p rfl
  by_contra hl
  simp [checkAntiAveraging, hl] at h

end FuturesBot
