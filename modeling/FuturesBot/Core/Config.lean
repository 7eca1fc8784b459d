import FuturesBot.Core.Constants
import FuturesBot.Positions.Schemas

namespace FuturesBot

inductive Environment
  | paper | testnet | live
  deriving DecidableEq, Repr

inductive LivePhase
  | initial | absolute
  deriving DecidableEq, Repr

/- The sections of the configuration that the modelled code reads, each with the
rules its validators enforce at boot. -/

structure ChallengeConfig where
  initialBalanceUsdt : Amount

structure TradingConfig where
  allowedSymbols : List Symbol
  maxOpenPositions : ℤ
  maxOpenPositionsAllowed : ℤ
  allowed_le : maxOpenPositionsAllowed ≤ 3
  symbols_allowed : ∀ s ∈ allowedSymbols, s ∈ FuturesBot.allowedSymbols
  within_allowed : 1 ≤ maxOpenPositions ∧ maxOpenPositions ≤ maxOpenPositionsAllowed

structure RiskConfig where
  maxMarginPerTradeUsdt : Amount
  maxDailyLossPercent : Amount
  maxTotalLossPercent : Amount
  minNetRiskReward : Amount
  margin_le : maxMarginPerTradeUsdt ≤ 10
  net_rr_floor : minNetRiskRewardFloor ≤ minNetRiskReward

structure LeverageConfig where
  maxLeveragePaper : ℤ
  maxLeverageTestnet : ℤ
  maxLeverageLiveInitial : ℤ
  maxLeverageLiveAbsolute : ℤ
  livePhase : LivePhase := .initial
  limits : maxLeveragePaper ≤ 10 ∧ maxLeverageTestnet ≤ 5 ∧ maxLeverageLiveAbsolute ≤ 5 ∧
    maxLeverageLiveInitial ≤ 3

def LeverageConfig.capForEnv (c : LeverageConfig) : Environment → ℤ
  | .paper => c.maxLeveragePaper
  | .testnet => c.maxLeverageTestnet
  | .live => match c.livePhase with
    | .absolute => c.maxLeverageLiveAbsolute
    | .initial => c.maxLeverageLiveInitial

structure LiquidationSafetyConfig where
  enabled : Bool
  minDistanceEntryToLiquidationPercent : Amount
  minBufferStopToLiquidationPercent : Amount
  blockIfLiquidationUnknown : Bool
  blockIfStopAfterLiquidation : Bool

structure FundingGateConfig where
  enabled : Bool
  maxAdverseFundingRate : Amount
  blockIfFundingUnknown : Bool
  rate_range : 0 < maxAdverseFundingRate ∧ maxAdverseFundingRate < 1

structure PositionManagementConfig where
  breakEvenEnabled : Bool
  trailingStopEnabled : Bool
  trailingDefaultMode : TrailingMode
  trailingDefaultPercent : Amount
  trailingDefaultAtrMultiplier : Amount
  beTriggerAtrMultiplier : Amount
  beSlOffsetPercent : Amount
  not_fixed : trailingDefaultMode ≠ .fixed
  percent_range : 0 < trailingDefaultPercent ∧ trailingDefaultPercent < 1
  atr_multiplier_pos : 0 < trailingDefaultAtrMultiplier
  be_multiplier_pos : 0 < beTriggerAtrMultiplier
  be_offset_range : 0 < beSlOffsetPercent ∧ beSlOffsetPercent < 1

structure SlippageConfig where
  marketImpactBps : Amount
  impact_range : 0 ≤ marketImpactBps ∧ marketImpactBps ≤ 100

structure StorageConfig where
  logAllDecisions : Bool
  logRiskValidations : Bool

structure ReconciliationConfig where
  enabled : Bool
  runBeforeNewEntries : Bool
  blockOnOrphanOrders : Bool
  blockOnUntrackedPositions : Bool
  blockOnUnconfirmedProtection : Bool

/-- The thresholds lie under the hard bounds of a snapshot. -/
structure ConnectionHealthConfig where
  maxClockSkewMs : ℤ
  maxLatencyMs : ℤ
  skew_range : 0 < maxClockSkewMs ∧ maxClockSkewMs < 5000
  latency_range : 0 < maxLatencyMs ∧ maxLatencyMs < 10000

structure LoginThrottleConfig where
  enabled : Bool
  maxFailuresPerUsername : ℕ
  maxFailuresPerIp : ℕ
  windowSeconds : ℕ
  lockoutSeconds : ℕ
  lockoutBackoffFactor : Amount
  maxLockoutSeconds : ℕ
  positive : 0 < maxFailuresPerUsername ∧ 0 < maxFailuresPerIp ∧ 0 < windowSeconds ∧
    0 < lockoutSeconds ∧ 0 < maxLockoutSeconds
  backoff_at_least_one : 1 ≤ lockoutBackoffFactor
  max_lockout_not_below_base : lockoutSeconds ≤ maxLockoutSeconds

structure AppConfig where
  challenge : ChallengeConfig
  trading : TradingConfig
  risk : RiskConfig
  leverage : LeverageConfig
  environment : Environment
  liquidationSafety : LiquidationSafetyConfig
  fundingGate : FundingGateConfig
  positionManagement : PositionManagementConfig
  slippage : SlippageConfig
  storage : StorageConfig
  reconciliation : ReconciliationConfig
  connectionHealth : ConnectionHealthConfig

/-- The values of `config.yaml`. -/
def defaultConfig : AppConfig where
  challenge := { initialBalanceUsdt := 100 }
  trading :=
    { allowedSymbols := allowedSymbols, maxOpenPositions := 1, maxOpenPositionsAllowed := 3,
      allowed_le := by decide, symbols_allowed := fun _ h => h, within_allowed := by decide }
  risk :=
    { maxMarginPerTradeUsdt := 10, maxDailyLossPercent := 10, maxTotalLossPercent := 50,
      minNetRiskReward := 3 / 2, margin_le := by decide +kernel,
      net_rr_floor := by decide +kernel }
  leverage :=
    { maxLeveragePaper := 10, maxLeverageTestnet := 5, maxLeverageLiveInitial := 3,
      maxLeverageLiveAbsolute := 5, limits := by decide }
  environment := .paper
  liquidationSafety :=
    { enabled := true, minDistanceEntryToLiquidationPercent := 5,
      minBufferStopToLiquidationPercent := 2, blockIfLiquidationUnknown := true,
      blockIfStopAfterLiquidation := true }
  fundingGate :=
    { enabled := true, maxAdverseFundingRate := 1 / 1000, blockIfFundingUnknown := true,
      rate_range := by decide +kernel }
  positionManagement :=
    { breakEvenEnabled := true, trailingStopEnabled := true, trailingDefaultMode := .atr,
      trailingDefaultPercent := 2 / 100, trailingDefaultAtrMultiplier := 5 / 2,
      beTriggerAtrMultiplier := 1, beSlOffsetPercent := 15 / 10000, not_fixed := by decide,
      percent_range := by decide +kernel, atr_multiplier_pos := by decide +kernel,
      be_multiplier_pos := by decide +kernel, be_offset_range := by decide +kernel }
  slippage := { marketImpactBps := 2, impact_range := by decide +kernel }
  storage := { logAllDecisions := true, logRiskValidations := true }
  reconciliation :=
    { enabled := true, runBeforeNewEntries := true, blockOnOrphanOrders := true,
      blockOnUntrackedPositions := true, blockOnUnconfirmedProtection := true }
  connectionHealth :=
    { maxClockSkewMs := 2000, maxLatencyMs := 3000, skew_range := by decide,
      latency_range := by decide }

end FuturesBot
