import FuturesBot.Risk.Soundness

namespace FuturesBot
open Lib

/-- No better than before, where not to know is the worst. -/
def OrUnknown (worse : α → α → Prop) : Option α → Option α → Prop
  | _, none => True
  | some a, some b => worse a b
  | none, some _ => False

/-- A decision that differs in the size of its trade only, and asks for no less of it. -/
structure NoSmaller (d d' : ModelDecision) : Prop where
  rest : d'.toModelDecisionFields =
    { d.toModelDecisionFields with marginUsdt := d'.marginUsdt, leverage := d'.leverage }
  margin : d.marginUsdt ≤ d'.marginUsdt
  leverage : d.leverage ≤ d'.leverage

/-- A context in which a trade in this direction is no safer. The last trades are the same. -/
structure NoSafer (direction : DecisionType) (ctx ctx' : RiskContext) : Prop where
  daily : ctx.dailyLossUsdt ≤ ctx'.dailyLossUsdt
  total : ctx.totalLossUsdt ≤ ctx'.totalLossUsdt
  openPositions : OrUnknown (· ≤ ·) ctx.openPositionsCount ctx'.openPositionsCount
  funding : OrUnknown (fun rate rate' => adverseFunding direction rate ≤
    adverseFunding direction rate') ctx.fundingRate ctx'.fundingRate
  fees : OrUnknown (fun e e' => e'.netRiskReward ≤ e.netRiskReward) ctx.feeEstimate
    ctx'.feeEstimate
  openPnl : ∀ pnl ∈ ctx.openPositionUnrealizedPnlUsdt,
    ∃ pnl' ∈ ctx'.openPositionUnrealizedPnlUsdt, pnl' ≤ pnl
  lastTrade : ctx'.lastTradePnlUsdt = ctx.lastTradePnlUsdt ∧
    ctx'.lastTradeMarginUsdt = ctx.lastTradeMarginUsdt
  lastAccountTrade : ctx'.lastAccountTradePnlUsdt = ctx.lastAccountTradePnlUsdt ∧
    ctx'.lastAccountTradeLeverage = ctx.lastAccountTradeLeverage

/- What a gate lets through in the worse case it lets through in the better one. -/

variable {A : Arithmetic}

theorem lossPercent_mono (hpos : 0 < initial) (hle : loss ≤ loss') :
    lossPercent A loss initial ≤ lossPercent A loss' initial := by
  have hratio : loss / initial ≤ loss' / initial := by gcongr
  exact A.float.mul_mono_left (by norm_num) (A.decimal.mono hratio)

theorem checkDrawdown_mono (hle : loss ≤ loss')
    (h : (checkDrawdown A rule a b c loss' initial limit).outcome ≠ .block) :
    (checkDrawdown A rule a b c loss initial limit).outcome ≠ .block := by
  obtain ⟨hpos, hlt⟩ := checkDrawdown_pass h
  rw [checkDrawdown_outcome, if_pos ⟨hpos, lt_of_le_of_lt (lossPercent_mono hpos hle) hlt⟩]
  decide

theorem checkFundingGate_mono (hd : d'.decision = d.decision)
    (hle : OrUnknown (fun rate rate' => adverseFunding d.decision rate ≤
      adverseFunding d.decision rate') rate rate')
    (hu : rate' = none → config.blockIfFundingUnknown)
    (h : (checkFundingGate d' rate' config).outcome ≠ .block) :
    (checkFundingGate d rate config).outcome ≠ .block := by
  by_cases he : config.enabled
  · by_cases hno : d.decision = .noOperar
    · simp [checkFundingGate, he, hno]
    · cases rate' with
      | none => simp [checkFundingGate, he, hd, hno, hu rfl] at h
      | some worse =>
        cases rate with
        | none => exact hle.elim
        | some better =>
          have hle : adverseFunding d.decision better ≤ adverseFunding d.decision worse := hle
          have hlt : adverseFunding d.decision worse < config.maxAdverseFundingRate := by
            by_contra hn
            simp [checkFundingGate, he, hd, hno, not_lt.mp hn] at h
          simp [checkFundingGate, he, hno, not_le.mpr (lt_of_le_of_lt hle hlt)]
  · simp [checkFundingGate, he]

theorem checkMaxOpenPositions_mono (hd : d'.decision = d.decision)
    (hle : OrUnknown (· ≤ ·) count count')
    (h : (checkMaxOpenPositions d' count' limit).outcome ≠ .block) :
    (checkMaxOpenPositions d count limit).outcome ≠ .block := by
  by_cases hno : d.decision = .noOperar
  · simp [checkMaxOpenPositions, hno]
  · obtain ⟨n', rfl, hlt⟩ := checkMaxOpenPositions_pass (hd.trans_ne hno) h
    cases count with
    | none => exact hle.elim
    | some n =>
      have hle : n ≤ n' := hle
      have hn : ¬limit ≤ n := by omega
      simp [checkMaxOpenPositions, hno, hn]

theorem checkFeeGate_mono
    (hle : OrUnknown (fun e e' : FeeEstimate => e'.netRiskReward ≤ e.netRiskReward) fees fees')
    (h : (checkFeeGate fees' minimum).outcome ≠ .block) :
    (checkFeeGate fees minimum).outcome ≠ .block := by
  obtain ⟨e', rfl, hmin⟩ := checkFeeGate_pass h
  cases fees with
  | none => exact hle.elim
  | some e =>
    have hle : minimum ≤ e.netRiskReward := le_trans hmin hle
    simp [checkFeeGate, not_lt.mpr hle]

theorem checkAntiAveraging_mono (hle : ∀ p ∈ pnl, ∃ p' ∈ pnl', p' ≤ p)
    (h : (checkAntiAveraging pnl').outcome ≠ .block) :
    (checkAntiAveraging pnl).outcome ≠ .block := by
  cases pnl with
  | none => decide
  | some p =>
    obtain ⟨p', hp', hle⟩ := hle p rfl
    have hpos : 0 ≤ p := le_trans (checkAntiAveraging_pass h p' hp') hle
    simp [checkAntiAveraging, hpos]

theorem checkAntiMartingala_mono (hpos : 0 < margin) (hle : margin ≤ margin')
    (h : checkAntiMartingala margin' pnl last = .ok c') (hc : c'.outcome ≠ .block) :
    ∃ c, checkAntiMartingala margin pnl last = .ok c ∧ c.outcome ≠ .block := by
  have hpass := checkAntiMartingala_pass h hc
  unfold checkAntiMartingala at h ⊢
  dsimp only at h ⊢
  rw [if_neg (not_le.mpr (lt_of_lt_of_le hpos hle))] at h
  rw [if_neg (not_le.mpr hpos)]
  split at h
  · cases h
  · rename_i hlast
    rw [if_neg hlast]
    split
    · rename_i p m
      by_cases hp : 0 ≤ p
      · rw [if_pos hp]
        exact ⟨_, rfl, by decide⟩
      · have hm : margin ≤ m := le_trans hle (hpass p rfl m rfl (not_le.mp hp))
        rw [if_neg hp, if_neg (not_lt.mpr hm)]
        exact ⟨_, rfl, by decide⟩
    · exact ⟨_, rfl, by decide⟩

theorem checkAntiLeverageEscalation_mono (hpos : 0 < leverage) (hle : leverage ≤ leverage')
    (h : checkAntiLeverageEscalation leverage' pnl last = .ok c') (hc : c'.outcome ≠ .block) :
    ∃ c, checkAntiLeverageEscalation leverage pnl last = .ok c ∧ c.outcome ≠ .block := by
  have hpass := checkAntiLeverageEscalation_pass h hc
  unfold checkAntiLeverageEscalation at h ⊢
  dsimp only at h ⊢
  rw [if_neg (not_le.mpr (lt_of_lt_of_le hpos hle))] at h
  rw [if_neg (not_le.mpr hpos)]
  split at h
  · cases h
  · rename_i hlast
    rw [if_neg hlast]
    split
    · rename_i p l
      by_cases hp : 0 ≤ p
      · rw [if_pos hp]
        exact ⟨_, rfl, by decide⟩
      · have hl : leverage ≤ l := le_trans hle (hpass p rfl l rfl (not_le.mp hp))
        rw [if_neg hp, if_neg (not_lt.mpr hl)]
        exact ⟨_, rfl, by decide⟩
    · exact ⟨_, rfl, by decide⟩

theorem NoSmaller.decision (h : NoSmaller d d') : d'.decision = d.decision := by
  rw [h.rest]

theorem NoSmaller.execute (h : NoSmaller d d') : d'.execute = d.execute := by
  rw [h.rest]

/-- The gate on liquidation does not look at the size of the trade. -/
theorem NoSmaller.liquidation (h : NoSmaller d d') (c : LiquidationSafetyConfig) :
    checkLiquidationSafety A d' c = checkLiquidationSafety A d c := by
  have hsl : d'.stopLoss = d.stopLoss := by rw [h.rest]
  have hentry : d'.entryPrice = d.entryPrice := by rw [h.rest]
  have hdist : d'.liquidationDistancePercentEstimated = d.liquidationDistancePercentEstimated := by
    rw [h.rest]
  unfold checkLiquidationSafety
  rw [h.decision, h.execute, hsl, hentry, hdist]

/-- Gates that are clear for the riskier of two trades are clear for the other. -/
theorem gatesClear_mono (hx : d.execute) (hd : NoSmaller d d') (hc : NoSafer d.decision ctx ctx')
    (hu : ctx'.fundingRate = none → config.fundingGate.blockIfFundingUnknown)
    (h : GatesClear A d' ctx' config) : GatesClear A d ctx config := by
  obtain ⟨hliq, ho⟩ := gatesClear_iff.mp h
  rw [hd.liquidation] at hliq
  obtain ⟨c, hm, hcm⟩ := ho.martingala
  obtain ⟨c', hl, hcl⟩ := ho.escalation
  rw [hc.lastTrade.1, hc.lastTrade.2] at hm
  rw [hc.lastAccountTrade.1, hc.lastAccountTrade.2] at hl
  have hmargin := (d.protected_of_execute hx).2.2
  have hleverage : 0 < d.leverage := d.leverage_range.1
  exact gatesClear_iff.mpr ⟨hliq, {
    daily := checkDrawdown_mono hc.daily ho.daily
    total := checkDrawdown_mono hc.total ho.total
    funding := checkFundingGate_mono hd.decision hc.funding hu ho.funding
    fee := checkFeeGate_mono hc.fees ho.fee
    openPositions := checkMaxOpenPositions_mono hd.decision hc.openPositions ho.openPositions
    martingala := checkAntiMartingala_mono hmargin hd.margin hm hcm
    escalation := checkAntiLeverageEscalation_mono hleverage hd.leverage hl hcl
    averaging := checkAntiAveraging_mono hc.openPnl ho.averaging }⟩

/-- A block is the answer to a trade that some gate is not clear for. -/
theorem validate_block (h : validateWith A d ctx config = .ok r) (hb : r.decision = .block) :
    d.execute ∧ ¬GatesClear A d ctx config := by
  unfold validateWith at h
  dsimp only at h
  split at h
  · rw [(RiskValidationResult.build_ok h).1] at hb
    cases hb
  rename_i hx
  refine ⟨not_not.mp hx, ?_⟩
  intro hclear
  obtain ⟨checks, hchecks, hclear⟩ := hclear
  have hnone : ¬checks.any (fun c => c.outcome = .block) := by
    intro hany
    obtain ⟨c, hc, hblock⟩ := List.any_eq_true.mp hany
    exact hclear c hc (of_decide_eq_true hblock)
  split at h
  · cases h
  rw [hchecks] at h
  dsimp only at h
  rw [if_neg hnone] at h
  split at h
  · split at h
    · cases h
    · rw [(RiskValidationResult.build_ok h).1] at hb
      cases hb
  · split at h
    · cases h
    · rw [(RiskValidationResult.build_ok h).1] at hb
      cases hb

/-- A trade that is blocked stays blocked for a larger size and in a riskier context. A funding
rate that is not known counts as the riskiest where the gate is set to judge it. -/
theorem validate_antitone (hd : NoSmaller d d') (hc : NoSafer d.decision ctx ctx')
    (hu : ctx'.fundingRate = none → config.fundingGate.blockIfFundingUnknown)
    (h : validateWith A d ctx config = .ok r) (hb : r.decision = .block)
    (h' : validateWith A d' ctx' config = .ok r') : ¬r'.decision.executable := by
  intro he
  obtain ⟨hx, hblocked⟩ := validate_block h hb
  obtain ⟨-, hclear, -⟩ := validate_executable h' he
  exact hblocked (gatesClear_mono hx hd hc hu hclear)

def lostContext : RiskContext := { sampleContext with dailyLossUsdt := 10 }

/-- The same loss and more of it in all, with nothing known of the rest. -/
def blindContext : RiskContext where
  dailyLossUsdt := 20
  totalLossUsdt := 20
  fundingRate := none
  openPositionsCount := none
  feeEstimate := none

theorem validate_antitone_sample : ∃ r r',
    validate sampleDecision lostContext defaultConfig = .ok r ∧ r.decision = .block ∧
    validate sampleDecision blindContext defaultConfig = .ok r' ∧ ¬r'.decision.executable := by
  have hb : (validate sampleDecision lostContext defaultConfig).toOption.map
      (fun r => r.decision) = some .block := by
    decide +kernel
  have hb' : (validate sampleDecision blindContext defaultConfig).toOption.isSome := by
    decide +kernel
  have hd : NoSmaller sampleDecision sampleDecision := ⟨rfl, le_rfl, le_rfl⟩
  have hc : NoSafer sampleDecision.decision lostContext blindContext := by
    refine ⟨by decide +kernel, by decide +kernel, trivial, trivial, trivial, ?_, ⟨rfl, rfl⟩,
      ⟨rfl, rfl⟩⟩
    intro pnl hp
    cases hp
  obtain ⟨r, hv, hblock⟩ := ok_of_map hb
  obtain ⟨r', hv'⟩ := ok_of_isSome hb'
  exact ⟨r, r', hv, hblock, hv', validate_antitone hd hc (fun _ => rfl) hv hblock hv'⟩

end FuturesBot
