import FuturesBot.Risk.Liquidation

namespace FuturesBot
open Lib

/-- A long whose declared liquidation is at a price of zero, which the distances of the
configuration let through to the division by it. -/
def LiquidationAtZero (A : Arithmetic) (d : ModelDecision) (c : LiquidationSafetyConfig) : Prop :=
  c.enabled ∧ d.decision = .long ∧
  A.float (A.float.div d.liquidationDistancePercentEstimated 100) = 1 ∧
  c.minDistanceEntryToLiquidationPercent ≤ d.liquidationDistancePercentEstimated

variable {A : Arithmetic}

theorem slBufferPercent_returns_iff (sl liqPrice : Amount) (direction : DecisionType) :
    (∃ b, slBufferPercent A sl liqPrice direction = .ok b) ↔ liqPrice ≠ 0 := by
  unfold slBufferPercent
  by_cases h0 : liqPrice = 0
  · rw [if_pos h0]
    exact ⟨fun h => (by obtain ⟨b, hb⟩ := h; cases hb), fun h => absurd h0 h⟩
  · rw [if_neg h0]
    exact ⟨fun _ => h0, fun _ => ⟨_, rfl⟩⟩

/-- Only a long can be liquidated at zero, and only by a fall of the whole price. -/
theorem liquidationPrice_eq_zero_iff (hx : d.execute) :
    liquidationPrice A d = 0 ↔ d.decision = .long ∧
      A.float (A.float.div d.liquidationDistancePercentEstimated 100) = 1 := by
  have hentry := A.float.pos (d.entryPrice_pos hx)
  have hfraction : 0 ≤ A.float.div d.liquidationDistancePercentEstimated 100 :=
    A.float.zero_le_div d.valid.1.2.2.2.2.2.2.1 (by norm_num)
  unfold liquidationPrice estimateLiquidationPrice
  dsimp only
  split
  · rename_i hlong
    rw [Rounding.mul, A.float.eq_zero_iff, mul_eq_zero, or_iff_right hentry.ne',
      A.float.eq_zero_iff, Rounding.sub, A.float.eq_zero_iff, sub_eq_zero, A.float.one]
    exact ⟨fun h => ⟨hlong, h.symm⟩, fun h => h.2.symm⟩
  · rename_i hlong
    have hrise : 0 < A.float.add 1 (A.float.div d.liquidationDistancePercentEstimated 100) := by
      refine A.float.pos (add_pos_of_pos_of_nonneg ?_ (A.float.nonneg hfraction))
      rw [A.float.one]
      exact one_pos
    have hprice : 0 < A.float.mul d.entryPrice
        (A.float.add 1 (A.float.div d.liquidationDistancePercentEstimated 100)) :=
      A.float.pos (mul_pos hentry (A.float.pos hrise))
    exact ⟨fun h => absurd h hprice.ne', fun h => absurd h.1 hlong⟩

theorem checkLiquidationSafety_atZero {c : LiquidationSafetyConfig} (hx : d.execute)
    (h : LiquidationAtZero A d c) : checkLiquidationSafety A d c = .error .zeroDivisionError := by
  obtain ⟨he, hlong, hdist, hmin⟩ := h
  have hsl := (d.protected_of_execute hx).1
  have hentry := d.entryPrice_pos hx
  have hprice : liquidationPrice A d = 0 := (liquidationPrice_eq_zero_iff hx).mpr ⟨hlong, hdist⟩
  have hpast : ¬slIsPastLiquidation A d.stopLoss 0 .long := by
    simpa [slIsPastLiquidation] using A.float.pos hsl
  have hbuffer : slBufferPercent A d.stopLoss 0 .long = .error .zeroDivisionError := by
    unfold slBufferPercent
    exact if_pos rfl
  have hn : d.liquidationDistancePercentEstimated ≠ 0 := by
    intro h0
    rw [h0, Rounding.div, A.float.zero, zero_div, A.float.zero, A.float.zero] at hdist
    exact zero_ne_one hdist
  unfold checkLiquidationSafety
  dsimp only
  rw [liquidationPrice_eq, hprice, hlong, if_neg (not_not.mpr he), if_neg (by decide),
    if_neg (fun h => absurd h.2 (not_le.mpr hsl)), if_neg hn, if_neg (not_le.mpr hentry),
    if_neg hpast, if_neg (not_lt.mpr hmin), hbuffer]

theorem checkLiquidationSafety_error {c : LiquidationSafetyConfig} (hx : d.execute)
    (h : checkLiquidationSafety A d c = .error e) : LiquidationAtZero A d c := by
  unfold checkLiquidationSafety at h
  dsimp only at h
  split at h
  · cases h
  rename_i he
  repeat' split at h
  all_goals try cases h
  rename_i hbuffer
  have hmin : ¬d.liquidationDistancePercentEstimated < c.minDistanceEntryToLiquidationPercent := by
    assumption
  have hprice : liquidationPrice A d = 0 := by
    by_contra hn
    obtain ⟨b, hb⟩ := (slBufferPercent_returns_iff d.stopLoss _ d.decision).mpr hn
    cases hb.symm.trans hbuffer
  obtain ⟨hlong, hdist⟩ := (liquidationPrice_eq_zero_iff hx).mp hprice
  exact ⟨not_not.mp he, hlong, hdist, not_lt.mp hmin⟩

/-- The gate on liquidation answers every decision to trade but a long that is liquidated at
zero. -/
theorem checkLiquidationSafety_returns_iff (hx : d.execute) (c : LiquidationSafetyConfig) :
    (∃ r, checkLiquidationSafety A d c = .ok r) ↔ ¬LiquidationAtZero A d c := by
  constructor
  · intro h hzero
    obtain ⟨r, hr⟩ := h
    cases hr.symm.trans (checkLiquidationSafety_atZero hx hzero)
  · intro hzero
    rcases h : checkLiquidationSafety A d c with err | r
    · exact absurd (checkLiquidationSafety_error hx h) hzero
    · exact ⟨r, rfl⟩

theorem checkAntiMartingala_returns (hm : 0 < margin) (hl : ∀ m ∈ last, (0 : Amount) < m) :
    ∃ c, checkAntiMartingala margin pnl last = .ok c := by
  have hlast : ¬∃ m ∈ last, m ≤ 0 := by
    intro h
    obtain ⟨m, hm, hle⟩ := h
    exact absurd (hl m hm) (not_lt.mpr hle)
  unfold checkAntiMartingala
  dsimp only
  rw [if_neg (not_le.mpr hm), if_neg hlast]
  repeat' split
  all_goals exact ⟨_, rfl⟩

theorem checkAntiLeverageEscalation_returns (hm : 0 < leverage) (hl : ∀ l ∈ last, (0 : ℤ) < l) :
    ∃ c, checkAntiLeverageEscalation leverage pnl last = .ok c := by
  have hlast : ¬∃ l ∈ last, l ≤ 0 := by
    intro h
    obtain ⟨l, hm, hle⟩ := h
    exact absurd (hl l hm) (not_lt.mpr hle)
  unfold checkAntiLeverageEscalation
  dsimp only
  rw [if_neg (not_le.mpr hm), if_neg hlast]
  repeat' split
  all_goals exact ⟨_, rfl⟩

/-- The block phase returns unless the gate on liquidation raises. -/
theorem blockChecks_returns_iff (hx : d.execute) (hm : ∀ m ∈ ctx.lastTradeMarginUsdt, 0 < m)
    (hl : ∀ l ∈ ctx.lastAccountTradeLeverage, 0 < l) (config : AppConfig) :
    (∃ checks, blockChecks A d ctx config = .ok checks) ↔
      ¬LiquidationAtZero A d config.liquidationSafety := by
  rw [← checkLiquidationSafety_returns_iff hx]
  constructor
  · intro h
    obtain ⟨checks, h⟩ := h
    obtain ⟨liquidation, _, _, hliq, -⟩ := blockChecks_ok h
    exact ⟨liquidation, hliq⟩
  · intro h
    obtain ⟨liquidation, hliq⟩ := h
    have hlev : 0 < d.leverage := d.leverage_range.1
    have hmart : ∃ c, checkAntiMartingala d.marginUsdt ctx.lastTradePnlUsdt
        ctx.lastTradeMarginUsdt = .ok c :=
      checkAntiMartingala_returns (d.protected_of_execute hx).2.2 hm
    have hesc : ∃ c, checkAntiLeverageEscalation d.leverage ctx.lastAccountTradePnlUsdt
        ctx.lastAccountTradeLeverage = .ok c :=
      checkAntiLeverageEscalation_returns hlev hl
    obtain ⟨martingala, hmart⟩ := hmart
    obtain ⟨escalation, hesc⟩ := hesc
    simp only [blockChecks, hliq, hmart, hesc, bind, Except.bind, pure, Except.pure]
    exact ⟨_, rfl⟩

/-- Where the block phase returns, so does the engine, if the caps leave room for a trade. -/
theorem validate_returns (hx : d.execute) (hs : Sizable ctx config)
    (hchecks : blockChecks A d ctx config = .ok checks) :
    ∃ r, validateWith A d ctx config = .ok r := by
  by_cases hb : checks.any (fun c => c.outcome = .block)
  · obtain ⟨-, -, hdaily, htotal⟩ := hs
    have hm := (d.protected_of_execute hx).2.2
    have hne := auditReasons_blockChecks hchecks []
    rw [List.append_nil] at hne
    unfold validateWith
    dsimp only
    rw [if_neg (not_not.mpr hx), if_neg (not_le.mpr hm), hchecks]
    dsimp only
    rw [if_pos hb]
    refine ⟨_, dif_pos ?_⟩
    refine ⟨⟨hm.le, d.margin_range.2⟩, d.leverage_range, by simpa using hdaily,
      by simpa using htotal, hne, d.symbol_allowed, rfl, fun _ => hm, ?_⟩
    intro h
    cases h
  · have hclear : GatesClear A d ctx config := by
      refine ⟨checks, hchecks, ?_⟩
      intro c hc hblock
      exact hb (List.any_eq_true.mpr ⟨c, hc, decide_eq_true hblock⟩)
    obtain ⟨r, hr, -⟩ := validate_of_gatesClear hx hclear hs
    exact ⟨r, hr⟩

/-- The engine answers every decision to trade but a long whose liquidation is declared at a
price of zero. -/
theorem validate_returns_iff (hx : d.execute) (hs : Sizable ctx config)
    (hm : ∀ m ∈ ctx.lastTradeMarginUsdt, 0 < m) (hl : ∀ l ∈ ctx.lastAccountTradeLeverage, 0 < l) :
    (∃ r, validateWith A d ctx config = .ok r) ↔ ¬LiquidationAtZero A d config.liquidationSafety := by
  rw [← blockChecks_returns_iff hx hm hl]
  constructor
  · intro h
    obtain ⟨r, hr⟩ := h
    have hmpos := (d.protected_of_execute hx).2.2
    unfold validateWith at hr
    dsimp only at hr
    rw [if_neg (not_not.mpr hx), if_neg (not_le.mpr hmpos)] at hr
    rcases hchecks : blockChecks A d ctx config with err | checks
    · rw [hchecks] at hr
      cases hr
    · exact ⟨checks, rfl⟩
  · intro h
    obtain ⟨checks, hchecks⟩ := h
    exact validate_returns hx hs hchecks

/-- The sample long with the distance that its margin alone covers. -/
def unleveredDecision : ModelDecision :=
  { sampleDecision with
    leverage := 1
    liquidationDistancePercentEstimated := 100
    valid := by decide +kernel }

theorem sample_sizable : Sizable sampleContext defaultConfig := by
  unfold Sizable
  decide +kernel

theorem validate_returns_sample :
    (∃ r, validate sampleDecision sampleContext defaultConfig = .ok r) ∧
    ¬∃ r, validate unleveredDecision sampleContext defaultConfig = .ok r := by
  have hm : ∀ m ∈ sampleContext.lastTradeMarginUsdt, 0 < m := by
    intro m h
    cases h
  have hl : ∀ l ∈ sampleContext.lastAccountTradeLeverage, 0 < l := by
    intro l h
    cases h
  refine ⟨?_, ?_⟩
  · rw [validate_returns_iff rfl sample_sizable hm hl]
    intro h
    exact absurd h.2.2.1 (by decide +kernel)
  · rw [validate_returns_iff rfl sample_sizable hm hl, not_not]
    exact ⟨rfl, rfl, by decide +kernel, by decide +kernel⟩

/-- What the engine would have to do. -/
def AlwaysReturns (A : Arithmetic) : Prop :=
  ∀ d ctx config, d.execute → Sizable ctx config → (∀ m ∈ ctx.lastTradeMarginUsdt, 0 < m) →
    (∀ l ∈ ctx.lastAccountTradeLeverage, 0 < l) → ∃ r, validateWith A d ctx config = .ok r

/-- A long without leverage, liquidated only at zero, makes the engine divide by zero, in exact
arithmetic too. -/
theorem unlevered_long_raises : ¬AlwaysReturns .exact ∧ ¬AlwaysReturns .python := by
  have hm : ∀ m ∈ sampleContext.lastTradeMarginUsdt, 0 < m := by
    intro m h
    cases h
  have hl : ∀ l ∈ sampleContext.lastAccountTradeLeverage, 0 < l := by
    intro l h
    cases h
  have hfails : ∀ A : Arithmetic, (validateWith A unleveredDecision sampleContext
      defaultConfig).toOption.isNone → ¬AlwaysReturns A := by
    intro A herr h
    obtain ⟨r, hr⟩ := h unleveredDecision sampleContext defaultConfig rfl sample_sizable hm hl
    rw [hr] at herr
    cases herr
  exact ⟨hfails .exact (by decide +kernel), hfails .python (by decide +kernel)⟩

end FuturesBot
