import FuturesBot.Positions.ConfigMapper
import FuturesBot.Positions.Trailing

namespace FuturesBot

/-- The distances that the exits of a position are measured by, those that a trailing mode
derives from the price included. -/
structure PositionConfig.DistancesPositive (c : PositionConfig) : Prop where
  trigger : ∀ d ∈ c.beTriggerDelta, 0 < d
  offset : c.beTriggerDelta.isSome → 0 < c.beSlOffset
  trailing : ∀ mode, c.resolvedTrailingMode = some mode → ∀ reference, 0 < reference →
    ∃ delta, resolveTrailingDelta mode reference c.trailingDelta c.trailingPercent c.trailingAtr
      c.trailingAtrMultiplier = .ok delta ∧ 0 < delta

/-- The parameters of a valid configuration that does not wait for a live ATR give a distance. -/
theorem PositionConfig.trailing_pos (c : PositionConfig) (hstatic : ¬c.trailingAtrDynamic)
    (hmode : c.resolvedTrailingMode = some mode) (hreference : 0 < reference) :
    ∃ delta, resolveTrailingDelta mode reference c.trailingDelta c.trailingPercent c.trailingAtr
      c.trailingAtrMultiplier = .ok delta ∧ 0 < delta := by
  obtain ⟨-, -, hdelta, hpercent, hatr, hmultiplier, -⟩ := c.valid.1
  have hparameter := PositionConfigFields.resolvedTrailingMode_parameter hmode
  cases mode with
  | fixed =>
    obtain ⟨d, hd⟩ := hparameter
    exact ⟨d, by rw [hd]; rfl, hdelta d hd⟩
  | percent =>
    obtain ⟨p, hp⟩ := hparameter
    exact ⟨reference * p, by rw [hp]; rfl, mul_pos hreference (hpercent p hp).1⟩
  | atr =>
    obtain ⟨a, ha⟩ : ∃ a, c.trailingAtr = some a := by
      simpa [PositionConfigFields.hasAtrMode, hstatic, Option.isSome_iff_exists] using hparameter
    have hfactor : 0 < c.trailingAtrMultiplier.getD 1 := by
      cases hm : c.trailingAtrMultiplier with
      | none => exact one_pos
      | some m => exact hmultiplier m hm
    exact ⟨a * c.trailingAtrMultiplier.getD 1, by rw [ha]; rfl, mul_pos (hatr a ha) hfactor⟩

/-- The fees of a round trip widen the offset up to half the distance of the trigger. -/
theorem breakEvenParameters_offset (hentry : 0 < entry) (hatr : 0 < atr)
    (h : breakEvenParameters be defaults entry (some atr) = .ok (delta, offset)) :
    ∀ d ∈ delta, 0 < offset ∧ offset ≤ d / 2 := by
  unfold breakEvenParameters at h
  split at h
  · cases h
    rintro d ⟨⟩
    have htrigger := mul_pos hatr defaults.be_multiplier_pos
    have hhalf : (0 : Amount) < beSlOffsetMaxFractionOfTrigger := by
      norm_num [beSlOffsetMaxFractionOfTrigger]
    refine ⟨lt_min (mul_pos hentry defaults.be_offset_range.1) (mul_pos htrigger hhalf), ?_⟩
    refine (min_le_right _ _).trans ?_
    rw [beSlOffsetMaxFractionOfTrigger, mul_one_div]
  · cases h
    rintro d ⟨⟩

/-- The parts that a configuration has been built from. -/
theorem buildPositionConfig_parts
    (h : buildPositionConfig s sl tp trail be defaults entry atr = .ok c) :
    breakEvenParameters be defaults entry atr = .ok (c.beTriggerDelta, c.beSlOffset) ∧
    c.trailingAtrDynamic = false := by
  unfold buildPositionConfig at h
  split at h
  · cases h
  · split at h
    · cases h
    · rename_i hbreakEven
      have hfields := PositionConfig.build_ok h
      rw [hfields]
      exact ⟨hbreakEven, rfl⟩

/-- Whatever the plan asks for, its exits are valid and their distances positive. -/
theorem plannedExits_valid {entry sl tp atr : Amount} (hentry : 0 < entry) (hsl : 0 < sl)
    (htp : 0 < tp) (hatr : 0 < atr) (symbol : Symbol) (useTrailingStop moveToBreakEven : Bool)
    (defaults : PositionManagementConfig) :
    ∃ c, buildPositionConfig symbol sl tp useTrailingStop moveToBreakEven defaults entry
        (some atr) = .ok c ∧
      c.toPositionConfigFields.Valid ∧ (∀ d ∈ c.beTriggerDelta, c.beSlOffset ≤ d / 2) ∧
      c.DistancesPositive := by
  obtain ⟨c, hc⟩ : ∃ c, buildPositionConfig symbol sl tp useTrailingStop moveToBreakEven defaults
      entry (some atr) = .ok c :=
    (buildPositionConfig_iff hentry.le).mpr ⟨hsl, htp, fun _ => hatr⟩
  obtain ⟨hbreakEven, hstatic⟩ := buildPositionConfig_parts hc
  have hoffset := breakEvenParameters_offset hentry hatr hbreakEven
  refine ⟨c, hc, c.valid, fun d hd => (hoffset d hd).2, ?_⟩
  exact
    { trigger := c.valid.1.2.2.2.2.2.2.2.1
      offset := fun hsome => by
        obtain ⟨d, hd⟩ := Option.isSome_iff_exists.mp hsome
        exact (hoffset d hd).1
      trailing := fun mode hmode reference hreference =>
        c.trailing_pos (by simp [hstatic]) hmode hreference }

/-- Where the price hardly moves, the fees would reach beyond half the trigger. -/
theorem calm_exits_valid :
    ∃ c, buildPositionConfig "BTCUSDT" 95 110 true true defaultConfig.positionManagement 100
        (some (1 / 10)) = .ok c ∧
      c.toPositionConfigFields.Valid ∧ (∀ d ∈ c.beTriggerDelta, c.beSlOffset ≤ d / 2) ∧
      c.DistancesPositive :=
  plannedExits_valid (by norm_num) (by norm_num) (by norm_num) (by norm_num) _ _ _ _

end FuturesBot
