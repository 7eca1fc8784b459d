import FuturesBot.Core.Config
import Mathlib.Tactic.Linarith
import Mathlib.Tactic.Positivity

namespace FuturesBot

/-- The break-even offset is kept below this fraction of its trigger. -/
def beSlOffsetMaxFractionOfTrigger : Amount := 1 / 2

/-- The trailing parameters of a position: a percentage, or the reference ATR with
its multiplier. -/
def trailingParameters (useTrailingStop : Bool) (defaults : PositionManagementConfig)
    (atr1h : Option Amount) : Except PyError (Option Amount × Option (Amount × Amount)) :=
  if useTrailingStop ∧ defaults.trailingStopEnabled then
    match defaults.trailingDefaultMode with
    | .fixed => .error (.valueError "trailing_default_mode=FIXED no tiene un valor default")
    | .percent => .ok (some defaults.trailingDefaultPercent, none)
    | .atr => match atr1h with
      | none => .error (.valueError "trailing_default_mode=ATR requiere atr_1h")
      | some atr => .ok (none, some (atr, defaults.trailingDefaultAtrMultiplier))
  else .ok (none, none)

/-- The distance that triggers the break-even, and the offset from the entry at
which it puts the stop. -/
def breakEvenParameters (moveToBreakEven : Bool) (defaults : PositionManagementConfig)
    (entryPrice : Amount) (atr1h : Option Amount) : Except PyError (Option Amount × Amount) :=
  if moveToBreakEven ∧ defaults.breakEvenEnabled then
    match atr1h with
    | none => .error (.valueError "move_to_break_even requiere atr_1h")
    | some atr =>
      let beTriggerDelta := atr * defaults.beTriggerAtrMultiplier
      let feeBuffer := entryPrice * defaults.beSlOffsetPercent
      let maxOffset := beTriggerDelta * beSlOffsetMaxFractionOfTrigger
      .ok (some beTriggerDelta, min feeBuffer maxOffset)
  else .ok (none, 0)

def buildPositionConfig (symbol : Symbol) (stopLoss takeProfit : Amount)
    (useTrailingStop moveToBreakEven : Bool) (defaults : PositionManagementConfig)
    (entryPrice : Amount) (atr1h : Option Amount) : Except PyError PositionConfig :=
  match trailingParameters useTrailingStop defaults atr1h with
  | .error e => .error e
  | .ok (percent, atrMode) =>
    match breakEvenParameters moveToBreakEven defaults entryPrice atr1h with
    | .error e => .error e
    | .ok (beTriggerDelta, beSlOffset) =>
      PositionConfig.build
        { symbol := symbol, stopLoss := some stopLoss, takeProfit := some takeProfit,
          trailingPercent := percent, trailingAtr := atrMode.map (·.1),
          trailingAtrMultiplier := atrMode.map (·.2), beTriggerDelta := beTriggerDelta,
          beSlOffset := beSlOffset }

theorem buildPositionConfig_symbol
    (h : buildPositionConfig s sl tp trail be defaults entry atr = .ok c) : c.symbol = s := by
  unfold buildPositionConfig at h
  split at h
  · cases h
  · split at h
    · cases h
    · rw [PositionConfig.build_ok h]

/-- The exits of the plan are measured by the ATR. -/
def UsesAtr (useTrailingStop moveToBreakEven : Bool) (defaults : PositionManagementConfig) : Prop :=
  (useTrailingStop ∧ defaults.trailingStopEnabled ∧ defaults.trailingDefaultMode = .atr) ∨
  (moveToBreakEven ∧ defaults.breakEvenEnabled)

instance : Decidable (UsesAtr trail be defaults) := inferInstanceAs (Decidable (_ ∨ _))

/-- What a trailing mode adds to a configuration keeps it valid, if the ATR that it
takes over is positive. -/
theorem trailingParameters_ok (defaults : PositionManagementConfig) (trail : Bool) (atr : Amount) :
    ∃ percent atrMode, trailingParameters trail defaults (some atr) = .ok (percent, atrMode) ∧
      (∀ p ∈ percent, 0 < p ∧ p < 1) ∧ (∀ m ∈ atrMode, m.1 = atr ∧ 0 < m.2) ∧
      percent.isSome.toNat + atrMode.isSome.toNat ≤ 1 ∧
      (atrMode.isSome ↔ trail ∧ defaults.trailingStopEnabled ∧
        defaults.trailingDefaultMode = .atr) := by
  unfold trailingParameters
  by_cases hu : trail ∧ defaults.trailingStopEnabled
  · rw [if_pos hu]
    cases hm : defaults.trailingDefaultMode with
    | fixed => exact absurd hm defaults.not_fixed
    | percent => exact ⟨_, _, rfl, by simpa using defaults.percent_range, by simp, by simp, by simp⟩
    | atr =>
      have hm := defaults.atr_multiplier_pos
      exact ⟨_, _, rfl, by simp, by simpa using hm, by simp, by simpa using hu⟩
  · rw [if_neg hu]
    exact ⟨_, _, rfl, by simp, by simp, by simp, by simpa using fun h h' => absurd ⟨h, h'⟩ hu⟩

/-- The offset of the break-even fits under its trigger for every positive ATR. -/
theorem breakEvenParameters_ok (defaults : PositionManagementConfig) (be : Bool)
    (he : 0 ≤ entry) (atr : Amount) :
    ∃ delta offset, breakEvenParameters be defaults entry (some atr) = .ok (delta, offset) ∧
      (delta.isSome ↔ be ∧ defaults.breakEvenEnabled) ∧ (delta = none → offset = 0) ∧
      (∀ d ∈ delta, (0 < d ↔ 0 < atr) ∧ (0 < d → 0 ≤ offset ∧ offset < d)) := by
  unfold breakEvenParameters
  by_cases hu : be ∧ defaults.breakEvenEnabled
  · rw [if_pos hu]
    refine ⟨_, _, rfl, by simpa using hu, by simp, ?_⟩
    rintro d ⟨⟩
    have hb := defaults.be_multiplier_pos
    have hp := defaults.be_offset_range.1
    refine ⟨⟨(mul_pos_iff_of_pos_right hb).mp, fun h => mul_pos h hb⟩, ?_⟩
    intro hd
    have hh : (0 : Amount) < beSlOffsetMaxFractionOfTrigger := by
      norm_num [beSlOffsetMaxFractionOfTrigger]
    refine ⟨le_min (mul_nonneg he hp.le) (mul_pos hd hh).le, ?_⟩
    refine lt_of_le_of_lt (min_le_right _ _) ?_
    exact mul_lt_of_lt_one_right hd (by norm_num [beSlOffsetMaxFractionOfTrigger])
  · rw [if_neg hu]
    exact ⟨_, _, rfl, by simpa using hu, by simp, by simp⟩

/-- With an ATR at hand the configuration is built exactly when the two prices are
positive, and the ATR too where the plan uses it. -/
theorem buildPositionConfig_iff (hs : 0 ≤ entry) :
    (∃ c, buildPositionConfig s sl tp trail be defaults entry (some atr) = .ok c) ↔
      0 < sl ∧ 0 < tp ∧ (UsesAtr trail be defaults → 0 < atr) := by
  obtain ⟨percent, atrMode, ht, hpercent, hatr, hone, hmode⟩ :=
    trailingParameters_ok defaults trail atr
  obtain ⟨delta, offset, hb, hdelta, hnone, hd⟩ := breakEvenParameters_ok defaults be hs atr
  simp only [buildPositionConfig, ht, hb, PositionConfig.build]
  constructor
  · intro hex
    obtain ⟨c, h⟩ := hex
    split at h
    · rename_i hv
      obtain ⟨⟨hsl, htp, _, _, htrail, _, _, hbe, _⟩, _⟩ := hv
      refine ⟨hsl sl rfl, htp tp rfl, ?_⟩
      rintro (hu | hu)
      · obtain ⟨m, rfl⟩ := Option.isSome_iff_exists.mp (hmode.mpr hu)
        have := htrail m.1 rfl
        rwa [(hatr m rfl).1] at this
      · obtain ⟨d, rfl⟩ := Option.isSome_iff_exists.mp (hdelta.mpr hu)
        exact (hd d rfl).1.mp (hbe d rfl)
    · cases h
  · intro hboth
    obtain ⟨hsl, htp, hu⟩ := hboth
    have hm : ∀ m ∈ atrMode, 0 < m.1 := by
      intro m hm
      rw [(hatr m hm).1]
      exact hu (.inl (hmode.mp (Option.isSome_of_mem hm)))
    have hpos : ∀ d ∈ delta, 0 < d := fun d hm =>
      (hd d hm).1.mpr (hu (.inr (hdelta.mp (Option.isSome_of_mem hm))))
    have hoff : 0 ≤ offset ∧ ∀ d ∈ delta, offset < d := by
      cases delta with
      | none => simp [hnone rfl]
      | some d =>
        obtain ⟨h0, hlt⟩ := (hd d rfl).2 (hpos d rfl)
        exact ⟨h0, by simpa using hlt⟩
    refine ⟨_, dif_pos ⟨⟨by simpa using hsl, by simpa using htp, by simp, hpercent, ?_, ?_, by simp,
      hpos, hoff.1, by simp⟩, by simp, ?_, ?_, by simp, by simp, ?_, hoff.2, by simp⟩⟩
    · simpa using fun a b h => hm (a, b) h
    · simpa using fun b a h => (hatr (a, b) h).2
    · simpa [PositionConfigFields.trailingCount, PositionConfigFields.hasAtrMode] using hone
    · simp [PositionConfigFields.hasAtrMode]
    · intro hboth
      obtain ⟨hlt, hn⟩ := hboth
      exact absurd (hnone hn) hlt.ne'

end FuturesBot
