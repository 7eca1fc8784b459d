import FuturesBot.Exchange.Schemas

namespace FuturesBot

inductive PositionTriggerReason
  | none | slHit | tpHit | tpPartial | trailingSlHit | setupInvalidated
  deriving DecidableEq, Repr

inductive TrailingMode
  | fixed | percent | atr
  deriving DecidableEq, Repr

/-- `closeFraction` is a fraction of what is still open when the level fires. -/
structure TakeProfitLevel where
  price : Amount
  closeFraction : Amount
  price_pos : 0 < price
  fraction_range : 0 < closeFraction ∧ closeFraction ≤ 1

structure InvalidationActionFields where
  newSl : Option Amount := none
  closeFraction : Amount := 0

def InvalidationActionFields.Valid (f : InvalidationActionFields) : Prop :=
  (∀ p ∈ f.newSl, 0 < p) ∧ 0 ≤ f.closeFraction ∧ f.closeFraction ≤ 1 ∧
  ¬(f.newSl = none ∧ f.closeFraction = 0)

instance (f : InvalidationActionFields) : Decidable f.Valid :=
  inferInstanceAs (Decidable (_ ∧ _))

structure InvalidationAction extends InvalidationActionFields where
  valid : toInvalidationActionFields.Valid

structure PositionConfigFields where
  symbol : Symbol
  stopLoss : Option Amount := none
  takeProfit : Option Amount := none
  takeProfitLevels : List TakeProfitLevel := []
  trailingDelta : Option Amount := none
  trailingPercent : Option Amount := none
  trailingAtr : Option Amount := none
  trailingAtrMultiplier : Option Amount := none
  trailingAtrDynamic : Bool := false
  trailingAtrSmoothingAlpha : Option Amount := none
  beTriggerDelta : Option Amount := none
  beSlOffset : Amount := 0
  invalidationAction : Option InvalidationAction := none
  invalidationPrice : Option Amount := none

namespace PositionConfigFields

/-- ATR mode is a static reference value or the live feed. -/
def hasAtrMode (f : PositionConfigFields) : Bool := f.trailingAtr.isSome || f.trailingAtrDynamic

def trailingCount (f : PositionConfigFields) : ℕ :=
  f.trailingDelta.isSome.toNat + f.trailingPercent.isSome.toNat + f.hasAtrMode.toNat

/-- The active mode, read off which parameter is set. -/
def resolvedTrailingMode (f : PositionConfigFields) : Option TrailingMode :=
  if f.trailingDelta.isSome then some .fixed
  else if f.trailingPercent.isSome then some .percent
  else if f.hasAtrMode then some .atr
  else none

/-- The parameter that goes with a mode. -/
theorem resolvedTrailingMode_parameter {f : PositionConfigFields}
    (h : f.resolvedTrailingMode = some mode) :
    match mode with
    | .fixed => ∃ d, f.trailingDelta = some d
    | .percent => ∃ p, f.trailingPercent = some p
    | .atr => f.hasAtrMode := by
  unfold PositionConfigFields.resolvedTrailingMode at h
  split at h
  · rename_i hd
    cases h
    exact Option.isSome_iff_exists.mp hd
  · split at h
    · rename_i hp
      cases h
      exact Option.isSome_iff_exists.mp hp
    · split at h
      · rename_i ha
        cases h
        exact ha
      · cases h

/-- The bounds of the single fields. -/
def FieldsInRange (f : PositionConfigFields) : Prop :=
  (∀ p ∈ f.stopLoss, 0 < p) ∧ (∀ p ∈ f.takeProfit, 0 < p) ∧ (∀ d ∈ f.trailingDelta, 0 < d) ∧
  (∀ p ∈ f.trailingPercent, 0 < p ∧ p < 1) ∧ (∀ a ∈ f.trailingAtr, 0 < a) ∧
  (∀ m ∈ f.trailingAtrMultiplier, 0 < m) ∧
  (∀ a ∈ f.trailingAtrSmoothingAlpha, 0 < a ∧ a ≤ 1) ∧ (∀ d ∈ f.beTriggerDelta, 0 < d) ∧
  0 ≤ f.beSlOffset ∧ (∀ p ∈ f.invalidationPrice, 0 < p)

/-- `validateConfig`: the rules between fields, in the source's order. Nothing
here relates the levels to each other or to the side of the position. -/
def Coherent (f : PositionConfigFields) : Prop :=
  ¬(f.takeProfit.isSome ∧ f.takeProfitLevels ≠ []) ∧
  f.trailingCount ≤ 1 ∧
  (f.trailingAtrMultiplier.isSome → f.hasAtrMode) ∧
  (f.trailingAtrSmoothingAlpha.isSome → f.hasAtrMode) ∧
  (f.stopLoss.isSome ∨ f.takeProfit.isSome ∨ f.takeProfitLevels ≠ [] ∨ 0 < f.trailingCount) ∧
  ¬(0 < f.beSlOffset ∧ f.beTriggerDelta = none) ∧
  (∀ d ∈ f.beTriggerDelta, f.beSlOffset < d) ∧
  (f.invalidationPrice.isSome → f.invalidationAction.isSome)

def Valid (f : PositionConfigFields) : Prop := f.FieldsInRange ∧ f.Coherent

instance (f : PositionConfigFields) : Decidable f.FieldsInRange :=
  inferInstanceAs (Decidable (_ ∧ _))

instance : Decidable (l ≠ ([] : List TakeProfitLevel)) :=
  decidable_of_iff (l.isEmpty = false) (by simp)

instance (f : PositionConfigFields) : Decidable f.Coherent :=
  inferInstanceAs (Decidable (_ ∧ _))

instance (f : PositionConfigFields) : Decidable f.Valid :=
  inferInstanceAs (Decidable (_ ∧ _))

end PositionConfigFields

structure PositionConfig extends PositionConfigFields where
  valid : toPositionConfigFields.Valid

def PositionConfig.build (f : PositionConfigFields) : Except PyError PositionConfig :=
  if h : f.Valid then .ok ⟨f, h⟩ else .error (.validationError "PositionConfig")

theorem PositionConfig.build_ok (h : PositionConfig.build f = .ok c) :
    c.toPositionConfigFields = f := by
  unfold PositionConfig.build at h
  split at h <;> cases h
  rfl

structure InvalidationEvent where
  symbol : Symbol
  markPrice : Amount
  oldSl : Option Amount
  newSl : Option Amount
  closedFraction : Option Amount
  closeOrderId : Option ClientOrderId

/-- What one tick did for one symbol. -/
structure TickResult where
  symbol : Symbol
  trigger : PositionTriggerReason
  markPrice : Amount
  closeOrderId : Option ClientOrderId := none
  tpLevelIndex : Option ℕ := none
  closedFraction : Option Amount := none

def TickResult.idle (symbol : Symbol) (markPrice : Amount) : TickResult :=
  { symbol := symbol, trigger := .none, markPrice := markPrice }

end FuturesBot
