import FuturesBot.Positions.Schemas
import Mathlib.Tactic.Linarith

namespace FuturesBot

/-- The best price seen so far: highest for a long, lowest for a short. -/
def updateHighWater (side : OrderSide) (markPrice : Amount) (highWater : Option Amount) : Amount :=
  match highWater with
  | none => markPrice
  | some hw => match side with
    | .buy => max markPrice hw
    | .sell => min markPrice hw

def trailingStopFromDelta (side : OrderSide) (highWater delta : Amount) : Amount :=
  match side with
  | .buy => highWater - delta
  | .sell => highWater + delta

/-- The distance of the stop from the reference price, by mode. -/
def resolveTrailingDelta (mode : TrailingMode) (referencePrice : Amount)
    (fixedDelta percent atrValue atrMultiplier : Option Amount) : Except PyError Amount :=
  match mode with
  | .fixed => match fixedDelta with
    | none => .error (.valueError "FIXED trailing requires fixed_delta.")
    | some d => .ok d
  | .percent => match percent with
    | none => .error (.valueError "PERCENT trailing requires percent.")
    | some p => .ok (referencePrice * p)
  | .atr => match atrValue with
    | none => .error (.valueError "ATR trailing requires atr_value.")
    | some a => .ok (a * atrMultiplier.getD 1)

/-- A price level protecting a position is crossed when the mark reaches it from
the favourable side. -/
def stopCrossed (side : OrderSide) (markPrice level : Amount) : Bool :=
  match side with
  | .buy => markPrice ≤ level
  | .sell => level ≤ markPrice

/-- A target is reached when the mark gets there in the direction of the position. -/
def targetReached (side : OrderSide) (markPrice level : Amount) : Bool :=
  match side with
  | .buy => level ≤ markPrice
  | .sell => markPrice ≤ level

def isTrailingStopHit (side : OrderSide) (markPrice trailingStop : Amount) : Bool :=
  stopCrossed side markPrice trailingStop

/-- The new stop once the price has moved `beTriggerDelta` in favour, unless the
current one is already at least as good. -/
def maybeMoveToBreakEven (side : OrderSide) (entryPrice markPrice beTriggerDelta : Amount)
    (currentSl : Option Amount) (beSlOffset : Amount) : Option Amount :=
  match side with
  | .buy =>
    if markPrice < entryPrice + beTriggerDelta then none
    else if ∃ sl ∈ currentSl, entryPrice + beSlOffset ≤ sl then none
    else some (entryPrice + beSlOffset)
  | .sell =>
    if entryPrice - beTriggerDelta < markPrice then none
    else if ∃ sl ∈ currentSl, sl ≤ entryPrice - beSlOffset then none
    else some (entryPrice - beSlOffset)

/-- A valid configuration always carries the parameter its own mode asks for,
except that the dynamic ATR may not have been seen yet. -/
theorem resolveTrailingDelta_total {c : PositionConfigFields}
    (hm : c.resolvedTrailingMode = some mode)
    (ha : mode = .atr → (atrValue : Option Amount).isSome) :
    ∃ d : Amount → Amount, ∀ hw, resolveTrailingDelta mode hw c.trailingDelta c.trailingPercent
      atrValue c.trailingAtrMultiplier = .ok (d hw) := by
  unfold PositionConfigFields.resolvedTrailingMode at hm
  split at hm
  · rename_i hd
    obtain ⟨d, hd⟩ := Option.isSome_iff_exists.mp hd
    cases hm
    exact ⟨fun _ => d, fun hw => by simp [resolveTrailingDelta, hd]⟩
  · split at hm
    · rename_i hp
      obtain ⟨p, hp⟩ := Option.isSome_iff_exists.mp hp
      cases hm
      exact ⟨fun hw => hw * p, fun hw => by simp [resolveTrailingDelta, hp]⟩
    · split at hm
      · cases hm
        obtain ⟨a, ha⟩ := Option.isSome_iff_exists.mp (ha rfl)
        exact ⟨fun _ => a * c.trailingAtrMultiplier.getD 1, fun hw => by
          simp [resolveTrailingDelta, ha]⟩
      · cases hm

/-- Break-even only ever moves the stop toward the favourable side. -/
theorem maybeMoveToBreakEven_improves
    (h : maybeMoveToBreakEven side entry mark delta (some sl) offset = some newSl) :
    stopCrossed side sl newSl := by
  cases side
  all_goals
    simp only [maybeMoveToBreakEven] at h
    split at h
    · cases h
    · split at h
      · cases h
      · rename_i hn
        cases h
        simp only [Option.mem_some_iff, exists_eq_left', not_le] at hn
        simpa [stopCrossed] using hn.le

end FuturesBot
