import FuturesBot.Lib.Locality
import FuturesBot.Positions.TickService

namespace FuturesBot
open Lib PositionManager

namespace PositionManager

/-- The two managers know the same of a symbol. -/
structure SameAt (s : Symbol) (m m' : PositionManager) : Prop where
  config : m.configs.get s = m'.configs.get s
  highWater : m.highWater.get s = m'.highWater.get s
  trailingStop : m.trailingStop.get s = m'.trailingStop.get s
  effectiveSl : m.effectiveSl.get s = m'.effectiveSl.get s
  effectiveTp : m.effectiveTp.get s = m'.effectiveTp.get s
  remaining : m.remainingTpLevels.get s = m'.remainingTpLevels.get s
  smoothedAtr : m.smoothedAtr.get s = m'.smoothedAtr.get s
  fired : s ∈ m.autoInvalidationFired ↔ s ∈ m'.autoInvalidationFired
  warnedAt : m.atrUnavailWarnedAt.get s = m'.atrUnavailWarnedAt.get s
  events : m.invalidationEvents.filter (·.symbol = s) = m'.invalidationEvents.filter (·.symbol = s)

namespace SameAt

theorem refl (s : Symbol) (m : PositionManager) : SameAt s m m :=
  ⟨rfl, rfl, rfl, rfl, rfl, rfl, rfl, .rfl, rfl, rfl⟩

theorem symm (h : SameAt s m m') : SameAt s m' m :=
  ⟨h.config.symm, h.highWater.symm, h.trailingStop.symm, h.effectiveSl.symm, h.effectiveTp.symm,
    h.remaining.symm, h.smoothedAtr.symm, h.fired.symm, h.warnedAt.symm, h.events.symm⟩

theorem trans (h : SameAt s m m') (h' : SameAt s m' m'') : SameAt s m m'' :=
  ⟨h.config.trans h'.config, h.highWater.trans h'.highWater,
    h.trailingStop.trans h'.trailingStop, h.effectiveSl.trans h'.effectiveSl,
    h.effectiveTp.trans h'.effectiveTp, h.remaining.trans h'.remaining,
    h.smoothedAtr.trans h'.smoothedAtr, h.fired.trans h'.fired, h.warnedAt.trans h'.warnedAt,
    h.events.trans h'.events⟩

theorem getEffectiveSl (h : SameAt s m m') : m.getEffectiveSl s = m'.getEffectiveSl s := by
  rw [PositionManager.getEffectiveSl, h.effectiveSl, PositionManager.getEffectiveSl]

theorem getEffectiveTp (h : SameAt s m m') : m.getEffectiveTp s = m'.getEffectiveTp s := by
  rw [PositionManager.getEffectiveTp, h.effectiveTp, PositionManager.getEffectiveTp]

theorem getRemainingTpLevels (h : SameAt s m m') :
    m.getRemainingTpLevels s = m'.getRemainingTpLevels s := by
  rw [PositionManager.getRemainingTpLevels, h.remaining, PositionManager.getRemainingTpLevels]

theorem dueTrigger (h : SameAt s m m') (c : PositionConfig) (side : OrderSide) (mark : Amount)
    (stop : Option Amount) :
    m.dueTrigger s c side mark stop = m'.dueTrigger s c side mark stop := by
  have hfired : (s ∉ m.autoInvalidationFired) = (s ∉ m'.autoInvalidationFired) :=
    propext (not_congr h.fired)
  unfold PositionManager.dueTrigger dueStopLoss dueInvalidation dueTakeProfit
  simp only [h.getEffectiveSl, h.getEffectiveTp, h.getRemainingTpLevels, hfired]

end SameAt

/-- A change of the maps of a symbol, which may depend on nothing else. -/
structure ChangesAt (s : Symbol) (f : PositionManager → PositionManager) : Prop where
  frame : ∀ s', s' ≠ s → ∀ m, SameAt s' m (f m)
  own : ∀ m m', SameAt s m m' → SameAt s (f m) (f m')

namespace ChangesAt

theorem id (s : Symbol) : ChangesAt s fun m => m :=
  ⟨fun s' _ m => .refl s' m, fun _ _ h => h⟩

theorem comp {f g : PositionManager → PositionManager} (hg : ChangesAt s g) (hf : ChangesAt s f) :
    ChangesAt s fun m => g (f m) :=
  ⟨fun s' hs m => (hf.frame s' hs m).trans (hg.frame s' hs _),
    fun m m' h => hg.own _ _ (hf.own m m' h)⟩

/-- What is read off the symbol may decide the change. -/
theorem read {α : Type*} {get : PositionManager → α} {f : α → PositionManager → PositionManager}
    (hget : ∀ m m', SameAt s m m' → get m = get m') (hf : ∀ a, ChangesAt s (f a)) :
    ChangesAt s fun m => f (get m) m where
  frame s' hs m := (hf _).frame s' hs m
  own m m' h := by
    rw [hget m m' h]
    exact (hf _).own m m' h

theorem setHighWater (s : Symbol) (hw : Amount) :
    ChangesAt s fun m => { m with highWater := m.highWater.set s hw } where
  frame s' hs m := { SameAt.refl s' m with highWater := (Dict.get_set_ne _ _ hs).symm }
  own m m' h := { h with highWater := by simp }

theorem setTrailingStop (s : Symbol) (stop : Amount) :
    ChangesAt s fun m => { m with trailingStop := m.trailingStop.set s stop } where
  frame s' hs m := { SameAt.refl s' m with trailingStop := (Dict.get_set_ne _ _ hs).symm }
  own m m' h := { h with trailingStop := by simp }

theorem setSmoothedAtr (s : Symbol) (atr : Amount) :
    ChangesAt s fun m => { m with smoothedAtr := m.smoothedAtr.set s atr } where
  frame s' hs m := { SameAt.refl s' m with smoothedAtr := (Dict.get_set_ne _ _ hs).symm }
  own m m' h := { h with smoothedAtr := by simp }

theorem setEffectiveSl (s : Symbol) (sl : Option Amount) :
    ChangesAt s fun m => { m with effectiveSl := m.effectiveSl.set s sl } where
  frame s' hs m := { SameAt.refl s' m with effectiveSl := (Dict.get_set_ne _ _ hs).symm }
  own m m' h := { h with effectiveSl := by simp }

theorem setEffectiveTp (s : Symbol) (tp : Option Amount) :
    ChangesAt s fun m => { m with effectiveTp := m.effectiveTp.set s tp } where
  frame s' hs m := { SameAt.refl s' m with effectiveTp := (Dict.get_set_ne _ _ hs).symm }
  own m m' h := { h with effectiveTp := by simp }

theorem setRemaining (s : Symbol) (levels : List TakeProfitLevel) :
    ChangesAt s fun m => { m with remainingTpLevels := m.remainingTpLevels.set s levels } where
  frame s' hs m := { SameAt.refl s' m with remaining := (Dict.get_set_ne _ _ hs).symm }
  own m m' h := { h with remaining := by simp }

theorem setWarnedAt (s : Symbol) (now : Seconds) :
    ChangesAt s fun m => { m with atrUnavailWarnedAt := m.atrUnavailWarnedAt.set s now } where
  frame s' hs m := { SameAt.refl s' m with warnedAt := (Dict.get_set_ne _ _ hs).symm }
  own m m' h := { h with warnedAt := by simp }

theorem insertFired (s : Symbol) :
    ChangesAt s fun m => { m with autoInvalidationFired := insert s m.autoInvalidationFired } where
  frame s' hs m := { SameAt.refl s' m with fired := by simp [hs] }
  own m m' h := { h with fired := by simp }

theorem addEvent (event : InvalidationEvent) :
    ChangesAt event.symbol fun m =>
      { m with invalidationEvents := m.invalidationEvents ++ [event] } where
  frame s' hs m := { SameAt.refl s' m with events := by simp [hs.symm] }
  own m m' h := { h with events := by simp [h.events] }

theorem setConfig (c : PositionConfig) : ChangesAt c.symbol (PositionManager.setConfig c) where
  frame s' hs m := by
    constructor <;> simp [PositionManager.setConfig, hs]
  own m m' h := by
    constructor <;> simp [PositionManager.setConfig, h.events]

theorem removeConfig (s : Symbol) : ChangesAt s (PositionManager.removeConfig s) where
  frame s' hs m := by
    constructor <;> simp [PositionManager.removeConfig, hs]
  own m m' h := by
    constructor <;> simp [PositionManager.removeConfig, h.events]

end ChangesAt

/-- The symbols are the parts of a manager. It keeps no account. -/
def parts : Parts Symbol PositionManager Amount where
  same := SameAt
  account _ := 0
  equivalence s := ⟨.refl s, .symm, .trans⟩

theorem ChangesAt.localAt (h : ChangesAt s f) (r : ρ) : parts.LocalAt s fun m => (r, f m) where
  frame s' hs m := h.frame s' hs m
  own m m' hm := ⟨rfl, h.own m m' hm⟩
  adds _ _ _ := rfl

theorem smoothTo_local (s : Symbol) (c : PositionConfig) (atr : Amount) (prev : Option Amount) :
    parts.LocalAt s fun m =>
      let smoothed := match prev with
        | some prev => c.trailingAtrSmoothingAlpha.getD 1 * atr +
            (1 - c.trailingAtrSmoothingAlpha.getD 1) * prev
        | none => atr
      (some smoothed, { m with smoothedAtr := m.smoothedAtr.set s smoothed }) :=
  (ChangesAt.setSmoothedAtr s _).localAt _

theorem updateSmoothedAtr_local (s : Symbol) (c : PositionConfig) (atr : Option Amount) :
    parts.LocalAt s (PositionManager.updateSmoothedAtr s c atr) := by
  have hprev : ∀ m m', parts.same s m m' →
      (m.smoothedAtr.get s).or c.trailingAtr = (m'.smoothedAtr.get s).or c.trailingAtr :=
    fun m m' h => congrArg (·.or c.trailingAtr) (SameAt.smoothedAtr h)
  cases atr with
  | none =>
    have h := Parts.LocalAt.read hprev fun prev => .pure parts s prev
    exact h
  | some atr =>
    have h := Parts.LocalAt.read hprev (smoothTo_local s c atr)
    exact h

theorem atrFor_local (s : Symbol) (c : PositionConfig) (mode : TrailingMode)
    (atr : Option Amount) : parts.LocalAt s (PositionManager.atrFor s c mode atr) := by
  unfold PositionManager.atrFor
  by_cases hlive : mode = .atr ∧ c.trailingAtrDynamic
  · simp only [if_pos hlive]
    exact updateSmoothedAtr_local s c _
  · simp only [if_neg hlive]
    exact .pure parts s c.trailingAtr

theorem warnAtrUnavailable_changes (s : Symbol) (now : Seconds) :
    ChangesAt s (PositionManager.warnAtrUnavailable s now) := by
  have hlast : ∀ m m', SameAt s m m' → m.atrUnavailWarnedAt.get s = m'.atrUnavailWarnedAt.get s :=
    fun _ _ h => h.warnedAt
  have hwarn : ∀ last : Option Seconds, ChangesAt s fun m =>
      if ∀ t ∈ last, atrWarnThrottleSecs ≤ now - t then
        { m with atrUnavailWarnedAt := m.atrUnavailWarnedAt.set s now }
      else m := by
    intro last
    split
    · exact .setWarnedAt s now
    · exact .id s
  have h := ChangesAt.read hlast hwarn
  exact h

/-- The stop follows the best mark, if there is a distance to follow it at. -/
theorem followMark_local (s : Symbol) (c : PositionConfig) (side : OrderSide) (mode : TrailingMode)
    (now : Seconds) (hw : Amount) (v : Option Amount) :
    parts.LocalAt s fun m =>
      let m := { m with highWater := m.highWater.set s hw }
      if v.isNone ∧ mode = .atr then
        ((.ok none : Except PyError (Option Amount)), m.warnAtrUnavailable s now)
      else match resolveTrailingDelta mode hw c.trailingDelta c.trailingPercent v
          c.trailingAtrMultiplier with
        | .error e => (.error e, m)
        | .ok delta =>
          let stop := trailingStopFromDelta side hw delta
          (.ok (some stop), { m with trailingStop := m.trailingStop.set s stop }) := by
  dsimp only
  split
  · exact ((warnAtrUnavailable_changes s now).comp (.setHighWater s hw)).localAt _
  · split
    · exact (ChangesAt.setHighWater s hw).localAt _
    · exact ((ChangesAt.setTrailingStop s _).comp (.setHighWater s hw)).localAt _

theorem updateTrailing_local (s : Symbol) (c : PositionConfig) (side : OrderSide) (mark : Amount)
    (atr : Option Amount) (now : Seconds) :
    parts.LocalAt s (PositionManager.updateTrailing s c side mark atr now) := by
  have hfirst : ∀ m m', parts.same s m m' → m.highWater.get s = m'.highWater.get s :=
    fun _ _ h => SameAt.highWater h
  cases hmode : c.resolvedTrailingMode with
  | none =>
    unfold PositionManager.updateTrailing
    simp only [hmode]
    exact .pure parts s _
  | some mode =>
    have h := Parts.LocalAt.read hfirst fun old =>
      (atrFor_local s c mode atr).bind
        (followMark_local s c side mode now (updateHighWater side mark old))
    unfold PositionManager.updateTrailing
    simp only [hmode]
    exact h

theorem moveStop_changes (s : Symbol) (newSl : Option Amount) : ChangesAt s fun m =>
    match newSl with
    | none => m
    | some sl => { m with effectiveSl := m.effectiveSl.set s (some sl) } := by
  cases newSl with
  | none => exact .id s
  | some sl => exact .setEffectiveSl s _

theorem updateBreakEven_changes (s : Symbol) (c : PositionConfig) (p : PositionState)
    (mark : Amount) : ChangesAt s (PositionManager.updateBreakEven s c p mark) := by
  unfold PositionManager.updateBreakEven
  cases hdelta : c.beTriggerDelta with
  | none => exact .id s
  | some delta =>
    have h := ChangesAt.read (fun _ _ h => SameAt.getEffectiveSl h) fun sl =>
      moveStop_changes s (maybeMoveToBreakEven p.side p.entryPrice mark delta sl c.beSlOffset)
    exact h

theorem settleInvalidation_local (s : Symbol) (mark : Amount) (a : InvalidationAction)
    (oldSl : Option Amount) (oid : Option ClientOrderId) :
    parts.LocalAt s (PositionManager.settleInvalidation s mark a oldSl oid) := by
  have hget : ∀ m m', parts.same s m m' → (m.configs.get s).isSome = (m'.configs.get s).isSome :=
    fun _ _ h => congrArg Option.isSome (SameAt.config h)
  have h := Parts.LocalAt.read hget fun registered : Bool =>
    ((ChangesAt.addEvent
      { symbol := s, markPrice := mark, oldSl := oldSl,
        newSl := if registered then a.newSl else none,
        closedFraction := if 0 < a.closeFraction then some a.closeFraction else none,
        closeOrderId := oid }).comp
      (moveStop_changes s (if registered then a.newSl else none))).localAt
    { symbol := s, trigger := .setupInvalidated, markPrice := mark, closeOrderId := oid,
      closedFraction := if 0 < a.closeFraction then some a.closeFraction else none : TickResult }
  refine h.congr fun m => ?_
  unfold PositionManager.settleInvalidation
  dsimp only
  cases (if (m.configs.get s).isSome then a.newSl else none) <;> rfl

theorem updateSl_local (s : Symbol) (sl : Amount) :
    parts.LocalAt s (PositionManager.updateSl s sl) := by
  have hget : ∀ m m', parts.same s m m' → (m.configs.get s).isNone = (m'.configs.get s).isNone :=
    fun _ _ h => congrArg Option.isNone (SameAt.config h)
  have hset : ∀ missing : Bool, parts.LocalAt s fun m =>
      if missing then (.error (.keyError s), m)
      else ((.ok () : Except PyError Unit),
        { m with effectiveSl := m.effectiveSl.set s (some sl) }) := by
    intro missing
    split
    · exact .pure parts s _
    · exact (ChangesAt.setEffectiveSl s _).localAt _
  have h := Parts.LocalAt.read hget hset
  exact h

theorem updateTp_local (s : Symbol) (tp : Amount) :
    parts.LocalAt s (PositionManager.updateTp s tp) := by
  have hget : ∀ m m', parts.same s m m' → (m.configs.get s).isNone = (m'.configs.get s).isNone :=
    fun _ _ h => congrArg Option.isNone (SameAt.config h)
  have hset : ∀ missing : Bool, parts.LocalAt s fun m =>
      if missing then (.error (.keyError s), m)
      else ((.ok () : Except PyError Unit),
        { m with
          remainingTpLevels := m.remainingTpLevels.set s []
          effectiveTp := m.effectiveTp.set s (some tp) }) := by
    intro missing
    split
    · exact .pure parts s _
    · exact ((ChangesAt.setEffectiveTp s (some tp)).comp (.setRemaining s [])).localAt _
  have h := Parts.LocalAt.read hget hset
  exact h

end PositionManager

end FuturesBot
