import FuturesBot.Positions.Manager

namespace FuturesBot.PositionManager
open Lib

/-- The two managers know the same exits: only the price tracking of the trailing
stop, the moved stops and targets, and the emitted events may differ. -/
structure SameExits (m m' : PositionManager) : Prop where
  configs : m'.configs = m.configs
  remaining : m'.remainingTpLevels = m.remainingTpLevels
  fired : m'.autoInvalidationFired = m.autoInvalidationFired

theorem SameExits.rfl (m : PositionManager) : SameExits m m := ⟨.refl _, .refl _, .refl _⟩

theorem SameExits.trans (h : SameExits m m') (h' : SameExits m' m'') : SameExits m m'' :=
  ⟨h'.configs.trans h.configs, h'.remaining.trans h.remaining, h'.fired.trans h.fired⟩

theorem SameExits.getRemainingTpLevels (h : SameExits m m') (s : Symbol) :
    m'.getRemainingTpLevels s = m.getRemainingTpLevels s := by
  simp [PositionManager.getRemainingTpLevels, h.remaining]

@[simp] theorem setConfig_configs (c : PositionConfig) (m : PositionManager) :
    (m.setConfig c).configs = m.configs.set c.symbol c := rfl

@[simp] theorem removeConfig_configs (s : Symbol) (m : PositionManager) :
    (m.removeConfig s).configs = m.configs.pop s := rfl

@[simp] theorem removeConfig_fired (s : Symbol) (m : PositionManager) :
    (m.removeConfig s).autoInvalidationFired = m.autoInvalidationFired.erase s := rfl

@[simp] theorem setConfig_fired (c : PositionConfig) (m : PositionManager) :
    (m.setConfig c).autoInvalidationFired = m.autoInvalidationFired.erase c.symbol := rfl

theorem setConfig_remaining (c : PositionConfig) (m : PositionManager) (s : Symbol) :
    (m.setConfig c).getRemainingTpLevels s =
      if s = c.symbol then c.takeProfitLevels else m.getRemainingTpLevels s := by
  simp only [getRemainingTpLevels, setConfig, Dict.get_set]
  split <;> simp

theorem removeConfig_remaining (s s' : Symbol) (m : PositionManager) :
    (m.removeConfig s).getRemainingTpLevels s' =
      if s' = s then [] else m.getRemainingTpLevels s' := by
  simp only [getRemainingTpLevels, removeConfig, Dict.get_pop]
  split <;> simp

theorem updateSmoothedAtr_exits (s : Symbol) (c : PositionConfig) (atr : Option Amount)
    (m : PositionManager) : SameExits m (m.updateSmoothedAtr s c atr).2 := by
  unfold updateSmoothedAtr
  cases atr <;> exact ⟨rfl, rfl, rfl⟩

theorem warnAtrUnavailable_exits (s : Symbol) (now : Seconds) (m : PositionManager) :
    SameExits m (m.warnAtrUnavailable s now) := by
  unfold warnAtrUnavailable
  split <;> exact ⟨rfl, rfl, rfl⟩

/-- The ATR that a tick trails by, and the manager once it has taken the reading in. -/
def atrFor (s : Symbol) (c : PositionConfig) (mode : TrailingMode) (atr : Option Amount)
    (m : PositionManager) : Option Amount × PositionManager :=
  if mode = .atr ∧ c.trailingAtrDynamic then
    m.updateSmoothedAtr s c (atr.filter (fun a => 0 < a))
  else (c.trailingAtr, m)

theorem atrFor_exits (s : Symbol) (c : PositionConfig) (mode : TrailingMode) (atr : Option Amount)
    (m : PositionManager) : SameExits m (m.atrFor s c mode atr).2 := by
  unfold atrFor
  split
  · exact updateSmoothedAtr_exits s c _ m
  · exact .rfl m

/-- What the trailing part of a tick can come to. It never raises: the mode of a valid
configuration comes with its own distance. -/
inductive Trailed (s : Symbol) (c : PositionConfig) (side : OrderSide) (mark : Amount)
    (atr : Option Amount) (now : Seconds) (m : PositionManager) :
    Option Amount → PositionManager → Prop
  | off (hmode : c.resolvedTrailingMode = none) : Trailed s c side mark atr now m none m
  | unavailable {m₁ : PositionManager} (hmode : c.resolvedTrailingMode = some .atr)
      (hread : m.atrFor s c .atr atr = (none, m₁)) :
      Trailed s c side mark atr now m none
        (PositionManager.warnAtrUnavailable s now { m₁ with
          highWater := m₁.highWater.set s (updateHighWater side mark (m.highWater.get s)) })
  | trailed {mode : TrailingMode} {v : Option Amount} {m₁ : PositionManager} {hw delta : Amount}
      (hmode : c.resolvedTrailingMode = some mode) (hread : m.atrFor s c mode atr = (v, m₁))
      (hhw : hw = updateHighWater side mark (m.highWater.get s))
      (hdelta : resolveTrailingDelta mode hw c.trailingDelta c.trailingPercent v
        c.trailingAtrMultiplier = .ok delta) :
      Trailed s c side mark atr now m (some (trailingStopFromDelta side hw delta))
        { m₁ with
          highWater := m₁.highWater.set s hw
          trailingStop := m₁.trailingStop.set s (trailingStopFromDelta side hw delta) }

theorem updateTrailing_trailed (s : Symbol) (c : PositionConfig) (side : OrderSide) (mark : Amount)
    (atr : Option Amount) (now : Seconds) (m : PositionManager) :
    ∃ stop m', m.updateTrailing s c side mark atr now = (.ok stop, m') ∧
      Trailed s c side mark atr now m stop m' := by
  unfold updateTrailing
  cases hmode : c.resolvedTrailingMode with
  | none => exact ⟨none, m, rfl, .off hmode⟩
  | some mode =>
    rcases hread : m.atrFor s c mode atr with ⟨v, m₁⟩
    have hread' := hread
    unfold atrFor at hread'
    simp only [hread']
    split
    · rename_i hnone
      obtain ⟨hv, rfl⟩ := hnone
      obtain rfl := Option.isNone_iff_eq_none.mp hv
      exact ⟨none, _, rfl, .unavailable hmode hread⟩
    · rename_i hv
      have ha : mode = .atr → v.isSome := by
        intro ha
        cases v with
        | none => exact absurd ⟨rfl, ha⟩ hv
        | some a => rfl
      obtain ⟨d, hd⟩ := resolveTrailingDelta_total hmode ha
      simp only [hd]
      exact ⟨_, _, rfl, .trailed hmode hread rfl (hd _)⟩

theorem Trailed.exits (h : Trailed s c side mark atr now m stop m') : SameExits m m' := by
  cases h with
  | off => exact .rfl m
  | unavailable _ hread =>
    have hs := atrFor_exits s c .atr atr m
    rw [hread] at hs
    refine SameExits.trans ?_ (warnAtrUnavailable_exits s now _)
    exact ⟨hs.configs, hs.remaining, hs.fired⟩
  | @trailed mode _ _ _ _ _ hread =>
    have hs := atrFor_exits s c mode atr m
    rw [hread] at hs
    exact ⟨hs.configs, hs.remaining, hs.fired⟩

theorem updateBreakEven_exits (s : Symbol) (c : PositionConfig) (p : PositionState) (mark : Amount)
    (m : PositionManager) : SameExits m (m.updateBreakEven s c p mark) := by
  unfold updateBreakEven
  split
  · exact .rfl m
  · split
    · exact .rfl m
    · exact ⟨rfl, rfl, rfl⟩

/-- The manager as its triggers see it, once the tick has refreshed the trailing
stop and the break-even. -/
def Armed (s : Symbol) (c : PositionConfig) (p : PositionState) (mark : Amount)
    (atr : Option Amount) (now : Seconds) (m : PositionManager) (stop : Option Amount)
    (m' : PositionManager) : Prop :=
  ∃ m₁, m.updateTrailing s c p.side mark atr now = (.ok stop, m₁) ∧
    m' = m₁.updateBreakEven s c p mark

theorem Armed.trailed (h : Armed s c p mark atr now m stop m') :
    ∃ m₁, Trailed s c p.side mark atr now m stop m₁ ∧ m' = m₁.updateBreakEven s c p mark := by
  obtain ⟨m₁, ht, rfl⟩ := h
  obtain ⟨stop', m₂, ht', htrailed⟩ := updateTrailing_trailed s c p.side mark atr now m
  cases ht.symm.trans ht'
  exact ⟨m₁, htrailed, rfl⟩

theorem Armed.exits (h : Armed s c p mark atr now m stop m') : SameExits m m' := by
  obtain ⟨m₁, ht, rfl⟩ := h.trailed
  exact ht.exits.trans (updateBreakEven_exits s c p mark m₁)

theorem dueTrigger_cases {m : PositionManager} (h : m.dueTrigger s c side mark stop = some t) :
    m.dueStopLoss s side mark = some t ∨ m.dueInvalidation s c side mark = some t ∨
    m.dueTakeProfit s side mark = some t ∨ dueTrailing side mark stop = some t := by
  unfold dueTrigger at h
  rw [Option.orElse_eq_some, Option.orElse_eq_some, Option.orElse_eq_some] at h
  rcases h with h | ⟨_, h | ⟨_, h | ⟨_, h⟩⟩⟩
  · exact .inl h
  · exact .inr (.inl h)
  · exact .inr (.inr (.inl h))
  · exact .inr (.inr (.inr h))

theorem dueStopLoss_eq {m : PositionManager} (h : m.dueStopLoss s side mark = some t) :
    t = .stopLoss := by
  unfold dueStopLoss at h
  split at h
  · split at h <;> cases h
    rfl
  · cases h

theorem dueTrailing_eq (h : dueTrailing side mark stop = some t) : t = .trailingStop := by
  unfold dueTrailing at h
  split at h
  · split at h <;> cases h
    rfl
  · cases h

theorem dueInvalidation_eq {m : PositionManager} (h : m.dueInvalidation s c side mark = some t) :
    ∃ a, t = .invalidation a ∧ c.invalidationAction = some a ∧ s ∉ m.autoInvalidationFired := by
  unfold dueInvalidation at h
  split at h
  · rename_i price a _ ha
    split at h
    · rename_i hn
      cases h
      exact ⟨a, rfl, ha, hn.1⟩
    · cases h
  · cases h

theorem dueTakeProfit_eq {m : PositionManager} (h : m.dueTakeProfit s side mark = some t) :
    (∃ level later, t = .takeProfitLevel level later ∧
      m.getRemainingTpLevels s = level :: later) ∨
    (t = .takeProfit ∧ m.getRemainingTpLevels s = []) := by
  unfold dueTakeProfit at h
  split at h
  · rename_i level later hl
    split at h <;> cases h
    exact .inl ⟨level, later, rfl, hl⟩
  · rename_i hl
    split at h
    · split at h <;> cases h
      exact .inr ⟨rfl, hl⟩
    · cases h

theorem dueTrigger_level {m : PositionManager}
    (h : m.dueTrigger s c side mark stop = some (.takeProfitLevel level later)) :
    m.getRemainingTpLevels s = level :: later := by
  rcases dueTrigger_cases h with h | h | h | h
  · cases dueStopLoss_eq h
  · obtain ⟨a, he, _⟩ := dueInvalidation_eq h
    cases he
  · rcases dueTakeProfit_eq h with ⟨_, _, he, hl⟩ | ⟨he, _⟩ <;> cases he
    exact hl
  · cases dueTrailing_eq h

theorem dueTrigger_invalidation {m : PositionManager}
    (h : m.dueTrigger s c side mark stop = some (.invalidation a)) :
    s ∉ m.autoInvalidationFired := by
  rcases dueTrigger_cases h with h | h | h | h
  · cases dueStopLoss_eq h
  · exact (dueInvalidation_eq h).elim (fun _ ha => ha.2.2)
  · rcases dueTakeProfit_eq h with ⟨_, _, he, _⟩ | ⟨he, _⟩ <;> cases he
  · cases dueTrailing_eq h

/-- What a tick can end in, with the reads that led there. -/
inductive TickOutcome (A : ExchangeAdapter σ) (s : Symbol) (mark : Amount) (atr : Option Amount)
    (book : Option (Amount × Amount)) (oid : ClientOrderId) (now : Seconds) (d : Desk σ) :
    Except PyError TickResult → Desk σ → Prop
  | unread (hp : A.getPosition s d.exchange = (.error e, x)) :
      TickOutcome A s mark atr book oid now d (.error e) ⟨d.manager, x⟩
  | absent (hp : A.getPosition s d.exchange = (.ok none, x)) :
      TickOutcome A s mark atr book oid now d (.ok (.idle s mark))
        ⟨if (d.manager.configs.get s).isSome then d.manager.removeConfig s else d.manager, x⟩
  | unconfigured (hp : A.getPosition s d.exchange = (.ok (some p), x))
      (hc : d.manager.configs.get s = none) :
      TickOutcome A s mark atr book oid now d (.ok (.idle s mark)) ⟨d.manager, x⟩
  | quiet (hp : A.getPosition s d.exchange = (.ok (some p), x))
      (hc : d.manager.configs.get s = some c) (ha : Armed s c p mark atr now d.manager stop m) :
      TickOutcome A s mark atr book oid now d (.ok (.idle s mark)) ⟨m, x⟩
  | fired (hp : A.getPosition s d.exchange = (.ok (some p), x))
      (hc : d.manager.configs.get s = some c) (ha : Armed s c p mark atr now d.manager stop m)
      (hd : m.dueTrigger s c p.side mark stop = some t)
      (hf : fire A s c p mark book oid t ⟨m, x⟩ = (r, d')) :
      TickOutcome A s mark atr book oid now d r d'

theorem tick_outcome (h : tick A s mark atr book oid now d = (r, d')) :
    TickOutcome A s mark atr book oid now d r d' := by
  unfold tick at h
  rcases hp : A.getPosition s d.exchange with ⟨_ | p, x⟩
  · rw [hp] at h
    cases h
    exact .unread hp
  · rw [hp] at h
    cases p with
    | none =>
      cases h
      exact .absent hp
    | some p =>
      cases hc : d.manager.configs.get s with
      | none =>
        simp only [hc] at h
        cases h
        exact .unconfigured hp hc
      | some c =>
        obtain ⟨stop, m₁, ht, _⟩ := updateTrailing_trailed s c p.side mark atr now d.manager
        simp only [hc, ht] at h
        have ha : Armed s c p mark atr now d.manager stop (m₁.updateBreakEven s c p mark) :=
          ⟨m₁, ht, rfl⟩
        split at h
        · cases h
          exact .quiet hp hc ha
        · rename_i t hd
          exact .fired hp hc ha hd h

end FuturesBot.PositionManager

namespace FuturesBot
open Lib PositionManager

/-- The exits a manager knows after a trigger went through. -/
def ExitTrigger.settle (s : Symbol) (m : PositionManager) (t : ExitTrigger) : PositionManager :=
  if t.closesFully then m.removeConfig s
  else match t with
    | .takeProfitLevel _ later => { m with remainingTpLevels := m.remainingTpLevels.set s later }
    | .invalidation _ => { m with autoInvalidationFired := insert s m.autoInvalidationFired }
    | .stopLoss | .takeProfit | .trailingStop => m

theorem ExitTrigger.settle_configs (s : Symbol) (m : PositionManager) (t : ExitTrigger) :
    (t.settle s m).configs = if t.closesFully then m.configs.pop s else m.configs := by
  unfold ExitTrigger.settle
  split
  · rfl
  · cases t <;> rfl

namespace PositionManager

theorem settleInvalidation_exits (s : Symbol) (mark : Amount) (a : InvalidationAction)
    (oldSl : Option Amount) (oid : Option ClientOrderId) (m : PositionManager) :
    SameExits m (m.settleInvalidation s mark a oldSl oid).2 := by
  unfold settleInvalidation
  dsimp only
  split <;> exact ⟨rfl, rfl, rfl⟩

/-- The close order a trigger sends for a position. -/
def exitOrder (A : ExchangeAdapter σ) (s : Symbol) (p : PositionState) (mark : Amount)
    (book : Option (Amount × Amount)) (oid : ClientOrderId) (t : ExitTrigger) :
    Call σ ClientOrderId :=
  placeCloseOrder A s (p.quantity * t.fraction) mark p.side book oid

theorem placeCloseOrder_id
    (h : placeCloseOrder A s quantity mark side book oid x = (.ok oid', x')) : oid' = oid := by
  unfold placeCloseOrder at h
  split at h
  · cases h
  · split at h <;> cases h
    rfl

theorem closeWhole_error (h : closeWhole A reason s p mark book oid d = (.error e, d')) :
    placeCloseOrder A s p.quantity mark p.side book oid d.exchange = (.error e, d'.exchange) ∧
    d'.manager = d.manager.removeConfig s := by
  unfold closeWhole at h
  rcases ho : placeCloseOrder A s p.quantity mark p.side book oid d.exchange with ⟨_ | _, x⟩
  · simp only [ho] at h
    cases h
    exact ⟨rfl, rfl⟩
  · simp only [ho] at h
    cases h

theorem closeWhole_ok (h : closeWhole A reason s p mark book oid d = (.ok r, d')) :
    placeCloseOrder A s p.quantity mark p.side book oid d.exchange = (.ok oid, d'.exchange) ∧
    d'.manager = d.manager.removeConfig s ∧
    r = { symbol := s, trigger := reason, markPrice := mark, closeOrderId := some oid } := by
  unfold closeWhole at h
  rcases ho : placeCloseOrder A s p.quantity mark p.side book oid d.exchange with ⟨_ | _, x⟩
  · simp only [ho] at h
    cases h
  · simp only [ho] at h
    cases placeCloseOrder_id ho
    cases h
    exact ⟨rfl, rfl, rfl⟩

theorem closeLevel_error
    (h : closeLevel A s c p mark book oid level later d = (.error e, d')) :
    placeCloseOrder A s (p.quantity * level.closeFraction) mark p.side book oid d.exchange =
      (.error e, d'.exchange) ∧
    d'.manager = if later.isEmpty then d.manager.removeConfig s else d.manager := by
  unfold closeLevel at h
  rcases ho : placeCloseOrder A s (p.quantity * level.closeFraction) mark p.side book oid
    d.exchange with ⟨_ | _, x⟩
  · simp only [ho] at h
    cases h
    exact ⟨rfl, rfl⟩
  · simp only [ho] at h
    cases h

theorem closeLevel_ok (h : closeLevel A s c p mark book oid level later d = (.ok r, d')) :
    placeCloseOrder A s (p.quantity * level.closeFraction) mark p.side book oid d.exchange =
      (.ok oid, d'.exchange) ∧
    d'.manager = (if later.isEmpty then d.manager.removeConfig s
      else { d.manager with remainingTpLevels := d.manager.remainingTpLevels.set s later }) ∧
    r.symbol = s ∧ r.tpLevelIndex = some (c.takeProfitLevels.length - (level :: later).length) ∧
    r.trigger = if later.isEmpty then .tpHit else .tpPartial := by
  unfold closeLevel at h
  rcases ho : placeCloseOrder A s (p.quantity * level.closeFraction) mark p.side book oid
    d.exchange with ⟨_ | _, x⟩
  · simp only [ho] at h
    cases h
  · simp only [ho] at h
    cases placeCloseOrder_id ho
    cases h
    refine ⟨rfl, ?_, rfl, rfl, rfl⟩
    cases later <;> rfl

theorem applyInvalidationAction_error
    (h : applyInvalidationAction A s mark a p book oid d = (.error e, d')) :
    0 < a.closeFraction ∧
    placeCloseOrder A s (p.quantity * a.closeFraction) mark p.side book oid d.exchange =
      (.error e, d'.exchange) ∧
    d'.manager = if 1 ≤ a.closeFraction then d.manager.removeConfig s else d.manager := by
  unfold applyInvalidationAction at h
  by_cases ha : 0 < a.closeFraction
  · rcases ho : placeCloseOrder A s (p.quantity * a.closeFraction) mark p.side book oid
      d.exchange with ⟨_ | _, x⟩
    · simp only [ho, if_pos ha] at h
      cases h
      exact ⟨ha, rfl, rfl⟩
    · simp only [ho, if_pos ha] at h
      cases h
  · simp only [if_neg ha] at h
    cases h

theorem applyInvalidationAction_ok
    (h : applyInvalidationAction A s mark a p book oid d = (.ok r, d')) :
    (if 0 < a.closeFraction then
        placeCloseOrder A s (p.quantity * a.closeFraction) mark p.side book oid d.exchange =
          (.ok oid, d'.exchange)
      else d'.exchange = d.exchange) ∧
    SameExits (if 1 ≤ a.closeFraction then d.manager.removeConfig s else d.manager) d'.manager ∧
    r.symbol = s ∧ r.trigger = .setupInvalidated ∧ r.tpLevelIndex = none := by
  unfold applyInvalidationAction at h
  by_cases ha : 0 < a.closeFraction
  · rw [if_pos ha]
    rcases ho : placeCloseOrder A s (p.quantity * a.closeFraction) mark p.side book oid
      d.exchange with ⟨_ | _, x⟩
    · simp only [ho, if_pos ha] at h
      cases h
    · simp only [ho, if_pos ha] at h
      cases placeCloseOrder_id ho
      cases h
      exact ⟨rfl, settleInvalidation_exits .., rfl, rfl, rfl⟩
  · rw [if_neg ha]
    simp only [if_neg ha] at h
    cases h
    have hp : ¬1 ≤ a.closeFraction := fun h1 => ha (lt_of_lt_of_le one_pos h1)
    rw [if_neg hp]
    exact ⟨rfl, settleInvalidation_exits .., rfl, rfl, rfl⟩

theorem invalidateOnce_error
    (h : invalidateOnce A s mark a p book oid d = (.error e, d')) :
    applyInvalidationAction A s mark a p book oid d = (.error e, d') := by
  unfold invalidateOnce at h
  split at h
  · cases h
    assumption
  · cases h

theorem invalidateOnce_ok (hc : (d.manager.configs.get s).isSome)
    (h : invalidateOnce A s mark a p book oid d = (.ok r, d')) :
    ∃ d₁, applyInvalidationAction A s mark a p book oid d = (.ok r, d₁) ∧
      d'.exchange = d₁.exchange ∧
      SameExits ((ExitTrigger.invalidation a).settle s d.manager) d'.manager := by
  unfold invalidateOnce at h
  split at h
  · cases h
  · rename_i r' d₁ he
    cases h
    obtain ⟨_, hs, _⟩ := applyInvalidationAction_ok he
    refine ⟨d₁, he, ?_, ?_⟩
    · split <;> rfl
    · simp only [ExitTrigger.settle, ExitTrigger.closesFully, decide_eq_true_eq]
      by_cases ha : 1 ≤ a.closeFraction
      · rw [if_pos ha] at hs ⊢
        have hn : d₁.manager.configs.get s = none := by simp [hs.configs]
        rw [hn]
        exact hs
      · rw [if_neg ha] at hs ⊢
        rw [if_pos (by rw [hs.configs]; exact hc)]
        exact ⟨hs.configs, hs.remaining, by simp only [hs.fired]⟩

/-- A trigger that raises has sent its order, and what it forgets by then is only
the symbol of a full close. -/
theorem fire_error (h : fire A s c p mark book oid t d = (.error e, d')) :
    0 < t.fraction ∧ exitOrder A s p mark book oid t d.exchange = (.error e, d'.exchange) ∧
    d'.manager = if t.closesFully then d.manager.removeConfig s else d.manager := by
  cases t with
  | stopLoss | takeProfit | trailingStop =>
    rw [exitOrder, ExitTrigger.fraction, mul_one]
    exact ⟨one_pos, closeWhole_error h⟩
  | invalidation a =>
    simpa [exitOrder, ExitTrigger.fraction, ExitTrigger.closesFully] using
      applyInvalidationAction_error (invalidateOnce_error h)
  | takeProfitLevel level later => exact ⟨level.fraction_range.1, closeLevel_error h⟩

/-- A trigger that returns has had its order accepted, unless it sends none. -/
theorem fire_ok (hc : (d.manager.configs.get s).isSome)
    (h : fire A s c p mark book oid t d = (.ok r, d')) :
    (if 0 < t.fraction then exitOrder A s p mark book oid t d.exchange = (.ok oid, d'.exchange)
      else d'.exchange = d.exchange) ∧
    SameExits (t.settle s d.manager) d'.manager := by
  cases t with
  | stopLoss | takeProfit | trailingStop =>
    obtain ⟨ho, hm, _⟩ := closeWhole_ok h
    rw [exitOrder, ExitTrigger.fraction, mul_one, if_pos one_pos]
    exact ⟨ho, hm ▸ .rfl _⟩
  | invalidation a =>
    obtain ⟨d₁, ha, hx, hs⟩ := invalidateOnce_ok hc h
    rw [hx]
    exact ⟨(applyInvalidationAction_ok ha).1, hs⟩
  | takeProfitLevel level later =>
    obtain ⟨ho, hm, _⟩ := closeLevel_ok h
    rw [exitOrder, ExitTrigger.fraction, if_pos level.fraction_range.1]
    exact ⟨ho, hm ▸ .rfl _⟩

/-- What the report of an accepted trigger says about levels and invalidations. -/
def Reports (c : PositionConfig) (r : TickResult) : ExitTrigger → Prop
  | .takeProfitLevel _ later =>
    r.tpLevelIndex = some (c.takeProfitLevels.length - (later.length + 1)) ∧
    r.trigger ≠ .setupInvalidated
  | .invalidation _ => r.tpLevelIndex = none
  | .stopLoss | .takeProfit | .trailingStop =>
    r.tpLevelIndex = none ∧ r.trigger ≠ .setupInvalidated

theorem fire_report (h : fire A s c p mark book oid t d = (.ok r, d')) :
    r.symbol = s ∧ Reports c r t := by
  cases t with
  | stopLoss | takeProfit | trailingStop =>
    rw [(closeWhole_ok h).2.2]
    exact ⟨rfl, rfl, by simp⟩
  | invalidation a =>
    simp only [fire, invalidateOnce] at h
    split at h
    · cases h
    · rename_i ho
      cases h
      obtain ⟨_, _, hs, _, hi⟩ := applyInvalidationAction_ok ho
      exact ⟨hs, hi⟩
  | takeProfitLevel level later =>
    obtain ⟨_, _, hs, hi, ht⟩ := closeLevel_ok h
    refine ⟨hs, hi, ?_⟩
    rw [ht]
    split <;> simp

end PositionManager

end FuturesBot
