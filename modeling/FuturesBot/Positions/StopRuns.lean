import FuturesBot.Positions.TrailingRuns

namespace FuturesBot
open Lib PositionManager

namespace PositionManager

/-- The second stop protects at least as well. No stop at all is the loosest. -/
def Tightens (side : OrderSide) (sl sl' : Option Amount) : Prop :=
  ∀ level ∈ sl, ∃ level' ∈ sl', stopCrossed side level level'

theorem stopCrossed_refl (side : OrderSide) (a : Amount) : stopCrossed side a a := by
  cases side <;> simp [stopCrossed]

theorem stopCrossed_trans (h : stopCrossed side a b) (h' : stopCrossed side b c) :
    stopCrossed side a c := by
  cases side with
  | buy =>
    simp only [stopCrossed, decide_eq_true_eq] at h h' ⊢
    exact h.trans h'
  | sell =>
    simp only [stopCrossed, decide_eq_true_eq] at h h' ⊢
    exact h'.trans h

namespace Tightens

theorem refl (side : OrderSide) (sl : Option Amount) : Tightens side sl sl :=
  fun level h => ⟨level, h, stopCrossed_refl side level⟩

theorem trans (h : Tightens side sl sl') (h' : Tightens side sl' sl'') : Tightens side sl sl'' := by
  intro level hlevel
  obtain ⟨level', hlevel', hbetter⟩ := h level hlevel
  obtain ⟨level'', hlevel'', hbest⟩ := h' level' hlevel'
  exact ⟨level'', hlevel'', stopCrossed_trans hbetter hbest⟩

end Tightens

/-- Break-even does not loosen a stop. -/
theorem updateBreakEven_tightens (s : Symbol) (c : PositionConfig) (p : PositionState)
    (mark : Amount) (m : PositionManager) :
    Tightens p.side (m.getEffectiveSl s) ((m.updateBreakEven s c p mark).getEffectiveSl s) := by
  unfold updateBreakEven
  split
  · exact .refl _ _
  · split
    · exact .refl _ _
    · rename_i newSl hmove
      intro level hlevel
      rw [Option.mem_def.mp hlevel] at hmove
      exact ⟨newSl, by simp [getEffectiveSl], maybeMoveToBreakEven_improves hmove⟩

theorem atrFor_effectiveSl (s : Symbol) (c : PositionConfig) (mode : TrailingMode)
    (atr : Option Amount) (m : PositionManager) :
    (m.atrFor s c mode atr).2.effectiveSl = m.effectiveSl ∧
    (m.atrFor s c mode atr).2.invalidationEvents = m.invalidationEvents := by
  unfold atrFor
  split
  · unfold updateSmoothedAtr
    split <;> exact ⟨rfl, rfl⟩
  · exact ⟨rfl, rfl⟩

/-- Trailing leaves the stop of the configuration alone, and reports nothing. -/
theorem Trailed.effectiveSl (h : Trailed s c side mark atr now m stop m') :
    m'.effectiveSl = m.effectiveSl ∧ m'.invalidationEvents = m.invalidationEvents := by
  cases h with
  | off => exact ⟨rfl, rfl⟩
  | unavailable _ hread =>
    have hsame := atrFor_effectiveSl s c .atr atr m
    rw [hread] at hsame
    unfold warnAtrUnavailable
    split <;> exact hsame
  | @trailed mode _ _ _ _ _ hread =>
    have hsame := atrFor_effectiveSl s c mode atr m
    rw [hread] at hsame
    exact hsame

theorem updateBreakEven_events (s : Symbol) (c : PositionConfig) (p : PositionState)
    (mark : Amount) (m : PositionManager) :
    (m.updateBreakEven s c p mark).invalidationEvents = m.invalidationEvents := by
  unfold updateBreakEven
  split
  · rfl
  · split <;> rfl

theorem Armed.tightens (h : Armed s c p mark atr now m stop m') :
    Tightens p.side (m.getEffectiveSl s) (m'.getEffectiveSl s) ∧
    eventsOf s m' = eventsOf s m := by
  obtain ⟨m₁, htrailed, rfl⟩ := h.trailed
  obtain ⟨hsl, hevents⟩ := htrailed.effectiveSl
  have hmove := updateBreakEven_tightens s c p mark m₁
  rw [getEffectiveSl, hsl, ← getEffectiveSl] at hmove
  refine ⟨hmove, ?_⟩
  rw [eventsOf, updateBreakEven_events, hevents, eventsOf]

end PositionManager

/-- A symbol is left to its ticks: it is registered once, its stop is not set, it is not
invalidated, and its positions are on one side. -/
def Unattended (A : ExchangeAdapter σ) (s : Symbol) (side : OrderSide) (d : Desk σ) (e : DeskEvent)
    (d' : Desk σ) : Prop :=
  Watches A s side d e ∧ (∀ sl, e ≠ .updateSl s sl) ∧
  eventsOf s d'.manager = eventsOf s d.manager

theorem DeskStep.tightens (h : DeskStep A d e d') (hquiet : Unattended A s side d e d')
    (hreg : d'.manager.configs.get s = some c) :
    d.manager.configs.get s = some c ∧
    Tightens side (d.manager.getEffectiveSl s) (d'.manager.getEffectiveSl s) := by
  obtain ⟨⟨hset, hside⟩, hsl, hevents⟩ := hquiet
  obtain ⟨hbefore, hkept⟩ := h.kept hreg hset
  refine ⟨hbefore, ?_⟩
  split at hkept
  · rcases hkept.2 with hkept | ⟨sl, he⟩
    · have hsame := hkept.effectiveSl.resolve_right (not_not_intro hevents)
      rw [getEffectiveSl, getEffectiveSl, hsame]
      exact .refl _ _
    · exact absurd he (hsl sl)
  · rename_i i hi
    obtain ⟨stop, m, ha, hkept⟩ := hkept
    obtain ⟨htightens, harmed⟩ := ha.tightens
    rw [← harmed] at hevents
    have hsame := hkept.effectiveSl.resolve_right (not_not_intro hevents)
    have hstop : d'.manager.getEffectiveSl s = m.getEffectiveSl s := congrArg Option.join hsame
    rw [hside i hi] at htightens
    rwa [hstop]

namespace PositionManager

/-- Break-even moves the stop at a mark. -/
def Activates (s : Symbol) (c : PositionConfig) (p : PositionState) (mark : Amount)
    (m : PositionManager) : Prop :=
  ∃ delta ∈ c.beTriggerDelta, (maybeMoveToBreakEven p.side p.entryPrice mark delta
    (m.getEffectiveSl s) c.beSlOffset).isSome

/-- The stop that break-even sets is not where the mark is. -/
theorem breakEven_apart (h : maybeMoveToBreakEven side entry mark delta sl offset = some newSl)
    (hoffset : offset < delta) : stopCrossed side mark newSl = false := by
  cases side
  all_goals
    simp only [maybeMoveToBreakEven] at h
    split at h
    · cases h
    · rename_i hreached
      split at h
      · cases h
      · cases h
        simp only [stopCrossed, decide_eq_false_iff_not, not_le]
        rw [not_lt] at hreached
        linarith

theorem Activates.no_stop (h : Activates s c p mark m)
    (ha : Armed s c p mark atr now m stop m') : m'.dueStopLoss s p.side mark = none := by
  obtain ⟨m₁, htrailed, rfl⟩ := ha.trailed
  obtain ⟨delta, hdelta, hmoves⟩ := h
  obtain ⟨newSl, hnew⟩ := Option.isSome_iff_exists.mp hmoves
  have hsl : m₁.getEffectiveSl s = m.getEffectiveSl s := by
    rw [getEffectiveSl, htrailed.effectiveSl.1, getEffectiveSl]
  have hmoved : (m₁.updateBreakEven s c p mark).getEffectiveSl s = some newSl := by
    rw [updateBreakEven, Option.mem_def.mp hdelta]
    dsimp only
    rw [hsl, hnew]
    simp [getEffectiveSl]
  have hapart := breakEven_apart hnew (c.valid.2.2.2.2.2.2.2.1 delta hdelta)
  rw [dueStopLoss, hmoved]
  dsimp only
  rw [hapart]
  rfl

theorem dueTrigger_stopLoss {m : PositionManager}
    (h : m.dueTrigger s c side mark stop = some .stopLoss) :
    m.dueStopLoss s side mark = some .stopLoss := by
  rcases dueTrigger_cases h with h | h | h | h
  · exact h
  · obtain ⟨_, he, _⟩ := dueInvalidation_eq h
    cases he
  · rcases dueTakeProfit_eq h with ⟨_, _, he, _⟩ | ⟨he, _⟩ <;> cases he
  · cases dueTrailing_eq h

/-- Only a stop is reported as one. -/
theorem fire_stopLoss (h : fire A s c p mark book oid t d = (.ok r, d'))
    (hr : r.trigger = .slHit) : t = .stopLoss := by
  cases t with
  | stopLoss => rfl
  | takeProfit | trailingStop =>
    rw [(closeWhole_ok h).2.2] at hr
    cases hr
  | invalidation a =>
    simp only [fire, invalidateOnce] at h
    split at h
    · cases h
    · rename_i ho
      cases h
      rw [(applyInvalidationAction_ok ho).2.2.2.1] at hr
      cases hr
  | takeProfitLevel level later =>
    rw [(closeLevel_ok h).2.2.2.2] at hr
    split at hr <;> cases hr

theorem Activates.tick (h : Activates s c p mark d.manager)
    (hc : d.manager.configs.get s = some c)
    (hp : A.getPosition s d.exchange = (.ok (some p), x))
    (ht : tick A s mark atr book oid now d = (.ok r, d')) : r.trigger ≠ .slHit := by
  intro hr
  cases tick_outcome ht with
  | absent | unconfigured | quiet => cases hr
  | fired hp' hc' ha hd hf =>
    cases hp.symm.trans hp'
    cases hc.symm.trans hc'
    obtain rfl := fire_stopLoss hf hr
    cases (h.no_stop ha).symm.trans (dueTrigger_stopLoss hd)

end PositionManager

/-- Left to its ticks, the stop of a symbol that stays registered never loosens, and a tick that
moves it to break-even does not hit it. -/
theorem stops_never_loosen (hr : Run (Recorded (DeskStep A)) d trace d')
    (hquiet : ∀ t ∈ trace, Unattended A s side t.1 t.2.1 t.2.2)
    (hreg : d'.manager.getConfig s = some c) :
    Tightens side (d.manager.getEffectiveSl s) (d'.manager.getEffectiveSl s) ∧
    ∀ p x mark, A.getPosition s d'.exchange = (.ok (some p), x) →
      Activates s c p mark d'.manager →
      (∀ atr now stop m, Armed s c p mark atr now d'.manager stop m →
        m.dueStopLoss s p.side mark = none) ∧
      ∀ atr book oid now r d'', tick A s mark atr book oid now d' = (.ok r, d'') →
        r.trigger ≠ .slHit := by
  have hall := hr.invariant_trace (I := fun trace d' =>
    (∀ t ∈ trace, Unattended A s side t.1 t.2.1 t.2.2) →
    ∀ c, d'.manager.configs.get s = some c →
    Tightens side (d.manager.getEffectiveSl s) (d'.manager.getEffectiveSl s))
    (fun _ _ _ => .refl _ _) ?_
  · refine ⟨hall hquiet c hreg, fun p x mark hp hactivates => ?_⟩
    refine ⟨fun _ _ _ _ ha => hactivates.no_stop ha, fun _ _ _ _ _ _ ht => ?_⟩
    exact hactivates.tick hreg hp ht
  · rintro trace d₁ t d₂ ih ⟨rfl, rfl, hstep⟩ hquiet c hreg
    obtain ⟨hbefore, htightens⟩ := hstep.tightens (hquiet t (by simp)) hreg
    exact (ih (fun t ht => hquiet t (List.mem_append_left _ ht)) c hbefore).trans htightens

/-- Break-even one above the entry of 100, once the mark is five above it. -/
def breakEvenAtFive : PositionConfig where
  symbol := "BTCUSDT"
  stopLoss := some 95
  beTriggerDelta := some 5
  beSlOffset := 1
  valid := by decide +kernel

/-- A mark of 106 for the bought position, whose stop then moves to 101. -/
def protectedDesk : Desk PaperAdapter :=
  (tick PaperAdapter.exchange "BTCUSDT" 106 none none "close" 0 (deskWith breakEvenAtFive)).2

theorem protected_desk_never_loosens :
    Tightens .buy ((deskWith breakEvenAtFive).manager.getEffectiveSl "BTCUSDT")
      (protectedDesk.manager.getEffectiveSl "BTCUSDT") ∧
    ∀ p x mark, PaperAdapter.exchange.getPosition "BTCUSDT" protectedDesk.exchange =
        (.ok (some p), x) →
      Activates "BTCUSDT" breakEvenAtFive p mark protectedDesk.manager →
      (∀ atr now stop m,
        Armed "BTCUSDT" breakEvenAtFive p mark atr now protectedDesk.manager stop m →
        m.dueStopLoss "BTCUSDT" p.side mark = none) ∧
      ∀ atr book oid now r d'',
        tick PaperAdapter.exchange "BTCUSDT" mark atr book oid now protectedDesk = (.ok r, d'') →
        r.trigger ≠ .slHit := by
  have hstep : DeskStep PaperAdapter.exchange (deskWith breakEvenAtFive)
      (.tick "BTCUSDT" 106 none none "close" 0) protectedDesk := .tick rfl
  obtain ⟨c, hc⟩ := Option.isSome_iff_exists.mp
    (show (protectedDesk.manager.configs.get "BTCUSDT").isSome by decide +kernel)
  obtain ⟨hbefore, -⟩ := hstep.kept hc (by rintro c ⟨⟩)
  obtain rfl : c = breakEvenAtFive := (Option.some.inj hbefore).symm
  have hr : Run (Recorded (DeskStep PaperAdapter.exchange)) (deskWith breakEvenAtFive)
      [(deskWith breakEvenAtFive, .tick "BTCUSDT" 106 none none "close" 0, protectedDesk)]
      protectedDesk := .snoc (.nil _) ⟨rfl, rfl, hstep⟩
  refine stops_never_loosen hr ?_ hc
  intro t ht
  obtain rfl := List.mem_singleton.mp ht
  have hnone : eventsOf "BTCUSDT" protectedDesk.manager = [] :=
    List.eq_nil_of_length_eq_zero (by decide +kernel)
  refine ⟨⟨?_, by decide +kernel⟩, ?_, hnone⟩
  · rintro c ⟨⟩
  · rintro sl ⟨⟩

end FuturesBot
