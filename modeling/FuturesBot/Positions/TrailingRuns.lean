import FuturesBot.Lib.Smoothing
import FuturesBot.Positions.Closing
import FuturesBot.Positions.Registered

namespace FuturesBot
open Lib PositionManager

namespace PositionManager

/-- The best of the marks for a side. -/
def extremum (side : OrderSide) (marks : List Amount) : Option Amount :=
  match side with
  | .buy => marks.max?
  | .sell => marks.min?

theorem extremum_concat (side : OrderSide) (marks : List Amount) (mark : Amount) :
    extremum side (marks ++ [mark]) = some (updateHighWater side mark (extremum side marks)) := by
  cases marks with
  | nil => cases side <;> rfl
  | cons first rest =>
    cases side with
    | buy =>
      simp only [extremum, List.cons_append, List.max?_cons', List.foldl_append, List.foldl_cons,
        List.foldl_nil, updateHighWater, max_comm]
    | sell =>
      simp only [extremum, List.cons_append, List.min?_cons', List.foldl_append, List.foldl_cons,
        List.foldl_nil, updateHighWater, min_comm]

def marks (feed : List Evaluation) : List Amount := feed.map (·.mark)

theorem marks_append (feed more : List Evaluation) :
    marks (feed ++ more) = marks feed ++ marks more := List.map_append

/-- The ATRs of a feed that count. -/
def readings (feed : List Evaluation) : List Amount :=
  feed.filterMap fun i => i.atr.filter (fun a => 0 < a)

/-- What a configuration trails by after a feed. -/
def trailedAtr (c : PositionConfig) (feed : List Evaluation) : Option Amount :=
  if c.trailingAtrDynamic then
    smooth (c.trailingAtrSmoothingAlpha.getD 1) c.trailingAtr (readings feed)
  else c.trailingAtr

/-- The distance that a mode keeps from the extremum, and the stop that follows from it. -/
def stopFrom (c : PositionConfig) (mode : TrailingMode) (side : OrderSide) (atr : Option Amount)
    (hw : Amount) : Option Amount :=
  (resolveTrailingDelta mode hw c.trailingDelta c.trailingPercent atr
    c.trailingAtrMultiplier).toOption.map (trailingStopFromDelta side hw)

def derivedStop (c : PositionConfig) (mode : TrailingMode) (side : OrderSide)
    (feed : List Evaluation) : Option Amount :=
  (extremum side (marks feed)).bind (stopFrom c mode side (trailedAtr c feed))

/-- What a manager tracks for a symbol that has been evaluated at a feed. -/
structure Tracks (c : PositionConfig) (mode : TrailingMode) (side : OrderSide)
    (feed : List Evaluation) (m : PositionManager) : Prop where
  highWater : m.highWater.get c.symbol = extremum side (marks feed)
  trailingStop : m.trailingStop.get c.symbol = derivedStop c mode side feed
  smoothedAtr : c.trailingAtrDynamic → (m.smoothedAtr.get c.symbol).or c.trailingAtr =
    smooth (c.trailingAtrSmoothingAlpha.getD 1) c.trailingAtr (readings feed)

theorem Tracks.setConfig (c : PositionConfig) (mode : TrailingMode) (side : OrderSide)
    (m : PositionManager) : Tracks c mode side [] (m.setConfig c) where
  highWater := by
    cases side <;> simp [PositionManager.setConfig, marks, extremum]
  trailingStop := by
    cases side <;> simp [PositionManager.setConfig, derivedStop, marks, extremum]
  smoothedAtr _ := by simp [PositionManager.setConfig, readings]

theorem Tracks.alike (h : Tracks c mode side feed m) (hm : TrackedAlike c.symbol m m') :
    Tracks c mode side feed m' where
  highWater := hm.highWater.trans h.highWater
  trailingStop := hm.trailingStop.trans h.trailingStop
  smoothedAtr hlive := by
    rw [hm.smoothedAtr]
    exact h.smoothedAtr hlive

/-- A dynamic ATR leaves no room for another mode. -/
theorem mode_of_dynamic {c : PositionConfig} (hmode : c.resolvedTrailingMode = some mode)
    (hlive : c.trailingAtrDynamic) : mode = .atr := by
  have hcount := c.valid.2.2.1
  have hatr : c.hasAtrMode := by simp [PositionConfigFields.hasAtrMode, hlive]
  unfold PositionConfigFields.trailingCount at hcount
  unfold PositionConfigFields.resolvedTrailingMode at hmode
  cases hdelta : c.trailingDelta <;> cases hpercent : c.trailingPercent <;>
    simp_all

theorem readings_concat (feed : List Evaluation) (i : Evaluation) :
    readings (feed ++ [i]) = readings feed ++ (i.atr.filter (fun a => 0 < a)).toList := by
  rw [readings, List.filterMap_append]
  congr 1

/-- A tick takes its ATR in as the smoothing does. -/
theorem atrFor_smooth {c : PositionConfig} (hmode : c.resolvedTrailingMode = some mode)
    (h : Tracks c mode side feed m) (hread : m.atrFor c.symbol c mode i.atr = (v, m₁)) :
    (mode = .atr → v = trailedAtr c (feed ++ [i])) ∧
    (c.trailingAtrDynamic → (m₁.smoothedAtr.get c.symbol).or c.trailingAtr =
      smooth (c.trailingAtrSmoothingAlpha.getD 1) c.trailingAtr (readings (feed ++ [i]))) ∧
    m₁.highWater = m.highWater ∧ m₁.trailingStop = m.trailingStop := by
  unfold atrFor at hread
  by_cases hlive : c.trailingAtrDynamic
  swap
  · rw [if_neg (fun hboth => hlive hboth.2)] at hread
    cases hread
    exact ⟨fun _ => (if_neg hlive).symm, fun hlive' => absurd hlive' hlive, rfl, rfl⟩
  · have hsmooth := h.smoothedAtr hlive
    have htrailed : trailedAtr c (feed ++ [i]) =
        smooth (c.trailingAtrSmoothingAlpha.getD 1) c.trailingAtr (readings (feed ++ [i])) :=
      if_pos hlive
    rw [if_pos ⟨mode_of_dynamic hmode hlive, hlive⟩] at hread
    rw [htrailed, readings_concat]
    unfold updateSmoothedAtr at hread
    cases hatr : i.atr.filter (fun a => 0 < a) with
    | none =>
      rw [hatr] at hread
      cases hread
      rw [Option.toList_none, List.append_nil]
      exact ⟨fun _ => hsmooth, fun _ => hsmooth, rfl, rfl⟩
    | some a =>
      rw [hatr, hsmooth] at hread
      rw [Option.toList_some, smooth_concat]
      cases hprev : smooth (c.trailingAtrSmoothingAlpha.getD 1) c.trailingAtr (readings feed) with
      | none =>
        rw [hprev] at hread
        cases hread
        exact ⟨fun _ => rfl, fun _ => by simp, rfl, rfl⟩
      | some prev =>
        rw [hprev] at hread
        cases hread
        exact ⟨fun _ => rfl, fun _ => by simp, rfl, rfl⟩

theorem stopFrom_atr (h : mode = .atr → v = v') (c : PositionConfig) (side : OrderSide)
    (hw : Amount) : stopFrom c mode side v hw = stopFrom c mode side v' hw := by
  cases mode with
  | fixed | percent => rfl
  | atr => rw [h rfl]

/-- An ATR does not get lost. -/
theorem trailedAtr_none (h : trailedAtr c (feed ++ [i]) = none) : trailedAtr c feed = none := by
  unfold trailedAtr at h ⊢
  split at h
  · rename_i hlive
    rw [if_pos hlive]
    rw [readings_concat] at h
    cases hatr : i.atr.filter (fun a => 0 < a) with
    | none =>
      rw [hatr, Option.toList_none, List.append_nil] at h
      exact h
    | some a =>
      rw [hatr, Option.toList_some, smooth_concat] at h
      cases h
  · rename_i hstatic
    rw [if_neg hstatic]
    exact h

theorem warnAtrUnavailable_tracked (s : Symbol) (now : Seconds) (m : PositionManager) :
    TrackedAlike s m (m.warnAtrUnavailable s now) := by
  unfold warnAtrUnavailable
  split <;> exact ⟨rfl, rfl, rfl⟩

/-- The tracking of a tick, and the stop that it is compared with. -/
theorem Tracks.trailed {c : PositionConfig} (hmode : c.resolvedTrailingMode = some mode)
    (h : Tracks c mode side feed m)
    (ht : Trailed c.symbol c side i.mark i.atr i.now m stop m') :
    Tracks c mode side (feed ++ [i]) m' ∧ stop = derivedStop c mode side (feed ++ [i]) := by
  have hextremum : extremum side (marks (feed ++ [i])) =
      some (updateHighWater side i.mark (m.highWater.get c.symbol)) := by
    rw [marks_append, h.highWater]
    exact extremum_concat side (marks feed) i.mark
  have hderived : derivedStop c mode side (feed ++ [i]) =
      stopFrom c mode side (trailedAtr c (feed ++ [i]))
        (updateHighWater side i.mark (m.highWater.get c.symbol)) := by
    rw [derivedStop, hextremum]
    rfl
  cases ht with
  | off hoff => cases hmode.symm.trans hoff
  | @unavailable m₁ hatr hread =>
    cases hmode.symm.trans hatr
    obtain ⟨hv, hsmooth, _, hstop⟩ := atrFor_smooth hmode h hread
    have hnone : derivedStop c .atr side (feed ++ [i]) = none := by
      rw [hderived, ← hv rfl]
      rfl
    have hbefore : derivedStop c .atr side feed = none := by
      rw [derivedStop, trailedAtr_none (hv rfl).symm]
      cases extremum side (marks feed) <;> rfl
    refine ⟨Tracks.alike ?_ (warnAtrUnavailable_tracked _ _ _), hnone.symm⟩
    refine ⟨?_, ?_, hsmooth⟩
    · rw [hextremum]
      exact Dict.get_set_self _ _ _
    · rw [hnone, hstop, h.trailingStop, hbefore]
  | @trailed mode' v m₁ hw delta hmode' hread hhw hdelta =>
    cases hmode.symm.trans hmode'
    obtain ⟨hv, hsmooth, _, _⟩ := atrFor_smooth hmode h hread
    subst hhw
    have hstop : some (trailingStopFromDelta side
        (updateHighWater side i.mark (m.highWater.get c.symbol)) delta) =
        derivedStop c mode side (feed ++ [i]) := by
      rw [hderived, ← stopFrom_atr hv, stopFrom, hdelta]
      rfl
    refine ⟨⟨?_, ?_, hsmooth⟩, hstop⟩
    · rw [hextremum]
      exact Dict.get_set_self _ _ _
    · rw [← hstop]
      exact Dict.get_set_self _ _ _

theorem updateBreakEven_tracked (s : Symbol) (c : PositionConfig) (p : PositionState)
    (mark : Amount) (m : PositionManager) : TrackedAlike s m (m.updateBreakEven s c p mark) := by
  unfold updateBreakEven
  split
  · exact ⟨rfl, rfl, rfl⟩
  · split <;> exact ⟨rfl, rfl, rfl⟩

theorem Tracks.armed {c : PositionConfig} (hmode : c.resolvedTrailingMode = some mode)
    (h : Tracks c mode i.position.side feed m)
    (ha : Armed c.symbol c i.position i.mark i.atr i.now m stop m') :
    Tracks c mode i.position.side (feed ++ [i]) m' ∧
    stop = derivedStop c mode i.position.side (feed ++ [i]) := by
  obtain ⟨m₁, htrailed, rfl⟩ := ha.trailed
  obtain ⟨htracks, hstop⟩ := h.trailed hmode htrailed
  exact ⟨htracks.alike (updateBreakEven_tracked _ _ _ _ _), hstop⟩

/-- The mark has come back to the stop. -/
def Hit (c : PositionConfig) (mode : TrailingMode) (side : OrderSide) (feed : List Evaluation)
    (mark : Amount) : Bool :=
  (derivedStop c mode side feed).any (isTrailingStopHit side mark)

/-- Nothing but the trailing stop can be due at an evaluation. -/
def OnlyTrailing (s : Symbol) (c : PositionConfig) (i : Evaluation) (m : PositionManager) : Prop :=
  ∀ stop m', Armed s c i.position i.mark i.atr i.now m stop m' →
    m'.dueStopLoss s i.position.side i.mark = none ∧
    m'.dueInvalidation s c i.position.side i.mark = none ∧
    m'.dueTakeProfit s i.position.side i.mark = none

theorem dueTrigger_trailing {m : PositionManager} (hsl : m.dueStopLoss s side mark = none)
    (hinvalid : m.dueInvalidation s c side mark = none)
    (htp : m.dueTakeProfit s side mark = none) (stop : Option Amount) :
    m.dueTrigger s c side mark stop =
      if stop.any (isTrailingStopHit side mark) then some .trailingStop else none := by
  rw [dueTrigger, hsl, hinvalid, htp]
  cases stop with
  | none => rfl
  | some stop => simp [dueTrailing]

/-- With nothing else due, a tick closes by the trailing stop just when its mark is at the stop
or through it. -/
theorem Tracks.tick {c : PositionConfig} (hmode : c.resolvedTrailingMode = some mode)
    (h : Tracks c mode p.side feed d.manager) (hc : d.manager.configs.get c.symbol = some c)
    (hp : A.getPosition c.symbol d.exchange = (.ok (some p), x))
    (hother : OnlyTrailing c.symbol c ⟨p, mark, atr, now⟩ d.manager)
    (book : Option (Amount × Amount)) (oid : ClientOrderId) :
    ∃ m, tick A c.symbol mark atr book oid now d =
      if Hit c mode p.side (feed ++ [⟨p, mark, atr, now⟩]) mark then
        closeWhole A .trailingSlHit c.symbol p mark book oid ⟨m, x⟩
      else (.ok (.idle c.symbol mark), ⟨m, x⟩) := by
  obtain ⟨stop, m₁, htrailing, _⟩ := updateTrailing_trailed c.symbol c p.side mark atr now d.manager
  have ha : Armed c.symbol c p mark atr now d.manager stop (m₁.updateBreakEven c.symbol c p mark) :=
    ⟨m₁, htrailing, rfl⟩
  obtain ⟨hsl, hinvalid, htp⟩ := hother _ _ ha
  have hstop := (h.armed (i := ⟨p, mark, atr, now⟩) hmode ha).2
  refine ⟨m₁.updateBreakEven c.symbol c p mark, ?_⟩
  unfold PositionManager.tick
  rw [hp]
  dsimp only
  rw [hc]
  dsimp only
  rw [htrailing]
  dsimp only
  rw [dueTrigger_trailing hsl hinvalid htp, hstop, ← Hit]
  cases Hit c mode p.side (feed ++ [⟨p, mark, atr, now⟩]) mark <;> rfl

end PositionManager

/-- A symbol is left as it was registered, and its positions are on one side. -/
def Watches (A : ExchangeAdapter σ) (s : Symbol) (side : OrderSide) (d : Desk σ) (e : DeskEvent) :
    Prop :=
  (∀ c, e = .setConfig c → c.symbol ≠ s) ∧ ∀ i ∈ evaluation A s d e, i.position.side = side

/-- All that a symbol has been evaluated at in a run. -/
def feedOf (A : ExchangeAdapter σ) (s : Symbol) (trace : List (Desk σ × DeskEvent × Desk σ)) :
    List Evaluation :=
  trace.filterMap fun t => evaluation A s t.1 t.2.1

theorem feedOf_concat (A : ExchangeAdapter σ) (s : Symbol)
    (trace : List (Desk σ × DeskEvent × Desk σ)) (t : Desk σ × DeskEvent × Desk σ) :
    feedOf A s (trace ++ [t]) = feedOf A s trace ++ (evaluation A s t.1 t.2.1).toList := by
  rw [feedOf, List.filterMap_append]
  congr 1

theorem Tracks.run {c : PositionConfig} {m₀ : PositionManager}
    (hmode : c.resolvedTrailingMode = some mode)
    (hr : Run (Recorded (Guarded (DeskStep A) (Watches A c.symbol side)))
      ⟨m₀.setConfig c, x₀⟩ trace d) (hreg : d.manager.configs.get c.symbol = some c') :
    c' = c ∧ Tracks c mode side (feedOf A c.symbol trace) d.manager := by
  refine hr.invariant_trace (I := fun trace d => ∀ c', d.manager.configs.get c.symbol = some c' →
    c' = c ∧ Tracks c mode side (feedOf A c.symbol trace) d.manager) ?_ ?_ c' hreg
  · intro c' hc'
    rw [setConfig_configs, Dict.get_set_self] at hc'
    exact ⟨(Option.some.inj hc').symm, .setConfig c mode side m₀⟩
  · rintro trace d t d' ih ⟨rfl, rfl, hstep, hset, hside⟩ c' hreg
    obtain ⟨hbefore, hkept⟩ := hstep.kept hreg hset
    obtain ⟨rfl, htracks⟩ := ih c' hbefore
    refine ⟨rfl, ?_⟩
    rw [feedOf_concat]
    split at hkept
    · rename_i hnone
      rw [hnone, Option.toList_none, List.append_nil]
      exact htracks.alike hkept.1
    · rename_i i hi
      obtain ⟨stop, m, ha, hkept⟩ := hkept
      rw [hi, Option.toList_some]
      obtain rfl := hside i hi
      exact (htracks.armed hmode ha).1.alike hkept.toTrackedAlike

namespace PositionManager

/-- Without a live ATR the stop follows the extremum. -/
theorem stopFrom_monotone {c : PositionConfig} (hmode : c.resolvedTrailingMode = some mode)
    (hstatic : ¬c.trailingAtrDynamic) (side : OrderSide) :
    ∃ f : Amount → Amount, Monotone f ∧
      ∀ hw, stopFrom c mode side c.trailingAtr hw = some (f hw) := by
  have hparameter := PositionConfigFields.resolvedTrailingMode_parameter hmode
  cases mode with
  | fixed =>
    obtain ⟨d, hd⟩ := hparameter
    refine ⟨fun hw => trailingStopFromDelta side hw d, fun a b hab => ?_, fun hw => ?_⟩
    · cases side <;> simp only [trailingStopFromDelta] <;> linarith
    · simp [stopFrom, resolveTrailingDelta, hd, Except.toOption]
  | percent =>
    obtain ⟨p, hp⟩ := hparameter
    obtain ⟨hpos, hlt⟩ := c.valid.1.2.2.2.1 p hp
    refine ⟨fun hw => trailingStopFromDelta side hw (hw * p), fun a b hab => ?_, fun hw => ?_⟩
    · have hscaled : a * p ≤ b * p := mul_le_mul_of_nonneg_right hab hpos.le
      have hrest : a * (1 - p) ≤ b * (1 - p) := mul_le_mul_of_nonneg_right hab (by linarith)
      cases side <;> simp only [trailingStopFromDelta] <;> linarith
    · simp [stopFrom, resolveTrailingDelta, hp, Except.toOption]
  | atr =>
    obtain ⟨a, ha⟩ : ∃ a, c.trailingAtr = some a := by
      simpa [PositionConfigFields.hasAtrMode, hstatic, Option.isSome_iff_exists] using hparameter
    refine ⟨fun hw => trailingStopFromDelta side hw (a * c.trailingAtrMultiplier.getD 1),
      fun x y hxy => ?_, fun hw => ?_⟩
    · cases side <;> simp only [trailingStopFromDelta] <;> linarith
    · simp [stopFrom, resolveTrailingDelta, ha, Except.toOption]

/-- The extremum only ever gets better. -/
theorem extremum_improves {ms : List Amount} (h : extremum side ms = some hw)
    (more : List Amount) :
    ∃ hw', extremum side (ms ++ more) = some hw' ∧ stopCrossed side hw hw' := by
  induction more using List.reverseRecOn with
  | nil =>
    rw [List.append_nil]
    exact ⟨hw, h, by cases side <;> simp [stopCrossed]⟩
  | append_singleton more mark ih =>
    obtain ⟨best, hbest, hbetter⟩ := ih
    rw [← List.append_assoc, extremum_concat, hbest]
    refine ⟨_, rfl, ?_⟩
    cases side with
    | buy =>
      simp only [stopCrossed, decide_eq_true_eq] at hbetter ⊢
      exact hbetter.trans (le_max_right mark best)
    | sell =>
      simp only [stopCrossed, decide_eq_true_eq] at hbetter ⊢
      exact (min_le_right mark best).trans hbetter

theorem stopCrossed_monotone {f : Amount → Amount} (hf : Monotone f)
    (h : stopCrossed side a b) : stopCrossed side (f a) (f b) := by
  cases side with
  | buy =>
    simp only [stopCrossed, decide_eq_true_eq] at h ⊢
    exact hf h
  | sell =>
    simp only [stopCrossed, decide_eq_true_eq] at h ⊢
    exact hf h

theorem derivedStop_improves {c : PositionConfig} (hmode : c.resolvedTrailingMode = some mode)
    (hstatic : ¬c.trailingAtrDynamic) (h : derivedStop c mode side feed = some stop)
    (more : List Evaluation) :
    ∃ stop', derivedStop c mode side (feed ++ more) = some stop' ∧ stopCrossed side stop stop' := by
  obtain ⟨f, hf, hstop⟩ := stopFrom_monotone hmode hstatic side
  have hatr : ∀ feed, trailedAtr c feed = c.trailingAtr := fun _ => if_neg hstatic
  obtain ⟨hw, hhw, hfrom⟩ := Option.bind_eq_some_iff.mp h
  rw [hatr, hstop] at hfrom
  cases hfrom
  obtain ⟨hw', hhw', hbetter⟩ := extremum_improves hhw (marks more)
  refine ⟨f hw', ?_, stopCrossed_monotone hf hbetter⟩
  rw [derivedStop, marks_append, hhw', hatr, Option.bind_some, hstop]

theorem closeWhole_removes (A : ExchangeAdapter σ) (reason : PositionTriggerReason) (s : Symbol)
    (p : PositionState) (mark : Amount) (book : Option (Amount × Amount)) (oid : ClientOrderId)
    (d : Desk σ) :
    (closeWhole A reason s p mark book oid d).2.manager = d.manager.removeConfig s := by
  rcases h : closeWhole A reason s p mark book oid d with ⟨_ | _, d'⟩
  · exact (closeWhole_error h).2
  · exact (closeWhole_ok h).2.1

end PositionManager

/-- A symbol is evaluated by its ticks. -/
theorem DeskStep.evaluates (h : DeskStep A d e d') (he : evaluation A s d e = some i) :
    ∃ x book oid r, A.getPosition s d.exchange = (.ok (some i.position), x) ∧
      PositionManager.tick A s i.mark i.atr book oid i.now d = (r, d') := by
  cases h with
  | @tick s' mark atr book oid now _ r _ h =>
    unfold evaluation at he
    dsimp only at he
    split at he
    · rename_i hs
      subst hs
      rcases hp : A.getPosition s' d.exchange with ⟨_ | _ | p, x⟩
      · simp [hp] at he
      · simp [hp] at he
      · simp only [hp, Option.some.injEq] at he
        subst he
        exact ⟨x, book, oid, r, rfl, h⟩
    · cases he
  | setConfig | updateSl | updateTp | invalidate | removeConfig | world => cases he

/-- While nothing else is due, a symbol is registered only until a mark is at its stop. -/
theorem Tracks.never_hit {c : PositionConfig} {m₀ : PositionManager}
    (hmode : c.resolvedTrailingMode = some mode)
    (hr : Run (Recorded (Guarded (DeskStep A) (Watches A c.symbol side)))
      ⟨m₀.setConfig c, x₀⟩ trace d) (hreg : (d.manager.configs.get c.symbol).isSome)
    (honly : ∀ t ∈ trace, ∀ i ∈ evaluation A c.symbol t.1 t.2.1,
      OnlyTrailing c.symbol c i t.1.manager) :
    EachAfter (fun before i => ¬Hit c mode side (before ++ [i]) i.mark)
      (feedOf A c.symbol trace) := by
  have hall := hr.invariant_trace (I := fun trace d =>
    Run (Recorded (Guarded (DeskStep A) (Watches A c.symbol side))) ⟨m₀.setConfig c, x₀⟩ trace d ∧
    ((d.manager.configs.get c.symbol).isSome →
      (∀ t ∈ trace, ∀ i ∈ evaluation A c.symbol t.1 t.2.1, OnlyTrailing c.symbol c i t.1.manager) →
      EachAfter (fun before i => ¬Hit c mode side (before ++ [i]) i.mark)
        (feedOf A c.symbol trace))) ⟨.nil _, fun _ _ => .nil⟩ ?_
  · exact hall.2 hreg honly
  · rintro trace d t d' ⟨hrun, ih⟩ hstep
    refine ⟨hrun.snoc hstep, fun hreg honly => ?_⟩
    obtain ⟨rfl, rfl, hdesk, hset, hside⟩ := hstep
    obtain ⟨c', hc'⟩ := Option.isSome_iff_exists.mp hreg
    obtain ⟨hbefore, -⟩ := hdesk.kept hc' hset
    obtain ⟨rfl, htracks⟩ := Tracks.run hmode hrun hbefore
    have hearlier := ih (Option.isSome_of_eq_some hbefore) fun t ht =>
      honly t (List.mem_append_left _ ht)
    rw [feedOf_concat]
    cases hi : evaluation A c'.symbol t.1 t.2.1 with
    | none => rwa [Option.toList_none, List.append_nil]
    | some i =>
      refine hearlier.snoc fun hhit => ?_
      obtain ⟨x, book, oid, r, hp, htick⟩ := hdesk.evaluates hi
      obtain rfl := hside i hi
      have hquiet := honly t (by simp) i hi
      obtain ⟨m, hcloses⟩ := htracks.tick hmode hbefore hp hquiet book oid
      rw [if_pos hhit, htick] at hcloses
      have hremoved := closeWhole_removes A .trailingSlHit c'.symbol i.position i.mark book oid
        ⟨m, x⟩
      rw [← hcloses] at hremoved
      rw [hremoved] at hc'
      exact Kept.of_removed hc'

/-- The value that a live ATR has been smoothed to. -/
def PositionManager.liveAtr (c : PositionConfig) (m : PositionManager) : Option Amount :=
  (m.smoothedAtr.get c.symbol).or c.trailingAtr

/-- What the trailing stop of a symbol means for a run since it was configured. -/
structure TrailingSemantics (A : ExchangeAdapter σ) (c : PositionConfig) (mode : TrailingMode)
    (side : OrderSide) (trace : List (Desk σ × DeskEvent × Desk σ)) (d : Desk σ) : Prop where
  extremum : d.manager.highWater.get c.symbol = extremum side (marks (feedOf A c.symbol trace))
  derived : d.manager.trailingStop.get c.symbol =
    derivedStop c mode side (feedOf A c.symbol trace)
  towardsProfit : ¬c.trailingAtrDynamic → ∀ later d',
    Run (Recorded (Guarded (DeskStep A) (Watches A c.symbol side))) d later d' →
    (d'.manager.getConfig c.symbol).isSome → ∀ stop ∈ d.manager.trailingStop.get c.symbol,
    ∃ stop' ∈ d'.manager.trailingStop.get c.symbol, stopCrossed side stop stop'
  fires : ∀ i x, A.getPosition c.symbol d.exchange = (.ok (some i.position), x) →
    i.position.side = side → OnlyTrailing c.symbol c i d.manager → ∀ book oid,
    ∃ m, tick A c.symbol i.mark i.atr book oid i.now d =
      if Hit c mode side (feedOf A c.symbol trace ++ [i]) i.mark then
        closeWhole A .trailingSlHit c.symbol i.position i.mark book oid ⟨m, x⟩
      else (.ok (.idle c.symbol i.mark), ⟨m, x⟩)
  first : (∀ t ∈ trace, ∀ i ∈ evaluation A c.symbol t.1 t.2.1,
      OnlyTrailing c.symbol c i t.1.manager) →
    EachAfter (fun before i => ¬Hit c mode side (before ++ [i]) i.mark) (feedOf A c.symbol trace)
  distance : c.trailingAtrDynamic → d.manager.trailingStop.get c.symbol =
    (PositionManager.extremum side (marks (feedOf A c.symbol trace))).bind fun hw =>
      (d.manager.liveAtr c).map fun v =>
        trailingStopFromDelta side hw (v * c.trailingAtrMultiplier.getD 1)
  between : c.trailingAtrDynamic → ∀ v ∈ d.manager.liveAtr c, ∀ lo hi,
    (∀ a ∈ c.trailingAtr, lo ≤ a ∧ a ≤ hi) →
    (∀ a ∈ readings (feedOf A c.symbol trace), lo ≤ a ∧ a ≤ hi) → lo ≤ v ∧ v ≤ hi
  unchanged : c.trailingAtrDynamic → ∀ e d', DeskStep A d e d' → Watches A c.symbol side d e →
    (d'.manager.getConfig c.symbol).isSome →
    (∀ i ∈ evaluation A c.symbol d e, ∀ a ∈ i.atr, a ≤ 0) →
    d'.manager.liveAtr c = d.manager.liveAtr c

/-- Whatever else happens to a desk, the trailing stop of a symbol that stays configured does
what it means. -/
theorem trailing_semantics {c : PositionConfig} {m₀ : PositionManager}
    (hmode : c.resolvedTrailingMode = some mode)
    (hr : Run (Recorded (Guarded (DeskStep A) (Watches A c.symbol side)))
      ⟨m₀.setConfig c, x₀⟩ trace d) (hreg : (d.manager.getConfig c.symbol).isSome) :
    TrailingSemantics A c mode side trace d := by
  have hat : ∀ {trace d}, Run (Recorded (Guarded (DeskStep A) (Watches A c.symbol side)))
      ⟨m₀.setConfig c, x₀⟩ trace d → (d.manager.getConfig c.symbol).isSome →
      d.manager.configs.get c.symbol = some c ∧
      Tracks c mode side (feedOf A c.symbol trace) d.manager := by
    intro trace d hr hreg
    obtain ⟨c', hc'⟩ := Option.isSome_iff_exists.mp hreg
    obtain ⟨rfl, htracks⟩ := Tracks.run hmode hr hc'
    exact ⟨hc', htracks⟩
  obtain ⟨hc, htracks⟩ := hat hr hreg
  refine ⟨htracks.highWater, htracks.trailingStop, ?_, ?_, Tracks.never_hit hmode hr hreg,
    ?_, ?_, ?_⟩
  · intro hstatic later d' hlater hreg' stop hstop
    have hafter := (hat (hr.append hlater) hreg').2.trailingStop
    rw [feedOf, List.filterMap_append] at hafter
    rw [Option.mem_def, htracks.trailingStop] at hstop
    obtain ⟨stop', hstop', hbetter⟩ := derivedStop_improves hmode hstatic hstop
      (feedOf A c.symbol later)
    exact ⟨stop', hafter.trans hstop', hbetter⟩
  · rintro i x hp rfl honly book oid
    exact htracks.tick hmode hc hp honly book oid
  · intro hlive
    obtain rfl := mode_of_dynamic hmode hlive
    rw [htracks.trailingStop, derivedStop, trailedAtr, if_pos hlive, ← htracks.smoothedAtr hlive,
      liveAtr]
    congr 1
    funext hw
    cases (d.manager.smoothedAtr.get c.symbol).or c.trailingAtr <;> rfl
  · intro hlive v hv lo hi hseed hreadings
    rw [Option.mem_def, liveAtr, htracks.smoothedAtr hlive] at hv
    refine smooth_between ?_ hseed hreadings v hv
    cases halpha : c.trailingAtrSmoothingAlpha with
    | none => simp
    | some alpha =>
      obtain ⟨hpos, hle⟩ := c.valid.1.2.2.2.2.2.2.1 alpha halpha
      exact ⟨hpos.le, hle⟩
  · intro hlive e d' hstep hwatches hreg' hmissing
    have hnext := (hat (hr.snoc ⟨rfl, rfl, hstep, hwatches⟩ : Run _ _ (trace ++ [(d, e, d')]) d')
      hreg').2.smoothedAtr hlive
    rw [liveAtr, liveAtr, hnext, htracks.smoothedAtr hlive, feedOf_concat]
    cases hi : evaluation A c.symbol d e with
    | none => rw [Option.toList_none, List.append_nil]
    | some i =>
      have hnone : i.atr.filter (fun a => 0 < a) = none := by
        rw [Option.filter_eq_none_iff]
        intro a ha
        simpa using hmissing i hi a ha
      rw [Option.toList_some, readings_concat, hnone, Option.toList_none, List.append_nil]

/-- Five below the best mark. -/
def trailingFive : PositionConfig where
  symbol := "BTCUSDT"
  trailingDelta := some 5
  valid := by decide +kernel

/-- A mark of 110 for the bought position, which then trails. -/
def trailedDesk : Desk PaperAdapter :=
  (tick PaperAdapter.exchange "BTCUSDT" 110 none none "close" 0 (deskWith trailingFive)).2

theorem trailed_desk_semantics :
    TrailingSemantics PaperAdapter.exchange trailingFive .fixed .buy
      [(deskWith trailingFive, .tick "BTCUSDT" 110 none none "close" 0, trailedDesk)]
      trailedDesk := by
  have hwatches : Watches PaperAdapter.exchange "BTCUSDT" .buy (deskWith trailingFive)
      (.tick "BTCUSDT" 110 none none "close" 0) := by
    refine ⟨?_, by decide +kernel⟩
    rintro c ⟨⟩
  have hr : Run (Recorded (Guarded (DeskStep PaperAdapter.exchange)
      (Watches PaperAdapter.exchange "BTCUSDT" .buy))) (deskWith trailingFive)
      [(deskWith trailingFive, .tick "BTCUSDT" 110 none none "close" 0, trailedDesk)]
      trailedDesk := .snoc (.nil _) ⟨rfl, rfl, .tick rfl, hwatches⟩
  exact trailing_semantics (by decide +kernel) hr (by decide +kernel)

end FuturesBot
