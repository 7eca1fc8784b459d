import FuturesBot.Positions.Desk
import FuturesBot.Positions.Locality

namespace FuturesBot
open Lib PositionManager

namespace PositionManager

theorem ChangesAt.of_local {f : PositionManager → ρ × PositionManager} (h : parts.LocalAt s f) :
    ChangesAt s fun m => (f m).2 :=
  ⟨h.frame, fun m m' hm => (h.own m m' hm).2⟩

/-- What has been handed to the callback of invalidations about a symbol. -/
def eventsOf (s : Symbol) (m : PositionManager) : List InvalidationEvent :=
  m.invalidationEvents.filter (·.symbol = s)

/-- Whatever the exchange answers, a call for a symbol changes what is known of that symbol. -/
def Affects (s : Symbol) (m m' : PositionManager) : Prop := ∃ f, ChangesAt s f ∧ m' = f m

namespace Affects

theorem refl (s : Symbol) (m : PositionManager) : Affects s m m := ⟨_, .id s, rfl⟩

theorem of_changes (h : ChangesAt s f) (m : PositionManager) : Affects s m (f m) := ⟨f, h, rfl⟩

theorem trans (h : Affects s m m') (h' : Affects s m' m'') : Affects s m m'' := by
  obtain ⟨f, hf, rfl⟩ := h
  obtain ⟨g, hg, rfl⟩ := h'
  exact ⟨_, hg.comp hf, rfl⟩

theorem frame (h : Affects s m m') (hs : s' ≠ s) : SameAt s' m m' := by
  obtain ⟨f, hf, rfl⟩ := h
  exact hf.frame s' hs m

theorem armed (h : Armed s c p mark atr now m stop m') : Affects s m m' := by
  obtain ⟨m₁, htrailing, rfl⟩ := h
  have hread := of_changes (.of_local (updateTrailing_local s c p.side mark atr now)) m
  rw [htrailing] at hread
  exact hread.trans (of_changes (updateBreakEven_changes s c p mark) m₁)

theorem drop (s : Symbol) (b : Bool) (m : PositionManager) :
    Affects s m (if b then m.removeConfig s else m) := by
  cases b with
  | true => exact of_changes (.removeConfig s) m
  | false => exact .refl s m

theorem applyInvalidationAction
    (h : applyInvalidationAction A s mark a p book oid ⟨m, x⟩ = (r, d')) :
    Affects s m d'.manager := by
  have hdropped : Affects s m (if 1 ≤ a.closeFraction then m.removeConfig s else m) := by
    simpa using drop s (1 ≤ a.closeFraction) m
  have hsettled : ∀ m oldSl id, Affects s m (m.settleInvalidation s mark a oldSl id).2 :=
    fun m oldSl id => of_changes (.of_local (settleInvalidation_local s mark a oldSl id)) m
  unfold PositionManager.applyInvalidationAction at h
  dsimp only at h
  split at h
  · split at h
    · cases h
      exact hdropped
    · cases h
      exact hdropped.trans (hsettled _ _ _)
  · cases h
    exact hsettled _ _ _

theorem fire (h : fire A s c p mark book oid t d = (r, d')) : Affects s d.manager d'.manager := by
  cases r with
  | error e =>
    rw [(fire_error h).2.2]
    exact drop s t.closesFully d.manager
  | ok r =>
    cases t with
    | stopLoss | takeProfit | trailingStop =>
      rw [(closeWhole_ok h).2.1]
      exact of_changes (.removeConfig s) _
    | invalidation a =>
      simp only [PositionManager.fire, invalidateOnce] at h
      split at h
      · cases h
      · rename_i happlied
        have haffects := applyInvalidationAction happlied
        cases h
        split
        · exact haffects.trans (of_changes (.insertFired s) _)
        · exact haffects
    | takeProfitLevel level later =>
      rw [(closeLevel_ok h).2.1]
      split
      · exact of_changes (.removeConfig s) _
      · exact of_changes (.setRemaining s later) _

theorem tick (h : tick A s mark atr book oid now d = (r, d')) :
    Affects s d.manager d'.manager := by
  cases tick_outcome h with
  | unread | unconfigured => exact .refl s _
  | absent => exact drop s _ d.manager
  | quiet _ _ ha => exact armed ha
  | fired _ _ ha _ hf => exact (armed ha).trans (fire hf)

theorem invalidate (h : triggerSetupInvalidation A s mark book oid d = (r, d')) :
    Affects s d.manager d'.manager := by
  unfold triggerSetupInvalidation at h
  split at h
  · cases h
    exact .refl s _
  · split at h
    · cases h
      exact .refl s _
    · cases h
      exact .refl s _
    · split at h
      all_goals
        rename_i happlied
        cases h
        exact applyInvalidationAction happlied

end Affects

end PositionManager

/-- The symbol that an event is about. -/
def DeskEvent.symbol : DeskEvent → Option Symbol
  | .setConfig c => some c.symbol
  | .updateSl s _ | .updateTp s _ | .invalidate s _ _ _ | .tick s _ _ _ _ _
  | .removeConfig s => some s
  | .world => none

theorem DeskStep.affects (h : DeskStep A d e d') :
    match e.symbol with
    | some s => Affects s d.manager d'.manager
    | none => d'.manager = d.manager := by
  cases h with
  | setConfig c => exact .of_changes (.setConfig c) _
  | updateSl s sl => exact .of_changes (.of_local (updateSl_local s sl)) _
  | updateTp s tp => exact .of_changes (.of_local (updateTp_local s tp)) _
  | invalidate h => exact .invalidate h
  | tick h => exact .tick h
  | removeConfig s => exact .of_changes (.removeConfig s) _
  | world => rfl

/-- An event about another symbol leaves what is known of this one. -/
theorem DeskStep.frame (h : DeskStep A d e d') (hs : e.symbol ≠ some s) :
    PositionManager.SameAt s d.manager d'.manager := by
  have haffects := h.affects
  split at haffects
  · rename_i s' hsymbol
    refine haffects.frame ?_
    rintro rfl
    exact hs hsymbol
  · rw [haffects]
    exact .refl s _

namespace PositionManager

/-- The prices that are tracked for a symbol are the same. -/
structure TrackedAlike (s : Symbol) (m m' : PositionManager) : Prop where
  highWater : m'.highWater.get s = m.highWater.get s
  trailingStop : m'.trailingStop.get s = m.trailingStop.get s
  smoothedAtr : m'.smoothedAtr.get s = m.smoothedAtr.get s

/-- What changes of a symbol that stays registered, apart from what its marks do: its stop moves
only if it is invalidated. -/
structure Kept (s : Symbol) (m m' : PositionManager) : Prop extends TrackedAlike s m m' where
  config : m'.configs.get s = m.configs.get s
  effectiveSl : m'.effectiveSl.get s = m.effectiveSl.get s ∨ eventsOf s m' ≠ eventsOf s m

namespace Kept

theorem refl (s : Symbol) (m : PositionManager) : Kept s m m := ⟨⟨rfl, rfl, rfl⟩, rfl, .inl rfl⟩

theorem of_same (h : SameAt s m m') : Kept s m m' :=
  ⟨⟨h.highWater.symm, h.trailingStop.symm, h.smoothedAtr.symm⟩, h.config.symm,
    .inl h.effectiveSl.symm⟩

/-- Whatever an invalidation does, it is reported. -/
theorem settleInvalidation (s : Symbol) (mark : Amount) (a : InvalidationAction)
    (oldSl : Option Amount) (oid : Option ClientOrderId) (m : PositionManager) :
    Kept s m (m.settleInvalidation s mark a oldSl oid).2 := by
  unfold PositionManager.settleInvalidation
  dsimp only
  split
  all_goals
    refine ⟨⟨rfl, rfl, rfl⟩, rfl, .inr ?_⟩
    simp [eventsOf]

theorem of_removed {m : PositionManager} (hreg : (m.removeConfig s).configs.get s = some c) :
    False := by
  rw [removeConfig_configs, Dict.get_pop_self] at hreg
  cases hreg

theorem applyInvalidationAction
    (h : applyInvalidationAction A s mark a p book oid ⟨m, x⟩ = (r, d'))
    (hreg : d'.manager.configs.get s = some c) : Kept s m d'.manager := by
  unfold PositionManager.applyInvalidationAction at h
  dsimp only at h
  split at h
  · split at h
    · cases h
      dsimp only at hreg ⊢
      split at hreg
      · exact (of_removed hreg).elim
      · rename_i hpart
        rw [if_neg hpart]
        exact .refl s m
    · rename_i id _
      cases h
      have hsettled := fun m₁ : PositionManager =>
        Kept.settleInvalidation s mark a (m.getEffectiveSl s) (some id) m₁
      dsimp only at hreg ⊢
      split at hreg
      · rw [(hsettled _).config] at hreg
        exact (of_removed hreg).elim
      · rename_i hpart
        rw [if_neg hpart]
        exact hsettled m
  · cases h
    exact .settleInvalidation ..

theorem fire (h : fire A s c' p mark book oid t d = (r, d'))
    (hreg : d'.manager.configs.get s = some c) : Kept s d.manager d'.manager := by
  cases r with
  | error e =>
    have hmanager := (fire_error h).2.2
    rw [hmanager] at hreg ⊢
    split at hreg
    · exact (of_removed hreg).elim
    · rename_i hpart
      rw [if_neg hpart]
      exact .refl s _
  | ok r =>
    cases t with
    | stopLoss | takeProfit | trailingStop =>
      rw [(closeWhole_ok h).2.1] at hreg
      exact (of_removed hreg).elim
    | invalidation a =>
      simp only [PositionManager.fire, invalidateOnce] at h
      split at h
      · cases h
      · rename_i d₁ happlied
        have hkept : d₁.manager.configs.get s = some c → Kept s d.manager d₁.manager :=
          Kept.applyInvalidationAction happlied
        cases h
        split
        · rename_i hsome
          rw [if_pos hsome] at hreg
          have hk := hkept hreg
          exact ⟨⟨hk.highWater, hk.trailingStop, hk.smoothedAtr⟩, hk.config, hk.effectiveSl⟩
        · rename_i hnone
          rw [if_neg hnone] at hreg
          exact hkept hreg
    | takeProfitLevel level later =>
      have hmanager := (closeLevel_ok h).2.1
      rw [hmanager] at hreg ⊢
      split at hreg
      · exact (of_removed hreg).elim
      · rename_i hpart
        rw [if_neg hpart]
        exact ⟨⟨rfl, rfl, rfl⟩, rfl, .inl rfl⟩

theorem invalidate (h : triggerSetupInvalidation A s mark book oid d = (r, d'))
    (hreg : d'.manager.configs.get s = some c) : Kept s d.manager d'.manager := by
  unfold triggerSetupInvalidation at h
  split at h
  · cases h
    exact .refl s _
  · split at h
    · cases h
      exact .refl s _
    · cases h
      exact .refl s _
    · split at h
      all_goals
        rename_i happlied
        cases h
        exact Kept.applyInvalidationAction happlied hreg

end Kept

/-- A mark that a symbol is evaluated at, with the ATR and the clock of the tick. -/
structure Evaluation where
  position : PositionState
  mark : Amount
  atr : Option Amount
  now : Seconds

/-- What the position and the configuration of a symbol are evaluated at by an event. -/
def evaluation (A : ExchangeAdapter σ) (s : Symbol) (d : Desk σ) : DeskEvent → Option Evaluation
  | .tick s' mark atr _ _ now =>
    if s' = s then
      match (A.getPosition s d.exchange).1 with
      | .ok (some p) => some ⟨p, mark, atr, now⟩
      | _ => none
    else none
  | _ => none

end PositionManager

/-- A step that leaves a symbol registered, and does not register it anew, evaluates it at most
at one mark. -/
theorem DeskStep.kept (h : DeskStep A d e d') (hreg : d'.manager.configs.get s = some c)
    (hset : ∀ c', e = .setConfig c' → c'.symbol ≠ s) :
    d.manager.configs.get s = some c ∧
    match evaluation A s d e with
    | none => TrackedAlike s d.manager d'.manager ∧
        (Kept s d.manager d'.manager ∨ ∃ sl, e = .updateSl s sl)
    | some i => ∃ stop m, Armed s c i.position i.mark i.atr i.now d.manager stop m ∧
        Kept s m d'.manager := by
  have hstay : ∀ {e : DeskEvent}, evaluation A s d e = none → Kept s d.manager d'.manager →
      d.manager.configs.get s = some c ∧
      match evaluation A s d e with
      | none => TrackedAlike s d.manager d'.manager ∧
          (Kept s d.manager d'.manager ∨ ∃ sl, e = .updateSl s sl)
      | some i => ∃ stop m, Armed s c i.position i.mark i.atr i.now d.manager stop m ∧
          Kept s m d'.manager := by
    intro e hnone hkept
    rw [hnone]
    exact ⟨hkept.config.symm.trans hreg, hkept.toTrackedAlike, .inl hkept⟩
  by_cases hs : e.symbol = some s
  swap
  · refine hstay ?_ (.of_same (h.frame hs))
    cases e with
    | tick s' =>
      have hne : s' ≠ s := fun he => hs (congrArg some he)
      simp [evaluation, hne]
    | setConfig | updateSl | updateTp | invalidate | removeConfig | world => rfl
  cases h with
  | setConfig c' => exact absurd (Option.some.inj hs) (hset c' rfl)
  | updateSl s' sl =>
    obtain rfl : s' = s := Option.some.inj hs
    have hsame : TrackedAlike s' d.manager (d.manager.updateSl s' sl).2 ∧
        (d.manager.updateSl s' sl).2.configs = d.manager.configs := by
      unfold PositionManager.updateSl
      split <;> exact ⟨⟨rfl, rfl, rfl⟩, rfl⟩
    exact ⟨hsame.2 ▸ hreg, hsame.1, .inr ⟨sl, rfl⟩⟩
  | updateTp s' tp =>
    obtain rfl : s' = s := Option.some.inj hs
    refine hstay (e := .updateTp s' tp) rfl ?_
    dsimp only
    unfold PositionManager.updateTp
    split
    · exact .refl s' _
    · exact ⟨⟨rfl, rfl, rfl⟩, rfl, .inl rfl⟩
  | @invalidate s' mark book oid _ _ _ h =>
    obtain rfl : s' = s := Option.some.inj hs
    exact hstay (e := .invalidate s' mark book oid) rfl (.invalidate h hreg)
  | tick h =>
    obtain rfl := Option.some.inj hs
    cases tick_outcome h with
    | unread hp => exact hstay (by simp [evaluation, hp]) (.refl _ _)
    | absent hp =>
      exfalso
      dsimp only at hreg
      split at hreg
      · exact Kept.of_removed hreg
      · rename_i hnone
        rw [hreg] at hnone
        exact hnone rfl
    | unconfigured hp hc => cases hc.symm.trans hreg
    | quiet hp hc ha =>
      have hsame := ha.exits.configs
      dsimp only at hreg
      rw [hsame] at hreg
      cases hc.symm.trans hreg
      refine ⟨hc, ?_⟩
      simp only [evaluation, hp, if_true]
      exact ⟨_, _, ha, .refl _ _⟩
    | fired hp hc ha _ hf =>
      have hkept := Kept.fire hf hreg
      have hconfig := hkept.config
      rw [ha.exits.configs, hreg] at hconfig
      cases hc.symm.trans hconfig.symm
      refine ⟨hc, ?_⟩
      simp only [evaluation, hp, if_true]
      exact ⟨_, _, ha, hkept⟩
  | removeConfig s' =>
    obtain rfl : s' = s := Option.some.inj hs
    exact (Kept.of_removed hreg).elim
  | world => cases hs

end FuturesBot
