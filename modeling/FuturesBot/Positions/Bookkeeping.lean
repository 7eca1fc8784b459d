import FuturesBot.Positions.Closing

namespace FuturesBot
open Lib PositionManager

namespace PositionManager

/-- Nothing is tracked for a symbol that is not registered, and every registered symbol has its
stop, its target and its levels, if only none. -/
structure Bookkept (m : PositionManager) : Prop where
  highWater : ∀ s ∈ m.highWater.keys, s ∈ m.configs.keys
  trailingStop : ∀ s ∈ m.trailingStop.keys, s ∈ m.configs.keys
  smoothedAtr : ∀ s ∈ m.smoothedAtr.keys, s ∈ m.configs.keys
  fired : ∀ s ∈ m.autoInvalidationFired, s ∈ m.configs.keys
  warnedAt : ∀ s ∈ m.atrUnavailWarnedAt.keys, s ∈ m.configs.keys
  effectiveSl : ∀ s, s ∈ m.effectiveSl.keys ↔ s ∈ m.configs.keys
  effectiveTp : ∀ s, s ∈ m.effectiveTp.keys ↔ s ∈ m.configs.keys
  remaining : ∀ s, s ∈ m.remainingTpLevels.keys ↔ s ∈ m.configs.keys

namespace Bookkept

theorem idle : Bookkept .idle := by
  constructor <;> simp [PositionManager.idle]

/-- A binding for a registered symbol adds no symbol. -/
theorem of_set {d : Dict Symbol α} {m : PositionManager} (hs : s ∈ m.configs.keys)
    (h : ∀ s ∈ d.keys, s ∈ m.configs.keys) : ∀ s' ∈ (d.set s v).keys, s' ∈ m.configs.keys := by
  intro s' hs'
  rcases Dict.mem_keys_set.mp hs' with rfl | hs'
  · exact hs
  · exact h s' hs'

theorem of_set_iff {d : Dict Symbol α} {m : PositionManager} (hs : s ∈ m.configs.keys)
    (h : ∀ s, s ∈ d.keys ↔ s ∈ m.configs.keys) (s' : Symbol) :
    s' ∈ (d.set s v).keys ↔ s' ∈ m.configs.keys := by
  rw [Dict.mem_keys_set, h]
  exact or_iff_right_of_imp fun he => he ▸ hs

/-- What is dropped with its symbol is found under other registered symbols only. -/
theorem of_pop {d d' : Dict Symbol α} {configs configs' : Dict Symbol PositionConfig}
    (hd : ∀ s', s' ∈ d'.keys ↔ s' ≠ s ∧ s' ∈ d.keys)
    (hkept : ∀ s', s' ≠ s → s' ∈ configs.keys → s' ∈ configs'.keys)
    (h : ∀ s ∈ d.keys, s ∈ configs.keys) : ∀ s' ∈ d'.keys, s' ∈ configs'.keys := by
  intro s' hs'
  obtain ⟨hne, hs'⟩ := (hd s').mp hs'
  exact hkept s' hne (h s' hs')

theorem setConfig (hm : Bookkept m) (c : PositionConfig) : Bookkept (m.setConfig c) := by
  have hkept : ∀ s, s ≠ c.symbol → s ∈ m.configs.keys → s ∈ (m.setConfig c).configs.keys :=
    fun s _ hs => Dict.mem_keys_set.mpr (.inr hs)
  constructor
  · exact of_pop (fun _ => Dict.mem_keys_pop) hkept hm.highWater
  · exact of_pop (fun _ => Dict.mem_keys_pop) hkept hm.trailingStop
  · exact of_pop (fun _ => Dict.mem_keys_pop) hkept hm.smoothedAtr
  · intro s hs
    obtain ⟨hne, hs⟩ := Finset.mem_erase.mp hs
    exact hkept s hne (hm.fired s hs)
  · exact of_pop (fun _ => Dict.mem_keys_pop) hkept hm.warnedAt
  · intro s
    exact Dict.mem_keys_set.trans (or_congr_right (hm.effectiveSl s)) |>.trans
      Dict.mem_keys_set.symm
  · intro s
    exact Dict.mem_keys_set.trans (or_congr_right (hm.effectiveTp s)) |>.trans
      Dict.mem_keys_set.symm
  · intro s
    exact Dict.mem_keys_set.trans (or_congr_right (hm.remaining s)) |>.trans
      Dict.mem_keys_set.symm

theorem removeConfig (hm : Bookkept m) (s : Symbol) : Bookkept (m.removeConfig s) := by
  have hkept : ∀ s', s' ≠ s → s' ∈ m.configs.keys → s' ∈ (m.removeConfig s).configs.keys :=
    fun s' hne hs => Dict.mem_keys_pop.mpr ⟨hne, hs⟩
  constructor
  · exact of_pop (fun _ => Dict.mem_keys_pop) hkept hm.highWater
  · exact of_pop (fun _ => Dict.mem_keys_pop) hkept hm.trailingStop
  · exact of_pop (fun _ => Dict.mem_keys_pop) hkept hm.smoothedAtr
  · intro s' hs
    obtain ⟨hne, hs⟩ := Finset.mem_erase.mp hs
    exact hkept s' hne (hm.fired s' hs)
  · exact of_pop (fun _ => Dict.mem_keys_pop) hkept hm.warnedAt
  · intro s'
    exact Dict.mem_keys_pop.trans (and_congr_right' (hm.effectiveSl s')) |>.trans
      Dict.mem_keys_pop.symm
  · intro s'
    exact Dict.mem_keys_pop.trans (and_congr_right' (hm.effectiveTp s')) |>.trans
      Dict.mem_keys_pop.symm
  · intro s'
    exact Dict.mem_keys_pop.trans (and_congr_right' (hm.remaining s')) |>.trans
      Dict.mem_keys_pop.symm

section Registered
variable {m : PositionManager} {s : Symbol} (hm : Bookkept m) (hs : s ∈ m.configs.keys)
include hm hs

theorem setEffectiveSl (sl : Option Amount) :
    Bookkept { m with effectiveSl := m.effectiveSl.set s sl } :=
  { hm with effectiveSl := of_set_iff hs hm.effectiveSl }

theorem setRemaining (levels : List TakeProfitLevel) :
    Bookkept { m with remainingTpLevels := m.remainingTpLevels.set s levels } :=
  { hm with remaining := of_set_iff hs hm.remaining }

theorem insertFired :
    Bookkept { m with autoInvalidationFired := insert s m.autoInvalidationFired } := by
  refine { hm with fired := ?_ }
  intro s' hs'
  rcases Finset.mem_insert.mp hs' with rfl | hs'
  · exact hs
  · exact hm.fired s' hs'

theorem updateSmoothedAtr (c : PositionConfig) (atr : Option Amount) :
    Bookkept (m.updateSmoothedAtr s c atr).2 := by
  unfold PositionManager.updateSmoothedAtr
  cases atr with
  | none => exact hm
  | some atr => exact { hm with smoothedAtr := of_set hs hm.smoothedAtr }

theorem warnAtrUnavailable (now : Seconds) : Bookkept (m.warnAtrUnavailable s now) := by
  unfold PositionManager.warnAtrUnavailable
  split
  · exact { hm with warnedAt := of_set hs hm.warnedAt }
  · exact hm

end Registered

theorem atrFor (hm : Bookkept m) (hs : s ∈ m.configs.keys)
    (h : m.atrFor s c mode atr = (v, m₁)) : Bookkept m₁ ∧ s ∈ m₁.configs.keys := by
  have hsame := (atrFor_exits s c mode atr m).configs
  rw [h] at hsame
  refine ⟨?_, hsame ▸ hs⟩
  unfold PositionManager.atrFor at h
  split at h
  · have hkept := hm.updateSmoothedAtr hs c (atr.filter (fun a => 0 < a))
    rw [h] at hkept
    exact hkept
  · cases h
    exact hm

theorem trailed (hm : Bookkept m) (hs : s ∈ m.configs.keys)
    (h : Trailed s c side mark atr now m stop m') : Bookkept m' := by
  cases h with
  | off => exact hm
  | unavailable _ hread =>
    obtain ⟨hm₁, hs₁⟩ := hm.atrFor hs hread
    refine warnAtrUnavailable ?_ ?_ now
    · exact { hm₁ with highWater := of_set hs₁ hm₁.highWater }
    · exact hs₁
  | trailed _ hread =>
    obtain ⟨hm₁, hs₁⟩ := hm.atrFor hs hread
    exact { hm₁ with
      highWater := of_set hs₁ hm₁.highWater
      trailingStop := of_set hs₁ hm₁.trailingStop }

theorem updateBreakEven (hm : Bookkept m) (hs : s ∈ m.configs.keys) (c : PositionConfig)
    (p : PositionState) (mark : Amount) : Bookkept (m.updateBreakEven s c p mark) := by
  unfold PositionManager.updateBreakEven
  split
  · exact hm
  · split
    · exact hm
    · exact hm.setEffectiveSl hs _

theorem armed (hm : Bookkept m) (hs : s ∈ m.configs.keys)
    (h : Armed s c p mark atr now m stop m') : Bookkept m' := by
  obtain ⟨m₁, htrailed, rfl⟩ := h.trailed
  exact (hm.trailed hs htrailed).updateBreakEven (htrailed.exits.configs ▸ hs) c p mark

theorem settleInvalidation (hm : Bookkept m) (s : Symbol) (mark : Amount) (a : InvalidationAction)
    (oldSl : Option Amount) (oid : Option ClientOrderId) :
    Bookkept (m.settleInvalidation s mark a oldSl oid).2 := by
  have hmoved : ∀ sl, (if (m.configs.get s).isSome then a.newSl else none) = some sl →
      s ∈ m.configs.keys := by
    intro sl h
    split at h
    · rename_i hs
      exact (m.configs.mem_keys s).mpr hs
    · cases h
  unfold PositionManager.settleInvalidation
  dsimp only
  split
  · rename_i sl hsl
    exact { hm.setEffectiveSl (hmoved sl hsl) (some sl) with }
  · exact { hm with }

theorem applyInvalidationAction (hm : Bookkept m)
    (h : applyInvalidationAction A s mark a p book oid ⟨m, x⟩ = (r, d')) : Bookkept d'.manager := by
  have hclosed : Bookkept (if 1 ≤ a.closeFraction then m.removeConfig s else m) := by
    split
    · exact hm.removeConfig s
    · exact hm
  unfold PositionManager.applyInvalidationAction at h
  dsimp only at h
  split at h
  · split at h
    · cases h
      exact hclosed
    · cases h
      exact hclosed.settleInvalidation ..
  · cases h
    exact hm.settleInvalidation ..

theorem fire (hm : Bookkept d.manager) (hs : s ∈ d.manager.configs.keys)
    (h : fire A s c p mark book oid t d = (r, d')) : Bookkept d'.manager := by
  cases r with
  | error e =>
    rw [(fire_error h).2.2]
    split
    · exact hm.removeConfig s
    · exact hm
  | ok r =>
    cases t with
    | stopLoss | takeProfit | trailingStop =>
      rw [(closeWhole_ok h).2.1]
      exact hm.removeConfig s
    | invalidation a =>
      simp only [PositionManager.fire, invalidateOnce] at h
      split at h
      · cases h
      · rename_i happlied
        have hkept := hm.applyInvalidationAction happlied
        cases h
        split
        · rename_i hs
          exact hkept.insertFired ((Dict.mem_keys _ s).mpr hs)
        · exact hkept
    | takeProfitLevel level later =>
      rw [(closeLevel_ok h).2.1]
      split
      · exact hm.removeConfig s
      · exact hm.setRemaining hs later

theorem tick (hm : Bookkept d.manager) (h : tick A s mark atr book oid now d = (r, d')) :
    Bookkept d'.manager := by
  cases tick_outcome h with
  | unread | unconfigured => exact hm
  | absent =>
    dsimp only
    split
    · exact hm.removeConfig s
    · exact hm
  | quiet _ hc ha => exact hm.armed (Dict.mem_keys_of_get hc) ha
  | fired _ hc ha _ hf =>
    have hs := Dict.mem_keys_of_get hc
    exact (hm.armed hs ha).fire (ha.exits.configs ▸ hs) hf

theorem invalidate (hm : Bookkept d.manager)
    (h : triggerSetupInvalidation A s mark book oid d = (r, d')) : Bookkept d'.manager := by
  unfold triggerSetupInvalidation at h
  split at h
  · cases h
    exact hm
  · split at h
    · cases h
      exact hm
    · cases h
      exact hm
    · split at h
      all_goals
        rename_i happlied
        cases h
        exact hm.applyInvalidationAction happlied

theorem registered {m : PositionManager} (h : ¬(m.configs.get s).isNone) : s ∈ m.configs.keys := by
  rw [Dict.mem_keys, Option.isSome_iff_ne_none]
  exact mt Option.isNone_iff_eq_none.mpr h

theorem updateSl (hm : Bookkept m) (s : Symbol) (sl : Amount) : Bookkept (m.updateSl s sl).2 := by
  unfold PositionManager.updateSl
  split
  · exact hm
  · rename_i hs
    exact hm.setEffectiveSl (registered hs) _

theorem updateTp (hm : Bookkept m) (s : Symbol) (tp : Amount) : Bookkept (m.updateTp s tp).2 := by
  unfold PositionManager.updateTp
  split
  · exact hm
  · rename_i hs
    exact { hm.setRemaining (registered hs) [] with
      effectiveTp := of_set_iff (registered hs) hm.effectiveTp }

theorem step (hm : Bookkept d.manager) (h : DeskStep A d e d') : Bookkept d'.manager := by
  cases h with
  | setConfig c => exact hm.setConfig c
  | updateSl s sl => exact hm.updateSl s sl
  | updateTp s tp => exact hm.updateTp s tp
  | invalidate h => exact hm.invalidate h
  | tick h => exact hm.tick h
  | removeConfig s => exact hm.removeConfig s
  | world => exact hm

end Bookkept

/-- However the calls of a manager end, its books are kept. -/
theorem desk_bookkept (hr : Run (DeskStep A) ⟨.idle, x⟩ es d) : d.manager.Bookkept :=
  hr.invariant (I := fun d => Bookkept d.manager) .idle (fun _ _ _ hm h => hm.step h)

theorem closed_level_bookkept : (atTarget wholeLevel).2.manager.Bookkept := by
  have hr : Run (DeskStep PaperAdapter.exchange) ⟨.idle, bought⟩
      [.setConfig wholeLevel, .tick "BTCUSDT" 110 none none "close" 0] (atTarget wholeLevel).2 :=
    .snoc (.snoc (.nil _) (.setConfig wholeLevel _)) (.tick rfl)
  exact desk_bookkept hr

end PositionManager

end FuturesBot
