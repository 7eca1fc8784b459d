import FuturesBot.Positions.TickService

namespace FuturesBot
open Lib PositionManager PositionTickService

/-- What can happen to a desk: calls of the manager's methods by anyone, and any
change of the exchange that is not the manager's doing. -/
inductive DeskEvent
  | setConfig (config : PositionConfig)
  | updateSl (symbol : Symbol) (newSl : Amount)
  | updateTp (symbol : Symbol) (newTp : Amount)
  | invalidate (symbol : Symbol) (markPrice : Amount) (book : Option (Amount × Amount))
      (orderId : ClientOrderId)
  | tick (symbol : Symbol) (markPrice : Amount) (atr : Option Amount)
      (book : Option (Amount × Amount)) (orderId : ClientOrderId) (now : Seconds)
  | removeConfig (symbol : Symbol)
  | world

inductive DeskStep (A : ExchangeAdapter σ) : Desk σ → DeskEvent → Desk σ → Prop
  | setConfig (c : PositionConfig) (d : Desk σ) :
      DeskStep A d (.setConfig c) ⟨d.manager.setConfig c, d.exchange⟩
  | updateSl (s : Symbol) (sl : Amount) (d : Desk σ) :
      DeskStep A d (.updateSl s sl) ⟨(d.manager.updateSl s sl).2, d.exchange⟩
  | updateTp (s : Symbol) (tp : Amount) (d : Desk σ) :
      DeskStep A d (.updateTp s tp) ⟨(d.manager.updateTp s tp).2, d.exchange⟩
  | invalidate (h : triggerSetupInvalidation A s mark book oid d = (r, d')) :
      DeskStep A d (.invalidate s mark book oid) d'
  | tick (h : tick A s mark atr book oid now d = (r, d')) :
      DeskStep A d (.tick s mark atr book oid now) d'
  | removeConfig (s : Symbol) (d : Desk σ) :
      DeskStep A d (.removeConfig s) ⟨d.manager.removeConfig s, d.exchange⟩
  | world (x : σ) (d : Desk σ) : DeskStep A d .world ⟨d.manager, x⟩

/-- The last level of a list closes all that is left. An empty list has none. -/
def LevelsClose (levels : List TakeProfitLevel) : Prop :=
  ∀ last ∈ levels.getLast?, last.closeFraction = 1

theorem LevelsClose.nil : LevelsClose [] := by simp [LevelsClose]

theorem LevelsClose.tail (h : LevelsClose (level :: later)) : LevelsClose later := by
  cases later with
  | nil => exact .nil
  | cons next rest => simpa [LevelsClose] using h

theorem LevelsClose.single (h : LevelsClose [level]) : level.closeFraction = 1 :=
  h level (by simp)

namespace PositionManager

/-- Every list of levels the manager holds, as configured or as still pending,
ends with a full close. -/
structure EndsWhole (m : PositionManager) : Prop where
  config : ∀ s c, m.configs.get s = some c → LevelsClose c.takeProfitLevels
  remaining : ∀ s, LevelsClose (m.getRemainingTpLevels s)

theorem EndsWhole.fresh : EndsWhole {} :=
  ⟨by simp, by simp [getRemainingTpLevels, LevelsClose.nil]⟩

theorem EndsWhole.sameExits (hm : EndsWhole m) (h : SameExits m m') : EndsWhole m' where
  config s c hc := hm.config s c (h.configs ▸ hc)
  remaining s := (h.getRemainingTpLevels s).symm ▸ hm.remaining s

theorem EndsWhole.setConfig (hm : EndsWhole m) (hc : LevelsClose c.takeProfitLevels) :
    EndsWhole (m.setConfig c) where
  config s c' h := by
    rw [setConfig_configs, Dict.get_set] at h
    split at h
    · cases h
      exact hc
    · exact hm.config s c' h
  remaining s := by
    rw [setConfig_remaining]
    split
    · exact hc
    · exact hm.remaining s

theorem EndsWhole.removeConfig (hm : EndsWhole m) (s : Symbol) : EndsWhole (m.removeConfig s) where
  config s' c h := by
    rw [removeConfig_configs, Dict.get_pop] at h
    split at h
    · cases h
    · exact hm.config s' c h
  remaining s' := by
    rw [removeConfig_remaining]
    split
    · exact .nil
    · exact hm.remaining s'

theorem EndsWhole.setRemaining (hm : EndsWhole m) (hl : LevelsClose levels) (s : Symbol) :
    EndsWhole { m with remainingTpLevels := m.remainingTpLevels.set s levels } where
  config := hm.config
  remaining s' := by
    simp only [getRemainingTpLevels, Dict.get_set]
    split
    · exact hl
    · exact hm.remaining s'

theorem EndsWhole.settle {m : PositionManager} (hm : EndsWhole m)
    (hd : m.dueTrigger s c side mark stop = some t) : EndsWhole (t.settle s m) := by
  unfold ExitTrigger.settle
  split
  · exact hm.removeConfig s
  · cases t with
    | takeProfitLevel level later =>
      have hl := hm.remaining s
      rw [dueTrigger_level hd] at hl
      exact hm.setRemaining hl.tail s
    | stopLoss | invalidation _ | takeProfit | trailingStop => exact ⟨hm.config, hm.remaining⟩

/-- A due trigger that forgets the symbol asks for the whole position. -/
theorem EndsWhole.full {m : PositionManager} (hm : EndsWhole m)
    (hd : m.dueTrigger s c side mark stop = some t) (hf : t.closesFully) : t.fraction = 1 := by
  cases t with
  | stopLoss | takeProfit | trailingStop => rfl
  | invalidation a => exact le_antisymm a.valid.2.2.1 (of_decide_eq_true hf)
  | takeProfitLevel level later =>
    have hl := hm.remaining s
    rw [dueTrigger_level hd, List.isEmpty_iff.mp hf] at hl
    exact hl.single

theorem updateSl_exits (s : Symbol) (sl : Amount) (m : PositionManager) :
    SameExits m (m.updateSl s sl).2 := by
  unfold updateSl
  split <;> exact ⟨rfl, rfl, rfl⟩

theorem EndsWhole.updateTp (hm : EndsWhole m) (s : Symbol) (tp : Amount) :
    EndsWhole (m.updateTp s tp).2 := by
  unfold PositionManager.updateTp
  split
  · exact hm
  · have h := hm.setRemaining .nil s
    exact ⟨h.config, h.remaining⟩

theorem EndsWhole.tick (hm : EndsWhole d.manager) (h : tick A s mark atr book oid now d = (r, d')) :
    EndsWhole d'.manager := by
  cases tick_outcome h with
  | unread | unconfigured => exact hm
  | absent =>
    dsimp only
    split
    · exact hm.removeConfig s
    · exact hm
  | quiet _ _ ha => exact hm.sameExits ha.exits
  | fired hp hc ha hd hf =>
    have hm' := hm.sameExits ha.exits
    cases r with
    | error e =>
      rw [(fire_error hf).2.2]
      split
      · exact hm'.removeConfig s
      · exact hm'
    | ok r =>
      have hc' := ha.exits.configs ▸ Option.isSome_of_eq_some hc
      exact (hm'.settle hd).sameExits (fire_ok hc' hf).2

theorem EndsWhole.invalidate (hm : EndsWhole d.manager)
    (h : triggerSetupInvalidation A s mark book oid d = (r, d')) : EndsWhole d'.manager := by
  unfold triggerSetupInvalidation at h
  split at h
  · cases h
    exact hm
  · split at h
    · cases h
      exact hm
    · cases h
      exact hm
    · split at h
      · rename_i he
        cases h
        rw [(applyInvalidationAction_error he).2.2]
        split
        · exact hm.removeConfig s
        · exact hm
      · rename_i ho
        cases h
        have hs := (applyInvalidationAction_ok ho).2.1
        refine EndsWhole.sameExits ?_ hs
        split
        · exact hm.removeConfig s
        · exact hm

end PositionManager

/-- The condition on a step: configurations are set with lists that close. -/
def SetsClosingLevels (_ : Desk σ) : DeskEvent → Prop
  | .setConfig c => LevelsClose c.takeProfitLevels
  | _ => True

theorem EndsWhole.step (hm : EndsWhole d.manager)
    (h : Guarded (DeskStep A) SetsClosingLevels d e d') : EndsWhole d'.manager := by
  obtain ⟨hs, hok⟩ := h
  cases hs with
  | setConfig c => exact hm.setConfig hok
  | updateSl s sl => exact hm.sameExits (updateSl_exits s sl _)
  | updateTp s tp => exact hm.updateTp s tp
  | invalidate h => exact hm.invalidate h
  | tick h => exact hm.tick h
  | removeConfig s => exact hm.removeConfig s
  | world => exact hm

theorem EndsWhole.run (hm : EndsWhole d.manager)
    (hr : Run (Guarded (DeskStep A) SetsClosingLevels) d es d') : EndsWhole d'.manager :=
  hr.invariant (I := fun d => EndsWhole d.manager) hm (fun _ _ _ hm h => EndsWhole.step hm h)

/-- A turn of the tick service is a tick, followed when it fails by at most one
call of `setConfig`. -/
theorem tickSymbol_run (hm : EndsWhole d.manager) (h : tickSymbol A i s d = (o, d')) :
    ∃ es, Run (Guarded (DeskStep A) SetsClosingLevels) d es d' := by
  unfold tickSymbol at h
  split at h
  · cases h
    exact ⟨[], .nil _⟩
  · rename_i mark _
    rcases ht : tick A s mark none (bookFor i s) (i.orderId s) (i.monotonic s) d with ⟨e | r, d₁⟩
    · simp only [ht] at h
      cases h
      have hs : Run (Guarded (DeskStep A) SetsClosingLevels) d _ d₁ :=
        .snoc (.nil d) ⟨.tick ht, trivial⟩
      unfold reregister getConfig
      cases hc : d.manager.configs.get s with
      | none => exact ⟨_, hs⟩
      | some c =>
        dsimp only
        split
        · exact ⟨_, .snoc hs ⟨.setConfig c d₁, hm.config s c hc⟩⟩
        · exact ⟨_, hs⟩
    · simp only [ht] at h
      cases h
      exact ⟨_, .snoc (.nil d) ⟨.tick ht, trivial⟩⟩

/-- So is a whole cycle a run of the desk, and runs of cycles are covered by what
holds of all runs. -/
theorem tickAll_run (hm : EndsWhole d.manager) (A : ExchangeAdapter σ) (i : CycleInputs) :
    ∃ es, Run (Guarded (DeskStep A) SetsClosingLevels) d es (tickAll A i d).2 := by
  refine tickSymbols_invariant (I := fun _ d' =>
    ∃ es, Run (Guarded (DeskStep A) SetsClosingLevels) d es d') ?_ _ d ⟨[], .nil d⟩
  intro s ss d₁ o d₂ ⟨es, hr⟩ h
  obtain ⟨es', hr'⟩ := tickSymbol_run (EndsWhole.run hm hr) h
  exact ⟨es ++ es', hr.append hr'⟩

end FuturesBot
