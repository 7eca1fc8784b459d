import FuturesBot.Positions.Ledger

namespace FuturesBot
open Lib PositionManager PositionTickService

section Contract
variable {A : ExchangeAdapter σ} {held : σ → Symbol → Amount} {fresh : σ → ClientOrderId → Prop}

/-- A symbol is covered when its exits are registered or nothing of it is open. -/
def Covered (held : σ → Symbol → Amount) (s : Symbol) (d : Desk σ) : Prop :=
  (d.manager.getConfig s).isSome ∨ held d.exchange s = 0

theorem exitOrder_refused (hA : FillsOrRefuses A held fresh)
    (h : exitOrder A s p mark book oid t x = (.error e, x')) : held x' = held x := by
  unfold exitOrder placeCloseOrder at h
  split at h
  · cases h
    rfl
  · rename_i req _
    rcases ho : A.placeOrder req x with ⟨e' | r, x₁⟩
    · rw [ho] at h
      cases h
      have hx := hA.placeOrder_refused req x e (by rw [ho])
      rwa [ho] at hx
    · rw [ho] at h
      cases h

theorem exitOrder_filled (hA : FillsOrRefuses A held fresh) (hf : fresh x oid)
    (h : exitOrder A s p mark book oid t x = (.ok oid', x')) :
    held x' = Function.update (held x) s (held x s - min (p.quantity * t.fraction) (held x s)) := by
  unfold exitOrder placeCloseOrder at h
  split at h
  · cases h
  · rename_i req hb
    have hq := OrderRequest.build_ok hb
    rcases ho : A.placeOrder req x with ⟨e' | r, x₁⟩
    · rw [ho] at h
      cases h
    · rw [ho] at h
      cases h
      have hx := hA.placeOrder_filled req x r (by rw [hq]; exact hf) (by rw [hq]; rfl)
        (by rw [hq]; rfl) (by rw [ho])
      rw [ho, hq] at hx
      exact hx

theorem exitOrder_fresh (hA : FillsOrRefuses A held fresh) (hf : fresh x oid') (hn : oid' ≠ oid)
    (h : exitOrder A s p mark book oid t x = (r, x')) : fresh x' oid' := by
  unfold exitOrder placeCloseOrder at h
  split at h
  · cases h
    exact hf
  · rename_i req hb
    have hq := OrderRequest.build_ok hb
    have hx := hA.placeOrder_fresh req x oid' hf (by rw [hq]; exact hn)
    split at h
    all_goals
      rename_i ho
      cases h
      rwa [ho] at hx

theorem getPosition_keeps (hA : FillsOrRefuses A held fresh)
    (hp : A.getPosition s x = (r, x')) :
    held x' = held x ∧ ∀ oid, fresh x oid → fresh x' oid := by
  have hh := hA.getPosition_held s x
  have hf := hA.getPosition_fresh s x
  rw [hp] at hh hf
  exact ⟨hh, hf⟩

theorem getPosition_quantity (hA : FillsOrRefuses A held fresh)
    (hp : A.getPosition s x = (.ok (some p), x')) : held x' s = p.quantity := by
  rw [(getPosition_keeps hA hp).1]
  exact hA.getPosition_some s x p (by rw [hp])

theorem setConfig_removed_get {m : PositionManager} (hc : m.configs.get s = some c) :
    ((m.removeConfig s).setConfig c).configs.get s' = m.configs.get s' := by
  rw [setConfig_configs, removeConfig_configs, m.configs_symbol s c hc, Dict.get_set, Dict.get_pop]
  split
  · rename_i he
    rw [he, hc]
  · rfl

/-- A turn leaves the exits and the open quantity of other symbols as they are. -/
theorem turn_frame (hA : FillsOrRefuses A held fresh) (hf : fresh d.exchange (i.orderId s))
    (h : SymbolOutcome A i s d o d') (hn : s' ≠ s) :
    d'.manager.configs.get s' = d.manager.configs.get s' ∧
    held d'.exchange s' = held d.exchange s' := by
  cases h with
  | quiet hx hs _ =>
    refine ⟨by rw [hs.configs], ?_⟩
    rcases hx with hx | hx
    · rw [hx]
    · rw [hx, hA.getPosition_held]
  | absent hp hd => exact ⟨by simp [hd, hn], by rw [(getPosition_keeps hA hp).1]⟩
  | refused hp hcfg _ ha _ _ he hd =>
    refine ⟨?_, by rw [exitOrder_refused hA he, (getPosition_keeps hA hp).1]⟩
    rw [hd]
    split
    · rw [setConfig_removed_get (ha.exits.configs ▸ hcfg), ha.exits.configs]
    · rw [ha.exits.configs]
  | accepted hp hcfg _ ha hd hfire =>
    have hk := getPosition_keeps hA hp
    obtain ⟨ho, hs⟩ := fire_ok (ha.exits.configs ▸ Option.isSome_of_eq_some hcfg) hfire
    refine ⟨?_, ?_⟩
    · rw [hs.configs, ExitTrigger.settle_configs, ha.exits.configs]
      split
      · exact Dict.get_pop_ne _ hn
      · rfl
    · split at ho
      · rw [exitOrder_filled hA (hk.2 _ hf) ho, Function.update_of_ne hn, hk.1]
      · rw [ho, hk.1]

/-- The symbol of the turn loses its exits only together with its whole position. -/
theorem turn_own (hA : FillsOrRefuses A held fresh) (hm : EndsWhole d.manager)
    (hf : fresh d.exchange (i.orderId s)) (h : SymbolOutcome A i s d o d')
    (hc : Covered held s d) : Covered held s d' := by
  cases h with
  | quiet hx hs _ =>
    have hh : held d'.exchange = held d.exchange := by
      rcases hx with hx | hx
      · rw [hx]
      · rw [hx, hA.getPosition_held]
    rwa [Covered, getConfig, hs.configs, hh]
  | absent hp hd =>
    right
    rw [(getPosition_keeps hA hp).1]
    exact hA.getPosition_none s _ (by rw [hp])
  | refused hp hcfg _ ha _ _ he hd =>
    left
    rw [getConfig, hd]
    split
    · rw [setConfig_removed_get (ha.exits.configs ▸ hcfg), ha.exits.configs, hcfg]
      rfl
    · rw [ha.exits.configs, hcfg]
      rfl
  | @accepted p x c mark stop m t r _ hp hcfg _ ha hd hfire =>
    have hk := getPosition_keeps hA hp
    obtain ⟨ho, hs⟩ := fire_ok (ha.exits.configs ▸ Option.isSome_of_eq_some hcfg) hfire
    by_cases hfull : t.closesFully
    · right
      have h1 := (hm.sameExits ha.exits).full hd hfull
      rw [if_pos (h1 ▸ one_pos)] at ho
      rw [exitOrder_filled hA (hk.2 _ hf) ho, Function.update_self, h1, mul_one,
        getPosition_quantity hA hp, min_self, sub_self]
    · left
      rw [getConfig, hs.configs, ExitTrigger.settle_configs, if_neg hfull, ha.exits.configs, hcfg]
      rfl

/-- The identifiers of the turns still to come stay unused. -/
theorem turn_fresh (hA : FillsOrRefuses A held fresh) (h : SymbolOutcome A i s d o d')
    (hf : fresh d.exchange oid) (hn : oid ≠ i.orderId s) : fresh d'.exchange oid := by
  cases h with
  | quiet hx _ _ =>
    rcases hx with hx | hx
    · rwa [hx]
    · rw [hx]
      exact hA.getPosition_fresh _ _ _ hf
  | absent hp _ => exact (getPosition_keeps hA hp).2 _ hf
  | refused hp _ _ _ _ _ he _ => exact exitOrder_fresh hA ((getPosition_keeps hA hp).2 _ hf) hn he
  | accepted hp hcfg _ ha hd hfire =>
    have hk := (getPosition_keeps hA hp).2 _ hf
    have ho := (fire_ok (ha.exits.configs ▸ Option.isSome_of_eq_some hcfg) hfire).1
    split at ho
    · exact exitOrder_fresh hA hk hn ho
    · rwa [ho]

/-- What a cycle needs of the turns it still has to take. -/
structure Pending (held : σ → Symbol → Amount) (fresh : σ → ClientOrderId → Prop) (i : CycleInputs)
    (s : Symbol) (ss : List Symbol) (d : Desk σ) : Prop where
  ends : EndsWhole d.manager
  ids : (ss.map i.orderId).Nodup
  unused : ∀ s' ∈ ss, fresh d.exchange (i.orderId s')
  covered : Covered held s d

theorem Pending.turn (hA : FillsOrRefuses A held fresh) (hp : Pending held fresh i s (s₁ :: ss) d)
    (ht : tickSymbol A i s₁ d = (o, d')) : Pending held fresh i s ss d' := by
  have h := tickSymbol_outcome ht
  have hf := hp.unused s₁ (by simp)
  obtain ⟨hn, hids⟩ := List.nodup_cons.mp hp.ids
  obtain ⟨es, hr⟩ := tickSymbol_run hp.ends ht
  refine ⟨EndsWhole.run hp.ends hr, hids, ?_, ?_⟩
  · intro s' hs'
    refine turn_fresh hA h (hp.unused s' (by simp [hs'])) ?_
    intro he
    exact hn (he ▸ List.mem_map_of_mem hs')
  · by_cases hs : s = s₁
    · subst hs
      exact turn_own hA hp.ends hf h hp.covered
    · have hfr := turn_frame hA hf h hs
      unfold Covered getConfig
      rw [hfr.1, hfr.2]
      exact hp.covered

/-- After a cycle every symbol that had exits and is still open still has them:
whatever reads, books and orders failed on the way, and in whatever order the
symbols were taken. -/
theorem tickAll_keeps_protection (hA : FillsOrRefuses A held fresh)
    (hr : Run (Guarded (DeskStep A) SetsClosingLevels) ⟨{}, x⟩ es d)
    (hids : (d.manager.configuredSymbols.map i.orderId).Nodup)
    (hf : ∀ s ∈ d.manager.configuredSymbols, fresh d.exchange (i.orderId s))
    (hb : (d.manager.getConfig s).isSome) (ho : held (tickAll A i d).2.exchange s ≠ 0) :
    ((tickAll A i d).2.manager.getConfig s).isSome := by
  have hp : Pending held fresh i s d.manager.configuredSymbols d :=
    ⟨EndsWhole.run .fresh hr, hids, hf, .inl hb⟩
  have hc := (tickSymbols_invariant (I := Pending held fresh i s)
    (fun _ _ _ _ _ hp ht => hp.turn hA ht) _ d hp).covered
  exact hc.resolve_right ho

end Contract

/-- The simulation behind a transport, with orders that fill or have no effect. -/
abbrev atomicPaper : ExchangeAdapter (PaperAdapter × List Bool) :=
  PaperAdapter.exchange.atomic.refusing

def deskWhole : Desk (PaperAdapter × List Bool) :=
  ⟨(deskWith wholeLevel).manager, bought, [true]⟩

/-- The full close at the target is refused, and the symbol is registered again. -/
theorem refused_close_keeps_exits :
    ((tickAll atomicPaper (cycleAt 110 "close") deskWhole).2.manager.getConfig "BTCUSDT").isSome := by
  have hl : LevelsClose wholeLevel.takeProfitLevels := by simp [wholeLevel, oneLevel, LevelsClose]
  have hr : Run (Guarded (DeskStep atomicPaper) SetsClosingLevels) ⟨{}, bought, [true]⟩
      [.setConfig wholeLevel] deskWhole := .snoc (.nil _) ⟨.setConfig wholeLevel _, hl⟩
  have hsym : deskWhole.manager.configuredSymbols = ["BTCUSDT"] := by decide
  refine tickAll_keeps_protection PaperAdapter.exchange_fillsOrRefuses.refusing hr ?_ ?_ ?_ ?_
  · rw [hsym]
    simp
  · intro s _
    change deskWhole.exchange.1.orders.get "close" = none
    exact Option.isNone_iff_eq_none.mp (by decide +kernel)
  · decide +kernel
  · decide +kernel

end FuturesBot
