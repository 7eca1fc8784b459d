import FuturesBot.Positions.Closing
import Mathlib.Data.List.Count

namespace FuturesBot
open Lib PositionManager PositionTickService

/-- A run as the callers of the tick service see it. -/
inductive CycleEvent
  | setConfig (config : PositionConfig)
  | tickAll (inputs : CycleInputs) (results : List TickResult)
  | world

inductive CycleStep (A : ExchangeAdapter σ) : Desk σ → CycleEvent → Desk σ → Prop
  | setConfig (c : PositionConfig) (d : Desk σ) :
      CycleStep A d (.setConfig c) ⟨d.manager.setConfig c, d.exchange⟩
  | tickAll (h : tickAll A i d = (rs, d')) : CycleStep A d (.tickAll i rs) d'
  | world (x : σ) (d : Desk σ) : CycleStep A d .world ⟨d.manager, x⟩

/-- What the cycles reported for a symbol since a caller last configured it. -/
def reported (s : Symbol) (past : List TickResult) : CycleEvent → List TickResult
  | .setConfig c => if c.symbol = s then [] else past
  | .tickAll _ results => past ++ results.filter (fun r => r.symbol = s)
  | .world => past

/-- Each level, and the automatic invalidation, shows up at most once. A result
with a level index reports an accepted close order for that level. -/
structure AtMostOnce (rs : List TickResult) : Prop where
  levels : (rs.filterMap (·.tpLevelIndex)).Nodup
  invalidation : rs.countP (fun r => r.trigger = .setupInvalidated) ≤ 1

theorem AtMostOnce.nil : AtMostOnce [] := ⟨by simp, by simp⟩

/-- A result that is neither a level nor an invalidation repeats nothing. -/
def Plain (r : TickResult) : Prop := r.tpLevelIndex = none ∧ r.trigger ≠ .setupInvalidated

theorem AtMostOnce.plain (h : AtMostOnce rs) (hr : Plain r) : AtMostOnce (rs ++ [r]) where
  levels := by simpa [List.filterMap_append, hr.1] using h.levels
  invalidation := by simpa [List.countP_append, hr.2] using h.invalidation

theorem AtMostOnce.level (h : AtMostOnce rs) (hk : r.tpLevelIndex = some k)
    (ht : r.trigger ≠ .setupInvalidated) (hn : ∀ r ∈ rs, r.tpLevelIndex ≠ some k) :
    AtMostOnce (rs ++ [r]) where
  levels := by
    rw [List.filterMap_append]
    refine List.nodup_append.mpr ⟨h.levels, by simp [hk], ?_⟩
    intro j hj j' hj' he
    obtain ⟨r', hr', hj⟩ := List.mem_filterMap.mp hj
    simp only [List.filterMap_cons, hk, List.filterMap_nil, List.mem_singleton] at hj'
    exact hn r' hr' (by rw [hj, he, hj'])
  invalidation := by simpa [List.countP_append, ht] using h.invalidation

theorem AtMostOnce.invalidated (h : AtMostOnce rs) (hk : r.tpLevelIndex = none)
    (hn : ∀ r ∈ rs, r.trigger ≠ .setupInvalidated) : AtMostOnce (rs ++ [r]) where
  levels := by simpa [List.filterMap_append, hk] using h.levels
  invalidation := by
    have hz : rs.countP (fun r => r.trigger = .setupInvalidated) = 0 :=
      List.countP_eq_zero.mpr (fun r hr => by simpa using hn r hr)
    rw [List.countP_append, hz, zero_add]
    exact List.countP_le_length

/-- What the manager remembers of a symbol agrees with what has been reported: the
pending levels are those after the reported ones, and an invalidation that has
been reported is marked as fired. -/
structure Ledger (s : Symbol) (rs : List TickResult) (m : PositionManager) : Prop where
  once : AtMostOnce rs
  pending : ∀ c, m.configs.get s = some c → ∃ k ≤ c.takeProfitLevels.length,
    m.getRemainingTpLevels s = c.takeProfitLevels.drop k ∧
    ∀ r ∈ rs, ∀ j, r.tpLevelIndex = some j → j < k
  fired : (m.configs.get s).isSome → s ∉ m.autoInvalidationFired →
    ∀ r ∈ rs, r.trigger ≠ .setupInvalidated

/-- The two managers agree on one symbol. -/
structure SameAt (s : Symbol) (m m' : PositionManager) : Prop where
  configs : m'.configs.get s = m.configs.get s
  remaining : m'.getRemainingTpLevels s = m.getRemainingTpLevels s
  fired : s ∈ m'.autoInvalidationFired ↔ s ∈ m.autoInvalidationFired

theorem SameAt.trans (h : SameAt s m m') (h' : SameAt s m' m'') : SameAt s m m'' :=
  ⟨h'.configs.trans h.configs, h'.remaining.trans h.remaining, h'.fired.trans h.fired⟩

theorem sameAt_of_exits (h : SameExits m m') (s : Symbol) : SameAt s m m' :=
  ⟨by rw [h.configs], h.getRemainingTpLevels s, by rw [h.fired]⟩

theorem removeConfig_sameAt (hn : s ≠ s') (m : PositionManager) : SameAt s m (m.removeConfig s') :=
  ⟨by simp [hn], by rw [removeConfig_remaining, if_neg hn], by simp [hn]⟩

theorem setConfig_sameAt (hn : s ≠ c.symbol) (m : PositionManager) : SameAt s m (m.setConfig c) :=
  ⟨by simp [hn], by rw [setConfig_remaining, if_neg hn], by simp [hn]⟩

theorem settle_sameAt (hn : s ≠ s') (m : PositionManager) (t : ExitTrigger) :
    SameAt s m (t.settle s' m) := by
  unfold ExitTrigger.settle
  split
  · exact removeConfig_sameAt hn m
  · cases t with
    | stopLoss | takeProfit | trailingStop => exact ⟨rfl, rfl, .rfl⟩
    | invalidation a => exact ⟨rfl, rfl, by simp [hn]⟩
    | takeProfitLevel level later => exact ⟨rfl, by simp [getRemainingTpLevels, hn], .rfl⟩

theorem Ledger.sameAt (h : Ledger s rs m) (hs : SameAt s m m') : Ledger s rs m' where
  once := h.once
  pending c hc := by
    rw [hs.remaining]
    exact h.pending c (hs.configs ▸ hc)
  fired hc hf := h.fired (hs.configs ▸ hc) (fun hm => hf (hs.fired.mpr hm))

theorem Ledger.fresh (hc : m.configs.get s = some c)
    (hr : m.getRemainingTpLevels s = c.takeProfitLevels) (h : AtMostOnce rs)
    (hp : ∀ r ∈ rs, Plain r) : Ledger s rs m where
  once := h
  pending c' hc' := by
    rw [hc] at hc'
    cases hc'
    refine ⟨0, Nat.zero_le _, hr, ?_⟩
    intro r hm j hj
    rw [(hp r hm).1] at hj
    cases hj
  fired _ _ r hm := (hp r hm).2

theorem Ledger.gone (hc : m.configs.get s = none) (h : AtMostOnce rs) : Ledger s rs m where
  once := h
  pending c hc' := by rw [hc] at hc'; cases hc'
  fired hc' := by rw [hc] at hc'; cases hc'

theorem Ledger.plain (h : Ledger s rs m) (hr : Plain r) : Ledger s (rs ++ [r]) m where
  once := h.once.plain hr
  pending c hc := by
    obtain ⟨k, hk, hd, hj⟩ := h.pending c hc
    refine ⟨k, hk, hd, ?_⟩
    intro r' hm j he
    rcases List.mem_append.mp hm with hm | hm
    · exact hj r' hm j he
    · rw [List.mem_singleton.mp hm, hr.1] at he
      cases he
  fired hc hf r' hm := by
    rcases List.mem_append.mp hm with hm | hm
    · exact h.fired hc hf r' hm
    · rw [List.mem_singleton.mp hm]
      exact hr.2

/-- Something of the configuration has been used up: a level, or the automatic
invalidation. -/
def Consumed (s : Symbol) (m : PositionManager) : Prop :=
  (∃ c, m.configs.get s = some c ∧
    (m.getRemainingTpLevels s).length < c.takeProfitLevels.length) ∨
  s ∈ m.autoInvalidationFired

/-- The turn of the symbol finds a full close due, and its order raises. -/
def FullCloseFails (A : ExchangeAdapter σ) (i : CycleInputs) (s : Symbol) (d : Desk σ) : Prop :=
  ∃ p x c mark stop m t e, A.getPosition s d.exchange = (.ok (some p), x) ∧
    d.manager.configs.get s = some c ∧ i.getMarkPrice s = .ok mark ∧
    Armed s c p mark none (i.monotonic s) d.manager stop m ∧ m.dueTrigger s c p.side mark stop = some t ∧
    t.closesFully ∧ (exitOrder A s p mark (bookFor i s) (i.orderId s) t x).1 = .error e

/-- The condition on a turn: a full close does not fail once something is used up. -/
def SafeTurn (A : ExchangeAdapter σ) (i : CycleInputs) (s : Symbol) (d : Desk σ) : Prop :=
  ¬(Consumed s d.manager ∧ FullCloseFails A i s d)

/-- The condition on a cycle: each of its turns is safe in the state it finds. -/
def SafeCycle (A : ExchangeAdapter σ) (d : Desk σ) : CycleEvent → Prop
  | .tickAll i _ => ∀ taken s rest, d.manager.configuredSymbols = taken ++ s :: rest →
      SafeTurn A i s (tickSymbols A i taken d).2
  | _ => True

/-- While nothing is used up nothing can have been reported. -/
theorem Ledger.plain_of_unconsumed (h : Ledger s rs m) (hc : m.configs.get s = some c)
    (hn : ¬Consumed s m) : ∀ r ∈ rs, Plain r := by
  obtain ⟨k, hk, hd, hj⟩ := h.pending c hc
  have hl : ¬(m.getRemainingTpLevels s).length < c.takeProfitLevels.length :=
    fun hl => hn (.inl ⟨c, hc, hl⟩)
  rw [hd, List.length_drop] at hl
  have hz : k = 0 := by omega
  intro r hm
  refine ⟨?_, h.fired (by rw [hc]; rfl) (fun hf => hn (.inr hf)) r hm⟩
  cases he : r.tpLevelIndex with
  | none => rfl
  | some j =>
    have := hj r hm j he
    omega

/-- A turn of another symbol changes nothing here. -/
theorem turn_other (h : SymbolOutcome A i s' d o d') (hn : s ≠ s') :
    SameAt s d.manager d'.manager ∧ o.toList.filter (fun r => r.symbol = s) = [] := by
  have hi : ∀ mark, (TickResult.idle s' mark).symbol ≠ s := fun _ he => hn he.symm
  cases h with
  | quiet _ hs ho =>
    refine ⟨sameAt_of_exits hs s, ?_⟩
    rcases ho with rfl | ⟨mark, rfl⟩
    · rfl
    · simp [hi]
  | absent _ hm => exact ⟨hm ▸ removeConfig_sameAt hn _, by simp [hi]⟩
  | refused hp hc _ ha hd _ _ hm =>
    refine ⟨(sameAt_of_exits ha.exits s).trans ?_, rfl⟩
    rw [hm]
    split
    · exact (removeConfig_sameAt hn _).trans
        (setConfig_sameAt (by rw [d.manager.configs_symbol s' _ hc]; exact hn) _)
    · exact ⟨rfl, rfl, .rfl⟩
  | accepted hp hc _ ha hd hf =>
    have hc' := ha.exits.configs ▸ Option.isSome_of_eq_some hc
    refine ⟨?_, ?_⟩
    · exact ((sameAt_of_exits ha.exits s).trans (settle_sameAt hn _ _)).trans
        (sameAt_of_exits (fire_ok hc' hf).2 s)
    · have hr := (fire_report hf).1
      simp [hr, Ne.symm hn]

/-- The accepted triggers. A level is reported under the index that was pending,
and an invalidation only while it was not marked as fired. -/
theorem Ledger.accepted {m : PositionManager} (h : Ledger s rs m)
    (hc : m.configs.get s = some c) (hd : m.dueTrigger s c side mark stop = some t)
    (hf : fire A s c p mark book oid t ⟨m, x⟩ = (.ok r, d')) : Ledger s (rs ++ [r]) d'.manager := by
  have hs := (fire_ok (Option.isSome_of_eq_some hc) hf).2
  refine Ledger.sameAt ?_ (sameAt_of_exits hs s)
  have hr := (fire_report hf).2
  have forgotten (hfull : t.closesFully) (ho : AtMostOnce (rs ++ [r])) :
      Ledger s (rs ++ [r]) (t.settle s m) := by
    refine .gone ?_ ho
    rw [ExitTrigger.settle_configs, if_pos hfull]
    simp
  cases t with
  | stopLoss | takeProfit | trailingStop => exact forgotten rfl (h.once.plain hr)
  | invalidation a =>
    have hn := dueTrigger_invalidation hd
    have hi := h.fired (Option.isSome_of_eq_some hc) hn
    have ho := h.once.invalidated hr hi
    by_cases hfull : (ExitTrigger.invalidation a).closesFully
    · exact forgotten hfull ho
    · refine ⟨ho, ?_, ?_⟩
      · intro c' hc'
        rw [ExitTrigger.settle_configs, if_neg hfull] at hc'
        obtain ⟨k, hk, hl, hj⟩ := h.pending c' hc'
        refine ⟨k, hk, ?_, ?_⟩
        · rw [← hl, ExitTrigger.settle, if_neg hfull]
          rfl
        · intro r' hm j he
          rcases List.mem_append.mp hm with hm | hm
          · exact hj r' hm j he
          · rw [List.mem_singleton.mp hm, hr] at he
            cases he
      · intro _ hnf
        simp [ExitTrigger.settle, hfull] at hnf
  | takeProfitLevel level later =>
    obtain ⟨hk, ht⟩ := hr
    obtain ⟨k, hle, hl, hj⟩ := h.pending c hc
    have hlv := dueTrigger_level hd
    rw [hl] at hlv
    have hlen : c.takeProfitLevels.length - k = later.length + 1 := by
      rw [← List.length_drop, hlv, List.length_cons]
    have hidx : c.takeProfitLevels.length - (later.length + 1) = k := by omega
    rw [hidx] at hk
    have ho : AtMostOnce (rs ++ [r]) :=
      h.once.level hk ht (fun r' hm he => lt_irrefl k (hj r' hm k he))
    by_cases hfull : (ExitTrigger.takeProfitLevel level later).closesFully
    · exact forgotten hfull ho
    · refine ⟨ho, ?_, ?_⟩
      · intro c' hc'
        rw [ExitTrigger.settle_configs, if_neg hfull, hc] at hc'
        cases hc'
        refine ⟨k + 1, by omega, ?_, ?_⟩
        · rw [ExitTrigger.settle, if_neg hfull, ← List.tail_drop, hlv]
          simp [getRemainingTpLevels]
        · intro r' hm j he
          rcases List.mem_append.mp hm with hm | hm
          · exact Nat.lt_succ_of_lt (hj r' hm j he)
          · rw [List.mem_singleton.mp hm, hk] at he
            cases he
            exact Nat.lt_succ_self k
      · intro hcs hnf r' hm
        rw [ExitTrigger.settle, if_neg hfull] at hcs hnf
        rcases List.mem_append.mp hm with hm | hm
        · exact h.fired hcs hnf r' hm
        · rw [List.mem_singleton.mp hm]
          exact ht

theorem Ledger.turn (h : Ledger s rs d.manager) (ho : SymbolOutcome A i s d o d')
    (hsafe : SafeTurn A i s d) :
    Ledger s (rs ++ o.toList.filter (fun r => r.symbol = s)) d'.manager := by
  have idle (mark : Amount) : Plain (.idle s mark) := ⟨rfl, by simp [TickResult.idle]⟩
  have own (mark : Amount) : (Option.toList (some (TickResult.idle s mark))).filter
      (fun r => r.symbol = s) = [.idle s mark] := by simp [TickResult.idle]
  cases ho with
  | quiet _ hs ho =>
    refine Ledger.sameAt ?_ (sameAt_of_exits hs s)
    rcases ho with rfl | ⟨mark, rfl⟩
    · simpa using h
    · rw [own]
      exact h.plain (idle mark)
  | absent _ hm =>
    rw [own]
    exact .gone (by simp [hm]) (h.once.plain (idle _))
  | @refused p x c mark stop m t e _ hp hc hk ha hd hf he hm =>
    have hm' := h.sameAt (sameAt_of_exits ha.exits s)
    simp only [Option.toList_none, List.filter_nil, List.append_nil]
    by_cases hfull : t.closesFully
    · have hn : ¬Consumed s d.manager := fun hn =>
        hsafe ⟨hn, p, x, c, mark, stop, m, t, e, hp, hc, hk, ha, hd, hfull, by rw [he]⟩
      have hcs := d.manager.configs_symbol s c hc
      rw [hm, if_pos hfull]
      refine .fresh (c := c) ?_ ?_ h.once (h.plain_of_unconsumed hc hn)
      · rw [setConfig_configs, ← hcs, Dict.get_set_self]
      · rw [setConfig_remaining, if_pos hcs.symm]
    · rw [hm, if_neg hfull]
      exact hm'
  | accepted hp hc _ ha hd hf =>
    have hm' := h.sameAt (sameAt_of_exits ha.exits s)
    have hr := (fire_report hf).1
    have hl := hm'.accepted (ha.exits.configs ▸ hc) hd hf
    simpa [hr] using hl

/-- A cycle keeps the ledger, reading the reports of each turn as they come. -/
theorem Ledger.turns (A : ExchangeAdapter σ) (i : CycleInputs) :
    ∀ ss (d : Desk σ) rs, Ledger s rs d.manager →
      (∀ taken s' rest, ss = taken ++ s' :: rest → SafeTurn A i s' (tickSymbols A i taken d).2) →
      Ledger s (rs ++ (tickSymbols A i ss d).1.filter (fun r => r.symbol = s))
        (tickSymbols A i ss d).2.manager
  | [], d, rs, h, _ => by simpa [tickSymbols] using h
  | s₁ :: ss, d, rs, h, hsafe => by
    rcases ht : tickSymbol A i s₁ d with ⟨o, d₁⟩
    have ho := tickSymbol_outcome ht
    have h₁ : Ledger s (rs ++ o.toList.filter (fun r => r.symbol = s)) d₁.manager := by
      by_cases hs : s = s₁
      · subst hs
        exact h.turn ho (hsafe [] s ss rfl)
      · obtain ⟨hsame, hnil⟩ := turn_other ho hs
        rw [hnil, List.append_nil]
        exact h.sameAt hsame
    have hrest : ∀ taken s' rest, ss = taken ++ s' :: rest →
        SafeTurn A i s' (tickSymbols A i taken d₁).2 := by
      intro taken s' rest he
      have := hsafe (s₁ :: taken) s' rest (by rw [he]; rfl)
      simpa only [tickSymbols, ht] using this
    have := Ledger.turns A i ss d₁ _ h₁ hrest
    simpa only [tickSymbols, ht, List.filter_append, List.append_assoc] using this

theorem Ledger.step (h : Ledger s rs d.manager)
    (hs : Guarded (CycleStep A) (SafeCycle A) d e d') :
    Ledger s (reported s rs e) d'.manager := by
  obtain ⟨hs, hok⟩ := hs
  cases hs with
  | setConfig c =>
    simp only [reported]
    by_cases hc : c.symbol = s
    · rw [if_pos hc]
      refine .fresh (c := c) ?_ ?_ .nil (by simp)
      · rw [← hc]
        simp
      · rw [setConfig_remaining, if_pos hc.symm]
    · rw [if_neg hc]
      exact h.sameAt (setConfig_sameAt (Ne.symm hc) _)
  | tickAll ht =>
    have hl := Ledger.turns A _ _ d rs h hok
    unfold tickAll at ht
    rw [ht] at hl
    exact hl
  | world => exact h

/-- A cycle at one mark price, without a book. -/
def cycleAt (mark : Amount) (oid : ClientOrderId) : CycleInputs where
  getMarkPrice _ := .ok mark
  getBook _ := .ok none
  orderId _ := oid
  monotonic _ := 0

end FuturesBot
