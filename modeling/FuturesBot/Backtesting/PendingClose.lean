import FuturesBot.Backtesting.Causality

namespace FuturesBot
open Lib

/-- What stays of a position for as long as it is open, and what tells it from another. -/
def OpenPosition.entry (pos : OpenPosition) : ℕ × TradeSide × Amount :=
  (pos.entryCandleIndex, pos.side, pos.entryPrice)

def ClosedTrade.entry (trade : ClosedTrade) : ℕ × TradeSide × Amount :=
  (trade.entryCandleIndex, trade.side, trade.entryPrice)

namespace BacktestingEngine

variable (e : BacktestingEngine) (i : ℕ) (candle : CandleRow)

/-- The state that the provider is asked in, once the candle has dealt with the position. -/
def atSignal (s : BacktestState ρ) : BacktestState ρ :=
  accrueFunding candle (e.checkExits i candle (e.closeRequested i candle s))

/-- The turn takes a CLOSE for the position `pos`: the provider gives one while it is open,
and no other is pending. -/
def TakesClose (provider : SignalProvider ρ) (s : BacktestState ρ) (pos : OpenPosition) : Prop :=
  ∃ t signal p, e.fillPendingEntry i candle s = (.ok (), t) ∧
    provider i (e.atSignal i candle t).history (e.atSignal i candle t).provider = (.ok signal, p) ∧
    signal.action = .close ∧ (e.atSignal i candle t).openPos = some pos ∧
    (e.atSignal i candle t).pendingCloseIndex = none

/-- The due entry of the turn is filled while a CLOSE is pending. -/
def EntersOverClose (s : BacktestState ρ) : Prop :=
  s.pendingCloseIndex.isSome ∧ s.openPos = none ∧ ∃ signal fillIdx pos,
    s.pendingEntry = some (signal, fillIdx) ∧ fillIdx ≤ i ∧
    e.openPosition signal candle i = .ok (some pos)

theorem openPosition_entered (h : e.openPosition signal candle i = .ok (some pos)) :
    pos.entryCandleIndex = i := by
  unfold openPosition at h
  dsimp only at h
  repeat' split at h
  all_goals cases h
  all_goals rfl

theorem fillPendingEntry_cases (s : BacktestState ρ) :
    (∃ err, e.fillPendingEntry i candle s = (.error err, s)) ∨
    (e.fillPendingEntry i candle s = (.ok (), s) ∧
      ∀ signal fillIdx, s.pendingEntry = some (signal, fillIdx) → fillIdx ≤ i → s.openPos ≠ none) ∨
    ∃ signal fillIdx newPos, s.pendingEntry = some (signal, fillIdx) ∧ fillIdx ≤ i ∧
      s.openPos = none ∧ e.openPosition signal candle i = .ok newPos ∧
      e.fillPendingEntry i candle s =
        (.ok (), { s with pendingEntry := none, openPos := newPos }) := by
  unfold fillPendingEntry
  rcases hp : s.pendingEntry with _ | ⟨signal, fillIdx⟩
  · exact .inr (.inl ⟨rfl, fun _ _ h => by cases h⟩)
  · dsimp only
    split
    · rename_i hdue
      rcases ho : e.openPosition signal candle i with err | newPos
      · exact .inl ⟨err, rfl⟩
      · exact .inr (.inr ⟨signal, fillIdx, newPos, rfl, hdue.1, Option.isNone_iff_eq_none.mp hdue.2,
          ho, rfl⟩)
    · rename_i hnot
      refine .inr (.inl ⟨rfl, ?_⟩)
      intro signal' fillIdx' h hle hnone
      cases h
      exact hnot ⟨hle, by rw [hnone]; rfl⟩

theorem fillPendingEntry_closedTrades (s : BacktestState ρ) :
    (e.fillPendingEntry i candle s).2.closedTrades = s.closedTrades := by
  rcases e.fillPendingEntry_cases i candle s with ⟨err, h⟩ | ⟨h, -⟩ | ⟨_, _, _, -, -, -, -, h⟩
  all_goals rw [h]

theorem checkSingleTp_open : (e.checkSingleTp pos candle i).2 = none := by
  unfold checkSingleTp
  repeat' split
  all_goals rfl

/-- What a level leaves of a position is that position. -/
theorem partialCloseTp_entry (pos : OpenPosition) (level : TakeProfitLevel) :
    (e.partialCloseTp pos level i).2.entry = pos.entry := by
  unfold partialCloseTp
  dsimp only
  split <;> rfl

/-- What a candle leaves of a position is that position. -/
theorem checkSlTp_entry (h : (e.checkSlTp pos candle i).2 = some pos') : pos'.entry = pos.entry := by
  unfold checkSlTp at h
  split at h
  · cases h
  · split at h
    · split at h
      · split at h
        · cases h
        · cases h
          exact e.partialCloseTp_entry i pos _
      · rw [checkSingleTp_open] at h
        cases h
    · rw [checkSingleTp_open] at h
      cases h

/-- The candle keeps what is pending, and what is left of the position. -/
theorem checkExits_keeps (s : BacktestState ρ) :
    (e.checkExits i candle s).pendingCloseIndex = s.pendingCloseIndex ∧
    (e.checkExits i candle s).pendingEntry = s.pendingEntry ∧
    (∀ pos', (e.checkExits i candle s).openPos = some pos' →
      ∃ pos, s.openPos = some pos ∧ pos'.entry = pos.entry) ∧
    ∀ trade ∈ (e.checkExits i candle s).closedTrades, trade.exitReason = .closeSignal →
      trade ∈ s.closedTrades := by
  unfold checkExits
  split
  · rename_i hnone
    exact ⟨rfl, rfl, fun pos' h => ⟨pos', h, rfl⟩, fun _ hm _ => hm⟩
  · rename_i pos hpos
    rcases hc : e.checkSlTp pos candle i with ⟨_ | trade, updatedPos⟩
    · rcases updatedPos with _ | updatedPos
      · exact ⟨rfl, rfl, fun pos' h => ⟨pos', h, rfl⟩, fun _ hm _ => hm⟩
      · refine ⟨rfl, rfl, ?_, fun _ hm _ => hm⟩
        intro pos' h
        cases h
        exact ⟨pos, hpos, e.checkSlTp_entry i candle (congrArg Prod.snd hc)⟩
    · obtain ⟨-, -, hr⟩ := e.checkSlTp_trade i candle (congrArg Prod.fst hc)
      refine ⟨rfl, rfl, ?_, ?_⟩
      · intro pos' h
        exact ⟨pos, hpos, e.checkSlTp_entry i candle ((congrArg Prod.snd hc).trans h)⟩
      · intro trade' hm hreason
        rcases List.mem_append.mp hm with hm | hm
        · exact hm
        · rw [List.mem_singleton.mp hm] at hreason
          exact absurd hreason hr

theorem accrueFunding_keeps (s : BacktestState ρ) :
    (accrueFunding candle s).pendingCloseIndex = s.pendingCloseIndex ∧
    (accrueFunding candle s).pendingEntry = s.pendingEntry ∧
    (accrueFunding candle s).closedTrades = s.closedTrades ∧
    ∀ pos', (accrueFunding candle s).openPos = some pos' →
      ∃ pos, s.openPos = some pos ∧ pos'.entry = pos.entry := by
  unfold accrueFunding
  split
  · exact ⟨rfl, rfl, rfl, fun pos' h => ⟨pos', h, rfl⟩⟩
  · rename_i pos hpos
    split
    · exact ⟨rfl, rfl, rfl, fun pos' h => ⟨pos', h, rfl⟩⟩
    · refine ⟨rfl, rfl, rfl, ?_⟩
      intro pos' h
      cases h
      exact ⟨pos, hpos, rfl⟩

/-- Up to the call of the provider, a turn either closes the position by its due CLOSE, and
does no more, or closes nothing by a CLOSE and keeps what is pending. -/
theorem atSignal_cases (s : BacktestState ρ) :
    (∃ closeIdx pos, s.pendingCloseIndex = some closeIdx ∧ s.openPos = some pos ∧ closeIdx ≤ i ∧
      e.atSignal i candle s =
        { s with
          closedTrades := s.closedTrades ++
            [e.closePosition pos candle.openPrice i .closeSignal .market]
          openPos := none
          pendingCloseIndex := none }) ∨
    ((∀ closeIdx pos, s.pendingCloseIndex = some closeIdx → s.openPos = some pos → i < closeIdx) ∧
      (e.atSignal i candle s).pendingCloseIndex = s.pendingCloseIndex ∧
      (e.atSignal i candle s).pendingEntry = s.pendingEntry ∧
      (∀ pos', (e.atSignal i candle s).openPos = some pos' →
        ∃ pos, s.openPos = some pos ∧ pos'.entry = pos.entry) ∧
      ∀ trade ∈ (e.atSignal i candle s).closedTrades, trade.exitReason = .closeSignal →
        trade ∈ s.closedTrades) := by
  have hkeep : e.closeRequested i candle s = s →
      (e.atSignal i candle s).pendingCloseIndex = s.pendingCloseIndex ∧
      (e.atSignal i candle s).pendingEntry = s.pendingEntry ∧
      (∀ pos', (e.atSignal i candle s).openPos = some pos' →
        ∃ pos, s.openPos = some pos ∧ pos'.entry = pos.entry) ∧
      ∀ trade ∈ (e.atSignal i candle s).closedTrades, trade.exitReason = .closeSignal →
        trade ∈ s.closedTrades := by
    intro hs
    obtain ⟨hc, he, hp, ht⟩ := e.checkExits_keeps i candle s
    obtain ⟨hc', he', ht', hp'⟩ := accrueFunding_keeps candle (e.checkExits i candle s)
    rw [atSignal, hs]
    refine ⟨hc'.trans hc, he'.trans he, ?_, ?_⟩
    · intro pos' h
      obtain ⟨pos, hpos, hentry⟩ := hp' pos' h
      obtain ⟨pos₀, hpos₀, hentry₀⟩ := hp pos hpos
      exact ⟨pos₀, hpos₀, hentry.trans hentry₀⟩
    · intro trade hm
      rw [ht'] at hm
      exact ht trade hm
  rcases hc : s.pendingCloseIndex with _ | closeIdx
  · have hs : e.closeRequested i candle s = s := by simp [closeRequested, hc]
    rw [← hc]
    exact .inr ⟨fun _ _ h => (by rw [hc] at h; cases h), hkeep hs⟩
  rcases hp : s.openPos with _ | pos
  · have hs : e.closeRequested i candle s = s := by simp [closeRequested, hp]
    rw [← hc, ← hp]
    exact .inr ⟨fun _ _ _ h => (by rw [hp] at h; cases h), hkeep hs⟩
  by_cases hdue : closeIdx ≤ i
  · refine .inl ⟨closeIdx, pos, rfl, rfl, hdue, ?_⟩
    simp [atSignal, closeRequested, checkExits, accrueFunding, hc, hp, hdue]
  · have hs : e.closeRequested i candle s = s := by simp [closeRequested, hc, hp, hdue]
    rw [← hc, ← hp]
    refine .inr ⟨?_, hkeep hs⟩
    intro closeIdx' pos' hc' _
    rw [hc] at hc'
    cases hc'
    omega

theorem schedule_cases (signal : TradeSignal) (s : BacktestState ρ) :
    e.schedule i signal s = s ∨
    (s.openPos = none ∧ e.schedule i signal s =
      { s with pendingEntry := some (signal, i + e.latency.fillCandleOffset) }) ∨
    (signal.action = .close ∧ s.openPos.isSome ∧ s.pendingCloseIndex = none ∧
      e.schedule i signal s =
        { s with pendingCloseIndex := some (i + e.latency.fillCandleOffset) }) := by
  unfold schedule
  split
  · rename_i h
    exact .inr (.inl ⟨Option.isNone_iff_eq_none.mp h.2.1, rfl⟩)
  · split
    · rename_i h
      exact .inr (.inr ⟨h.1, h.2.1, Option.isNone_iff_eq_none.mp h.2.2, rfl⟩)
    · exact .inl rfl

variable {ρ : Type u} {provider : SignalProvider ρ} {start : ρ} {s s' t : BacktestState ρ}

theorem turn_ok (h : e.turn i candle provider s = (.ok (), s')) :
    ∃ t signal p, e.fillPendingEntry i candle s = (.ok (), t) ∧
      provider i (e.atSignal i candle t).history (e.atSignal i candle t).provider =
        (.ok signal, p) ∧
      s' =
        { e.schedule i signal
            { e.atSignal i candle t with
              calls := (e.atSignal i candle t).calls ++ [(i, (e.atSignal i candle t).history)]
              provider := p } with
          history := s'.history } := by
  unfold turn at h
  rcases hf : e.fillPendingEntry i candle s with ⟨err | u, t⟩
  · rw [hf] at h
    cases h
  · rw [hf] at h
    dsimp only at h
    rw [← atSignal, askProvider] at h
    dsimp only at h
    rcases hp : provider i (e.atSignal i candle t).history (e.atSignal i candle t).provider
      with ⟨err | signal, p⟩
    · rw [hp] at h
      cases h
    · rw [hp] at h
      cases h
      exact ⟨t, signal, p, rfl, hp, rfl⟩

theorem schedule_closedTrades (signal : TradeSignal) (s : BacktestState ρ) :
    (e.schedule i signal s).closedTrades = s.closedTrades := by
  rcases e.schedule_cases i signal s with h | ⟨-, h⟩ | ⟨-, -, -, h⟩
  all_goals rw [h]

/-- A turn closes what it closes before it asks the provider. -/
theorem turn_closedTrades (hf : e.fillPendingEntry i candle s = (.ok (), t)) :
    (e.turn i candle provider s).2.closedTrades = (e.atSignal i candle t).closedTrades := by
  rw [turn, hf]
  dsimp only
  rw [← atSignal, askProvider]
  dsimp only
  rcases provider i (e.atSignal i candle t).history (e.atSignal i candle t).provider
    with ⟨err | signal, p⟩
  · rfl
  · exact e.schedule_closedTrades i signal _

/-- What is pending at the start of turn `i` is in the order in which it was asked for: a CLOSE
comes before the entry that waits with it, and one that an open position waits for is not
overdue, and was taken for that position. `Took j pos` says that turn `j` took it for `pos`. -/
structure InOrder (Took : ℕ → OpenPosition → Prop) (i : ℕ) (s : BacktestState ρ) : Prop where
  slot : ∀ pos, s.openPos = some pos → s.pendingEntry = none ∧ pos.entryCandleIndex < i
  soon : ∀ closeIdx, s.pendingCloseIndex = some closeIdx →
    closeIdx < i + e.latency.fillCandleOffset
  before : ∀ closeIdx signal fillIdx, s.pendingCloseIndex = some closeIdx →
    s.pendingEntry = some (signal, fillIdx) → closeIdx < fillIdx
  own : ∀ closeIdx pos, s.pendingCloseIndex = some closeIdx → s.openPos = some pos →
    i ≤ closeIdx ∧ ∃ j taken, closeIdx = j + e.latency.fillCandleOffset ∧ Took j taken ∧
      taken.entry = pos.entry

theorem inOrder_start (Took : ℕ → OpenPosition → Prop) (start : ρ) :
    e.InOrder Took 0 { provider := start } where
  slot _ h := by cases h
  soon _ h := by cases h
  before _ _ _ h := by cases h
  own _ _ h := by cases h

/-- After the fill of the turn the order is the same, but a position that the turn has just
opened may wait for an overdue CLOSE that is not its own. -/
structure FilledInOrder (Took : ℕ → OpenPosition → Prop) (i : ℕ) (t : BacktestState ρ) :
    Prop where
  slot : ∀ pos, t.openPos = some pos → t.pendingEntry = none ∧ pos.entryCandleIndex ≤ i
  soon : ∀ closeIdx, t.pendingCloseIndex = some closeIdx →
    closeIdx < i + e.latency.fillCandleOffset
  before : ∀ closeIdx signal fillIdx, t.pendingCloseIndex = some closeIdx →
    t.pendingEntry = some (signal, fillIdx) → closeIdx < fillIdx
  own : ∀ closeIdx pos, t.pendingCloseIndex = some closeIdx → t.openPos = some pos →
    i < closeIdx → ∃ j taken, closeIdx = j + e.latency.fillCandleOffset ∧ Took j taken ∧
      taken.entry = pos.entry

variable {e i candle}

theorem InOrder.fill (hs : e.InOrder Took i s)
    (hf : e.fillPendingEntry i candle s = (.ok (), t)) : e.FilledInOrder Took i t := by
  rcases e.fillPendingEntry_cases i candle s with ⟨err, h⟩ | ⟨h, -⟩ |
    ⟨signal, fillIdx, newPos, hp, hle, hnone, ho, h⟩
  all_goals
    rw [h] at hf
    cases hf
  · refine ⟨?_, hs.soon, hs.before, fun c pos hc hpos _ => (hs.own c pos hc hpos).2⟩
    intro pos hpos
    obtain ⟨hpe, hlt⟩ := hs.slot pos hpos
    exact ⟨hpe, by omega⟩
  · refine ⟨?_, hs.soon, fun _ _ _ _ h => (by cases h), ?_⟩
    · intro pos hpos
      have hpos : newPos = some pos := hpos
      subst hpos
      exact ⟨rfl, (e.openPosition_entered i candle ho).le⟩
    · intro closeIdx pos hc _ hlt
      have hb := hs.before closeIdx signal fillIdx hc hp
      omega

/-- A position that waits for a CLOSE after the fill is the one that it was taken for, unless
the turn has just entered over that CLOSE. -/
theorem InOrder.waits (hs : e.InOrder Took i s)
    (hf : e.fillPendingEntry i candle s = (.ok (), t)) (hc : t.pendingCloseIndex = some closeIdx)
    (hp : t.openPos = some pos) :
    e.EntersOverClose i candle s ∨ i ≤ closeIdx ∧ ∃ j taken,
      closeIdx = j + e.latency.fillCandleOffset ∧ Took j taken ∧ taken.entry = pos.entry := by
  rcases e.fillPendingEntry_cases i candle s with ⟨err, hq⟩ | ⟨hq, -⟩ |
    ⟨signal, fillIdx, newPos, hpe, hdue, hnone, ho, hq⟩
  all_goals
    rw [hq] at hf
    cases hf
  · exact .inr (hs.own closeIdx pos hc hp)
  · have hp : newPos = some pos := hp
    have hc : s.pendingCloseIndex = some closeIdx := hc
    subst hp
    exact .inl ⟨by rw [hc]; rfl, hnone, signal, fillIdx, pos, hpe, hdue, ho⟩

theorem FilledInOrder.signal (ht : e.FilledInOrder Took i t) :
    e.InOrder Took (i + 1) (e.atSignal i candle t) ∧
      ∀ closeIdx, (e.atSignal i candle t).pendingCloseIndex = some closeIdx →
        closeIdx < i + e.latency.fillCandleOffset := by
  rcases e.atSignal_cases i candle t with ⟨closeIdx, pos, hc, hp, hle, h⟩ | ⟨hwait, hc, hpe, hp, -⟩
  · rw [h]
    refine ⟨⟨?_, ?_, ?_, ?_⟩, ?_⟩
    · intro _ h
      cases h
    · intro _ h
      cases h
    · intro _ _ _ h
      cases h
    · intro _ _ h
      cases h
    · intro _ h
      cases h
  · have hsoon : ∀ closeIdx, (e.atSignal i candle t).pendingCloseIndex = some closeIdx →
        closeIdx < i + e.latency.fillCandleOffset :=
      fun closeIdx h => ht.soon closeIdx (hc ▸ h)
    refine ⟨⟨?_, ?_, ?_, ?_⟩, hsoon⟩
    · intro pos' hpos'
      obtain ⟨pos, hpos, hentry⟩ := hp pos' hpos'
      obtain ⟨hnone, hle⟩ := ht.slot pos hpos
      have hindex : pos'.entryCandleIndex = pos.entryCandleIndex := congrArg Prod.fst hentry
      exact ⟨hpe.trans hnone, by omega⟩
    · intro closeIdx h
      have hlt := hsoon closeIdx h
      omega
    · intro closeIdx signal fillIdx h hpend
      exact ht.before closeIdx signal fillIdx (hc ▸ h) (hpe ▸ hpend)
    · intro closeIdx pos' h hpos'
      obtain ⟨pos, hpos, hentry⟩ := hp pos' hpos'
      have hlt := hwait closeIdx pos (hc ▸ h) hpos
      obtain ⟨j, taken, hj, htook, htaken⟩ := ht.own closeIdx pos (hc ▸ h) hpos hlt
      exact ⟨hlt, j, taken, hj, htook, htaken.trans hentry.symm⟩

/-- One turn. -/
theorem InOrder.turn (hs : e.InOrder Took i s) (h : e.turn i candle provider s = (.ok (), s'))
    (htook : ∀ pos, e.TakesClose i candle provider s pos → Took i pos) :
    e.InOrder Took (i + 1) s' := by
  obtain ⟨t, signal, p, hf, hprov, hs'⟩ := e.turn_ok i candle h
  obtain ⟨⟨slot, soon, before, own⟩, hsoon⟩ := (hs.fill hf).signal
  have hoff : 1 ≤ e.latency.fillCandleOffset := Nat.le_add_right 1 _
  rcases e.schedule_cases i signal
      { e.atSignal i candle t with
        calls := (e.atSignal i candle t).calls ++ [(i, (e.atSignal i candle t).history)]
        provider := p } with hq | ⟨hnone, hq⟩ | ⟨hclose, hsome, hfree, hq⟩
  all_goals
    rw [hs', hq]
  · exact ⟨slot, soon, before, own⟩
  · refine ⟨?_, soon, ?_, own⟩
    · intro pos hpos
      have hpos : (e.atSignal i candle t).openPos = some pos := hpos
      rw [hnone] at hpos
      cases hpos
    · intro closeIdx signal' fillIdx hc hpend
      have hlt := hsoon closeIdx hc
      cases hpend
      exact hlt
  · obtain ⟨pos, hpos⟩ := Option.isSome_iff_exists.mp hsome
    have hpos : (e.atSignal i candle t).openPos = some pos := hpos
    refine ⟨slot, ?_, ?_, ?_⟩
    · intro closeIdx hc
      cases hc
      omega
    · intro closeIdx signal' fillIdx _ hpend
      have hpend : (e.atSignal i candle t).pendingEntry = some (signal', fillIdx) := hpend
      rw [(slot pos hpos).1] at hpend
      cases hpend
    · intro closeIdx pos' hc hpos'
      cases hc
      have hsame : some pos = some pos' := hpos.symm.trans hpos'
      cases hsame
      exact ⟨by omega, i, pos, rfl, htook pos ⟨t, signal, p, hf, hprov, hclose, hpos, hfree⟩, rfl⟩

/-- A trade that a turn closes by a CLOSE closes the position that the CLOSE was taken for,
unless the turn has entered over that CLOSE. -/
theorem InOrder.closed (hs : e.InOrder Took i s)
    (hm : trade ∈ (e.turn i candle provider s).2.closedTrades)
    (hr : trade.exitReason = .closeSignal) :
    trade ∈ s.closedTrades ∨ e.EntersOverClose i candle s ∨
    ∃ j taken, trade.exitCandleIndex = j + e.latency.fillCandleOffset ∧ Took j taken ∧
      trade.entry = taken.entry := by
  have hkept := e.fillPendingEntry_closedTrades i candle s
  rcases hfill : e.fillPendingEntry i candle s with ⟨err | u, t⟩
  · rw [BacktestingEngine.turn, hfill] at hm
    rw [hfill] at hkept
    exact .inl (hkept ▸ hm)
  rw [e.turn_closedTrades i candle hfill] at hm
  rw [hfill] at hkept
  rcases e.atSignal_cases i candle t with ⟨closeIdx, pos, hc, hp, hle, hq⟩ | ⟨-, -, -, -, hold⟩
  · rw [hq] at hm
    rcases List.mem_append.mp hm with hm | hm
    · exact .inl (hkept ▸ hm)
    · rcases hs.waits hfill hc hp with henters | ⟨hi, j, taken, hj, htook, hentry⟩
      · exact .inr (.inl henters)
      · have heq : closeIdx = i := by omega
        rw [List.mem_singleton.mp hm]
        exact .inr (.inr ⟨j, taken, heq ▸ hj, htook, hentry.symm⟩)
  · exact .inl (hkept ▸ hold trade hm hr)

/-- An entry over a pending CLOSE is closed by it in the same candle. -/
theorem InOrder.enteredOver (provider : SignalProvider ρ) (hs : e.InOrder Took i s)
    (h : e.EntersOverClose i candle s) :
    ∃ trade ∈ (e.turn i candle provider s).2.closedTrades,
      trade.exitReason = .closeSignal ∧ trade.entryCandleIndex = i ∧ trade.exitCandleIndex = i := by
  obtain ⟨hsome, hnone, signal, fillIdx, pos, hp, hdue, ho⟩ := h
  obtain ⟨closeIdx, hc⟩ := Option.isSome_iff_exists.mp hsome
  have hlt := hs.before closeIdx signal fillIdx hc hp
  have hf : e.fillPendingEntry i candle s =
      (.ok (), { s with pendingEntry := none, openPos := some pos }) := by
    simp [fillPendingEntry, hp, hdue, hnone, ho]
  rw [e.turn_closedTrades i candle hf]
  rcases e.atSignal_cases i candle { s with pendingEntry := none, openPos := some pos }
    with ⟨closeIdx', pos', hc', hp', -, hq⟩ | ⟨hwait, -⟩
  · cases hp'
    rw [hq]
    exact ⟨e.closePosition pos candle.openPrice i .closeSignal .market,
      List.mem_append_right _ (List.mem_singleton_self _), rfl,
      e.openPosition_entered i candle ho, rfl⟩
  · have hi := hwait closeIdx pos hc rfl
    omega

variable (e i candle)

/-- Turn `i` of the backtest is the turn of `candle`, and starts in `s`. -/
def Reaches (candles : List CandleRow) (provider : SignalProvider ρ) (start : ρ) (i : ℕ)
    (candle : CandleRow) (s : BacktestState ρ) : Prop :=
  candles[i]? = some candle ∧ e.firstTurns candles i provider start = (.ok (), s)

/-- Turn `j` of the backtest takes a CLOSE for the position `pos`. -/
def TookAt (candles : List CandleRow) (provider : SignalProvider ρ) (start : ρ) (j : ℕ)
    (pos : OpenPosition) : Prop :=
  ∃ candle s, e.Reaches candles provider start j candle s ∧ e.TakesClose j candle provider s pos

/-- A CLOSE was taken for the position with this entry, exactly the latency before `closeIdx`. -/
def AskedFor (candles : List CandleRow) (provider : SignalProvider ρ) (start : ρ) (closeIdx : ℕ)
    (entry : ℕ × TradeSide × Amount) : Prop :=
  ∃ j pos, closeIdx = j + e.latency.fillCandleOffset ∧ e.TookAt candles provider start j pos ∧
    entry = pos.entry

theorem firstTurns_succ (candles : List CandleRow) (k : ℕ) (hc : candles[k]? = some candle) :
    e.firstTurns candles (k + 1) provider start =
      match e.firstTurns candles k provider start with
      | (.error err, s) => (.error err, s)
      | (.ok (), s) => e.turn k candle provider s := by
  have hsucc := loop_take_succ (fun i candle => e.turn i candle provider) 0 k hc
    { provider := start }
  rw [firstTurns, hsucc, firstTurns, Nat.zero_add]
  rcases loop (fun i candle => e.turn i candle provider) 0 (candles.take k) { provider := start }
    with ⟨err | u, s⟩
  · rfl
  · rfl

theorem firstTurns_inOrder (candles : List CandleRow) (k : ℕ) (hk : k ≤ candles.length)
    (h : e.firstTurns candles k provider start = (.ok (), s)) :
    e.InOrder (e.TookAt candles provider start) k s := by
  induction k generalizing s with
  | zero =>
    cases h
    exact e.inOrder_start _ start
  | succ k ih =>
    have hc : candles[k]? = some candles[k] := List.getElem?_eq_getElem hk
    rw [e.firstTurns_succ _ candles k hc] at h
    rcases hfirst : e.firstTurns candles k provider start with ⟨err | u, s₀⟩
    · rw [hfirst] at h
      cases h
    · rw [hfirst] at h
      apply (ih (Nat.le_of_succ_le hk) hfirst).turn h
      intro pos htake
      exact ⟨candles[k], s₀, ⟨hc, hfirst⟩, htake⟩

/-- The trades of the first turns that a CLOSE has closed were asked for, if no turn has
entered over a pending CLOSE. -/
theorem firstTurns_askedFor (candles : List CandleRow)
    (hover : ∀ i candle s, e.Reaches candles provider start i candle s →
      ¬e.EntersOverClose i candle s) (k : ℕ) (hk : k ≤ candles.length) :
    ∀ trade ∈ (e.firstTurns candles k provider start).2.closedTrades,
      trade.exitReason = .closeSignal →
      e.AskedFor candles provider start trade.exitCandleIndex trade.entry := by
  induction k with
  | zero =>
    intro trade hm
    cases hm
  | succ k ih =>
    intro trade hm hr
    have ih := ih (Nat.le_of_succ_le hk) trade
    have hc : candles[k]? = some candles[k] := List.getElem?_eq_getElem hk
    rw [e.firstTurns_succ _ candles k hc] at hm
    rcases hfirst : e.firstTurns candles k provider start with ⟨err | u, s⟩
    all_goals rw [hfirst] at hm ih
    · exact ih hm hr
    · rcases (e.firstTurns_inOrder candles k (Nat.le_of_succ_le hk) hfirst).closed hm hr
        with hold | henters | ⟨j, pos, hj, htook, hentry⟩
      · exact ih hold hr
      · exact absurd henters (hover k candles[k] s ⟨hc, hfirst⟩)
      · exact ⟨j, pos, hj, htook, hentry⟩

/-- A position waits a whole candle for its CLOSE at the least. -/
theorem AskedFor.entered (h : e.AskedFor candles provider start closeIdx entry) :
    entry.1 < closeIdx := by
  obtain ⟨j, pos, hj, ⟨candle, s, ⟨hc, hfirst⟩, t, signal, p, hf, -, -, hopen, -⟩, rfl⟩ := h
  have hk : j < candles.length := (List.getElem?_eq_some_iff.mp hc).1
  have hin := (e.firstTurns_inOrder candles j (Nat.le_of_lt hk) hfirst).fill hf
  obtain ⟨-, hlt⟩ := hin.signal.1.slot pos hopen
  have hoff : 1 ≤ e.latency.fillCandleOffset := Nat.le_add_right 1 _
  change pos.entryCandleIndex < closeIdx
  omega

theorem run_closedTrades (candles : List CandleRow) (provider : SignalProvider ρ) (start : ρ) :
    (e.run candles provider start).2.closedTrades =
      (e.firstTurns candles candles.length provider start).2.closedTrades := by
  unfold run firstTurns
  rw [List.take_length]
  split
  · rename_i hnil
    rw [List.getLast?_eq_none_iff.mp hnil]
    rfl
  · rcases loop (fun i candle => e.turn i candle provider) 0 candles { provider := start }
      with ⟨err | u, s⟩
    · rfl
    · dsimp only
      split
      all_goals rfl

/-- What the first turns have closed stays closed. -/
theorem firstTurns_closedTrades (candles : List CandleRow) (k : ℕ)
    (hm : trade ∈ (e.firstTurns candles k provider start).2.closedTrades) :
    trade ∈ (e.run candles provider start).2.closedTrades := by
  obtain ⟨-, trades, -, ht, -⟩ := e.loop_after_firstTurns candles k provider start
  rw [run_closedTrades, firstTurns, List.take_length, ht]
  exact List.mem_append_left trades hm

/-- Every trade that a CLOSE closes belongs to the position that the CLOSE was taken for, the
latency before, and no pending CLOSE waits for another position, in exactly the backtests in
which no entry is filled while a CLOSE is pending. -/
theorem closeSignal_own_iff (candles : List CandleRow) (provider : SignalProvider ρ) (start : ρ) :
    ((∀ trade ∈ (e.run candles provider start).2.closedTrades, trade.exitReason = .closeSignal →
        e.AskedFor candles provider start trade.exitCandleIndex trade.entry) ∧
      ∀ i candle s t closeIdx pos, e.Reaches candles provider start i candle s →
        e.fillPendingEntry i candle s = (.ok (), t) → t.pendingCloseIndex = some closeIdx →
        t.openPos = some pos → e.AskedFor candles provider start closeIdx pos.entry) ↔
    ∀ i candle s, e.Reaches candles provider start i candle s → ¬e.EntersOverClose i candle s := by
  refine ⟨?_, fun hover => ⟨?_, ?_⟩⟩
  · rintro ⟨hown, -⟩ i candle s ⟨hc, hfirst⟩ hover
    have hk : i < candles.length := (List.getElem?_eq_some_iff.mp hc).1
    have hin := e.firstTurns_inOrder candles i (Nat.le_of_lt hk) hfirst
    obtain ⟨trade, hm, hr, hentry, hexit⟩ := hin.enteredOver provider hover
    have hrun : trade ∈ (e.run candles provider start).2.closedTrades := by
      apply e.firstTurns_closedTrades candles (i + 1)
      rw [e.firstTurns_succ _ candles i hc, hfirst]
      exact hm
    have hlt : trade.entryCandleIndex < trade.exitCandleIndex := (hown trade hrun hr).entered
    omega
  · rw [run_closedTrades]
    exact e.firstTurns_askedFor candles hover candles.length le_rfl
  · intro i candle s t closeIdx pos hreach hf hc hp
    have hk : i < candles.length := (List.getElem?_eq_some_iff.mp hreach.1).1
    have hin := e.firstTurns_inOrder candles i (Nat.le_of_lt hk) hreach.2
    rcases hin.waits hf hc hp with henters | ⟨-, j, taken, hj, htook, hentry⟩
    · exact absurd henters (hover i candle s hreach)
    · exact ⟨j, taken, hj, htook, hentry.symm⟩

end BacktestingEngine

/-- An engine with a candle of latency. -/
def lateEngine : BacktestingEngine := { standardEngine with latency := { extraCandles := 1 } }

def closeSignal : TradeSignal :=
  { waitSignal with
    action := .close
    exits := by
      intro h
      rcases h with h | h <;> cases h }

/-- A long, a CLOSE once it is open, and another long at the candle that has reached the target
of the first. -/
def longTwice : SignalProvider Unit := fun i _ _ =>
  (.ok (if i = 0 ∨ i = 3 then longSignal else if i = 2 then closeSignal else waitSignal), ())

def rallyAtThree : List CandleRow :=
  [quietCandle, quietCandle, quietCandle, rallyCandle, quietCandle, quietCandle]

/-- The CLOSE for the first long closes the second, in the candle that opens it. -/
theorem second_long_closed_by_first_close :
    ¬∀ trade ∈ (lateEngine.run rallyAtThree longTwice ()).2.closedTrades,
      trade.exitReason = .closeSignal →
      lateEngine.AskedFor rallyAtThree longTwice () trade.exitCandleIndex trade.entry := by
  have htrades : (lateEngine.run rallyAtThree longTwice ()).2.closedTrades.map
      (fun trade => (trade.exitReason, trade.entryCandleIndex, trade.exitCandleIndex)) =
      [(.tp, 2, 3), (.closeSignal, 5, 5)] := by
    decide +kernel
  intro hown
  have hmem : (ExitReason.closeSignal, 5, 5) ∈
      (lateEngine.run rallyAtThree longTwice ()).2.closedTrades.map
        (fun trade => (trade.exitReason, trade.entryCandleIndex, trade.exitCandleIndex)) := by
    rw [htrades]
    decide
  obtain ⟨trade, hm, heq⟩ := List.mem_map.mp hmem
  obtain ⟨hr, hentry, hexit⟩ := Prod.mk.inj heq |>.imp id Prod.mk.inj
  have hlt : trade.entryCandleIndex < trade.exitCandleIndex := (hown trade hm hr).entered
  omega

end FuturesBot
