import FuturesBot.Backtesting.Journal

namespace FuturesBot
open Lib

namespace BacktestingEngine

variable {e : BacktestingEngine} {i : ℕ} {candle : CandleRow} {candles : List CandleRow}
  {s s' t : BacktestState ρ} {provider : SignalProvider ρ} {start : ρ}

/-- What an event leaves of a position is that position. -/
theorem after_entry {x : BacktestEvent} (h : e.after x = some pos) :
    pos.entry = x.change.position.entry := by
  unfold after at h
  cases hx : x.change with
  | opened signal pos' =>
    simp only [hx] at h
    cases h
    rfl
  | reduced pos' level =>
    simp only [hx] at h
    cases h
    exact e.partialCloseTp_entry x.index pos' level
  | funded pos' =>
    simp only [hx] at h
    cases h
    rfl
  | closed pos' price reason orderType => simp [hx] at h

theorem opened_entry {x : BacktestEvent} (hx : x.change = .opened signal pos) (h : e.Allowed x) :
    pos.entryCandleIndex = x.index := by
  unfold Allowed at h
  rw [hx] at h
  exact e.openPosition_entered x.index x.candle h

theorem position_of_before {x : BacktestEvent} (h : x.change.before = some pos) :
    x.change.position = pos ∧ x.change.isEntry = false := by
  cases hx : x.change with
  | opened signal pos' =>
    rw [hx] at h
    cases h
  | _ =>
    rw [hx] at h
    cases h
    exact ⟨rfl, rfl⟩

theorem opened_of_no_before {x : BacktestEvent} (h : x.change.before = none) :
    ∃ signal pos, x.change = .opened signal pos := by
  cases hx : x.change with
  | opened signal pos => exact ⟨signal, pos, rfl⟩
  | _ =>
    rw [hx] at h
    cases h

/-- The entry that a position comes from. -/
def EnteredBy (e : BacktestingEngine) (pos : OpenPosition) (y : BacktestEvent) : Prop :=
  ∃ signal pos', y.change = .opened signal pos' ∧ e.Allowed y ∧ pos'.entry = pos.entry

/-- What the positions of the events so far have in common with the open one. -/
structure Lineage (e : BacktestingEngine) (l : List BacktestEvent) (o : Option OpenPosition) :
    Prop where
  intervals : l.Pairwise fun x y => x.entry = y.entry ∨ x.index < y.entry
  earlier : ∀ pos, o = some pos → ∀ x ∈ l, x.entry = pos.entryCandleIndex ∨
    x.index < pos.entryCandleIndex
  entered : ∀ x ∈ l, ∃ y ∈ l, EnteredBy e x.change.position y ∧ y.index ≤ x.index
  held : ∀ pos, o = some pos → ∃ y ∈ l, EnteredBy e pos y

theorem EnteredBy.index (h : EnteredBy e pos y) : y.index = pos.entryCandleIndex := by
  obtain ⟨signal, pos', hy, hallowed, hentry⟩ := h
  have hindex : pos'.entryCandleIndex = pos.entryCandleIndex := congrArg Prod.fst hentry
  rw [← opened_entry hy hallowed, hindex]

theorem Lineage.snoc (h : Lineage e l o) (hx : e.Happens o x o') (hb : ∀ y ∈ l, y.Before x) :
    Lineage e (l ++ [x]) o' := by
  have hentered : EnteredBy e x.change.position x ∨ ∃ y ∈ l, EnteredBy e x.change.position y := by
    cases o with
    | none =>
      obtain ⟨signal, pos, hopened⟩ := opened_of_no_before hx.before
      exact .inl ⟨signal, pos, hopened, hx.allowed, by rw [hopened]; rfl⟩
    | some pos =>
      rw [(position_of_before hx.before).1]
      exact .inr (h.held pos rfl)
  have hearlier : ∀ y ∈ l, y.entry = x.entry ∨ y.index < x.entry := by
    intro y hy
    cases o with
    | none =>
      obtain ⟨signal, pos, hopened⟩ := opened_of_no_before hx.before
      have hentry : x.entry = x.index := by
        rw [← opened_entry hopened hx.allowed, BacktestEvent.entry, hopened]
        rfl
      rw [hentry]
      exact .inr ((hb y hy).2 (by rw [hopened]; rfl))
    | some pos =>
      have hentry : x.entry = pos.entryCandleIndex := by
        rw [BacktestEvent.entry, (position_of_before hx.before).1]
      rw [hentry]
      exact h.earlier pos rfl y hy
  have hkept : ∀ pos, o' = some pos → pos.entry = x.change.position.entry :=
    fun pos hpos => after_entry (hx.after.trans hpos)
  refine ⟨?_, ?_, ?_, ?_⟩
  · refine List.pairwise_append.mpr ⟨h.intervals, List.pairwise_singleton _ _, ?_⟩
    intro y hy z hz
    rw [List.mem_singleton.mp hz]
    exact hearlier y hy
  · intro pos hpos y hy
    have hindex : pos.entryCandleIndex = x.entry := congrArg Prod.fst (hkept pos hpos)
    rw [hindex]
    rcases List.mem_append.mp hy with hy | hy
    · exact hearlier y hy
    · rw [List.mem_singleton.mp hy]
      exact .inl rfl
  · intro y hy
    rcases List.mem_append.mp hy with hy | hy
    · obtain ⟨z, hz, hy⟩ := h.entered y hy
      exact ⟨z, List.mem_append_left _ hz, hy⟩
    · rw [List.mem_singleton.mp hy]
      rcases hentered with hself | ⟨z, hz, hent⟩
      · exact ⟨x, List.mem_append_right _ (List.mem_singleton_self _), hself, le_rfl⟩
      · exact ⟨z, List.mem_append_left _ hz, hent, (hb z hz).1⟩
  · intro pos hpos
    have hentry := hkept pos hpos
    have hsame : ∀ y, EnteredBy e x.change.position y → EnteredBy e pos y := by
      rintro y ⟨signal, pos', hy, hallowed, hentry'⟩
      exact ⟨signal, pos', hy, hallowed, hentry'.trans hentry.symm⟩
    rcases hentered with hself | ⟨z, hz, hent⟩
    · exact ⟨x, List.mem_append_right _ (List.mem_singleton_self _), hsame x hself⟩
    · exact ⟨z, List.mem_append_left _ hz, hsame z hent⟩

theorem lineage (hr : Run e.Happens none l o) (hb : l.Pairwise BacktestEvent.Before) :
    Lineage e l o := by
  induction hr with
  | nil => exact ⟨.nil, fun _ h => (by cases h), List.forall_mem_nil _, fun _ h => (by cases h)⟩
  | snoc _ hx ih =>
    obtain ⟨hl, -, hlast⟩ := List.pairwise_append.mp hb
    exact (ih hl).snoc hx fun y hy => hlast y hy _ (List.mem_singleton_self _)

/-- The events of a backtest have what happened to a position in one piece. -/
theorem events_lineage (candles : List CandleRow) (provider : SignalProvider ρ) (start : ρ) :
    ∃ o, Lineage e (e.events candles provider start) o := by
  obtain ⟨o, hr⟩ := events_run (e := e) candles provider start
  exact ⟨o, lineage hr (events_before candles provider start)⟩

/-- The provider gives the signal at turn `j` of the backtest. -/
def SignalledAt (e : BacktestingEngine) (candles : List CandleRow) (provider : SignalProvider ρ)
    (start : ρ) (j : ℕ) (signal : TradeSignal) : Prop :=
  ∃ candle s t p, e.Reaches candles provider start j candle s ∧
    e.fillPendingEntry j candle s = (.ok (), t) ∧
    provider j (e.atSignal j candle t).history (e.atSignal j candle t).provider = (.ok signal, p)

/-- The entry that waits at turn `k` is not overdue, and was asked for the latency before it is
due. -/
def Waits (e : BacktestingEngine) (candles : List CandleRow) (provider : SignalProvider ρ)
    (start : ρ) (k : ℕ) (s : BacktestState ρ) : Prop :=
  ∀ signal fillIdx, s.pendingEntry = some (signal, fillIdx) →
    k ≤ fillIdx ∧ ∃ j, fillIdx = j + e.latency.fillCandleOffset ∧
      e.SignalledAt candles provider start j signal

theorem atSignal_pendingEntry (t : BacktestState ρ) :
    (e.atSignal i candle t).pendingEntry = t.pendingEntry := by
  rcases e.atSignal_cases i candle t with ⟨_, _, -, -, -, h⟩ | ⟨-, -, hpe, -⟩
  · rw [h]
  · exact hpe

/-- One turn: an entry that is due is gone after the fill, and a new one is due later. -/
theorem Waits.turn (hw : e.Waits candles provider start i s) (hin : e.InOrder Took i s)
    (hreach : e.Reaches candles provider start i candle s)
    (h : e.turn i candle provider s = (.ok (), s')) :
    e.Waits candles provider start (i + 1) s' := by
  obtain ⟨t, signal, p, hf, hprov, hs'⟩ := e.turn_ok i candle h
  have hfilled : ∀ signal fillIdx, t.pendingEntry = some (signal, fillIdx) →
      i + 1 ≤ fillIdx ∧ ∃ j, fillIdx = j + e.latency.fillCandleOffset ∧
        e.SignalledAt candles provider start j signal := by
    intro signal fillIdx hp
    rcases e.fillPendingEntry_cases i candle s with ⟨err, hq⟩ | ⟨hq, hnot⟩ |
      ⟨_, _, _, -, -, -, -, hq⟩
    all_goals
      rw [hq] at hf
      cases hf
    · obtain ⟨hle, hj⟩ := hw signal fillIdx hp
      refine ⟨?_, hj⟩
      by_contra hdue
      obtain ⟨pos, hpos⟩ := Option.ne_none_iff_exists'.mp (hnot signal fillIdx hp (by omega))
      rw [(hin.slot pos hpos).1] at hp
      cases hp
    · cases hp
  intro signal' fillIdx hp
  rcases e.schedule_cases i signal
      { e.atSignal i candle t with
        calls := (e.atSignal i candle t).calls ++ [(i, (e.atSignal i candle t).history)]
        provider := p } with hq | ⟨-, hq⟩ | ⟨-, -, -, hq⟩
  all_goals rw [hs', hq] at hp
  · exact hfilled signal' fillIdx (atSignal_pendingEntry t ▸ hp)
  · cases hp
    have hoff : 1 ≤ e.latency.fillCandleOffset := Nat.le_add_right 1 _
    exact ⟨by omega, i, rfl, candle, s, t, p, hreach, hf, hprov⟩
  · exact hfilled signal' fillIdx (atSignal_pendingEntry t ▸ hp)

theorem firstTurns_waits (candles : List CandleRow) (k : ℕ) (hk : k ≤ candles.length)
    (h : e.firstTurns candles k provider start = (.ok (), s)) :
    e.Waits candles provider start k s := by
  induction k generalizing s with
  | zero =>
    cases h
    intro _ _ hp
    cases hp
  | succ k ih =>
    have hk' := Nat.le_of_succ_le hk
    have hc : candles[k]? = some candles[k] := List.getElem?_eq_getElem hk
    rw [e.firstTurns_succ _ candles k hc] at h
    rcases hfirst : e.firstTurns candles k provider start with ⟨err | u, s₀⟩
    · rw [hfirst] at h
      cases h
    · rw [hfirst] at h
      exact (ih hk' hfirst).turn (e.firstTurns_inOrder candles k hk' hfirst) ⟨hc, hfirst⟩ h

theorem events_allowed (hx : x ∈ e.events candles provider start) : e.Allowed x := by
  obtain ⟨o, hr⟩ := events_run (e := e) candles provider start
  exact hr.forall_label (fun _ _ _ h => h.allowed) x hx

/-- An entry is filled exactly the latency after the signal that has asked for it. -/
theorem entry_on_time (hx : x ∈ e.events candles provider start)
    (hopened : x.change = .opened signal pos) :
    ∃ j, x.index = j + e.latency.fillCandleOffset ∧
      e.SignalledAt candles provider start j signal := by
  have hentry : x.change.isEntry = true := by rw [hopened]; rfl
  rcases List.mem_append.mp hx with hx | hx
  · obtain ⟨k, candle, s, hk, ⟨hc, hfirst⟩, hx⟩ := mem_firstEvents candles candles.length hx
    obtain ⟨exits, heq, hexits⟩ := e.turnEvents_split k candle s
    have hfill : x ∈ e.fillEvents k candle s := by
      have hnot : x ∉ exits := by
        intro hm
        rw [(hexits x hm).2.2] at hentry
        cases hentry
      rcases heq with heq | heq
      · rw [heq] at hx
        exact absurd hx hnot
      · rw [heq] at hx
        exact (List.mem_append.mp hx).resolve_right hnot
    rcases e.fillEvents_cases k candle s with h |
      ⟨signal', fillIdx, pos', hp, hdue, -, h⟩
    · rw [h] at hfill
      cases hfill
    · rw [h] at hfill
      have hx := List.mem_singleton.mp hfill
      subst hx
      cases hopened
      obtain ⟨hle, j, hj, hsignal⟩ := firstTurns_waits candles k (by omega) hfirst signal fillIdx hp
      have hsame : fillIdx = k := by omega
      exact ⟨j, hsame ▸ hj, hsignal⟩
  · rw [(endEvents_at hx).2.2] at hentry
    cases hentry

/-- A trade is of the position of its event. -/
theorem tradeOf_position {x : BacktestEvent} (h : e.tradeOf x = some trade) :
    trade.entry = x.change.position.entry ∧ trade.exitCandleIndex = x.index := by
  rcases tradeOf_cases h with ⟨pos, level, hx, ht⟩ | ⟨pos, price, reason, orderType, hx, rfl⟩
  · have hpart := partialCloseTp_trade ht
    rw [hx]
    exact ⟨hpart.entry, hpart.index⟩
  · rw [hx]
    exact ⟨rfl, rfl⟩

theorem tradeOf_indices {x : BacktestEvent} (h : e.tradeOf x = some trade) :
    trade.entryCandleIndex = x.entry ∧ trade.exitCandleIndex = x.index :=
  (tradeOf_position h).imp_left (congrArg Prod.fst)

/-- The positions of a backtest, one after the other. -/
structure OneAtATime (e : BacktestingEngine) (candles : List CandleRow)
    (provider : SignalProvider ρ) (start : ρ) (trades : List ClosedTrade) : Prop where
  onTime : ∀ x ∈ e.events candles provider start, ∀ signal pos, x.change = .opened signal pos →
    pos.entryCandleIndex = x.index ∧ ∃ j, x.index = j + e.latency.fillCandleOffset ∧
      e.SignalledAt candles provider start j signal
  entered : ∀ trade ∈ trades, ∃ x ∈ e.events candles provider start,
    x.change.isEntry ∧ x.index = trade.entryCandleIndex
  single : ∀ x ∈ e.events candles provider start, ∀ y ∈ e.events candles provider start, ∀ k,
    x.entry ≤ k ∧ k ≤ x.index → y.entry ≤ k ∧ k ≤ y.index → x.entry = y.entry
  exitAfter : ∀ trade ∈ trades, trade.entryCandleIndex ≤ trade.exitCandleIndex
  ordered : trades.Pairwise fun trade later => trade.exitCandleIndex ≤ later.exitCandleIndex
  disjoint : trades.Pairwise fun trade later => trade.entryCandleIndex = later.entryCandleIndex ∨
    trade.exitCandleIndex < later.entryCandleIndex

/-- Where no interval begins before the one of an earlier event is over, no two of them have an
index in common, unless they are of one entry. -/
theorem intervals_disjoint {l : List BacktestEvent}
    (h : l.Pairwise fun x y => x.entry = y.entry ∨ x.index < y.entry) :
    ∀ x ∈ l, ∀ y ∈ l, ∀ k, x.entry ≤ k ∧ k ≤ x.index → y.entry ≤ k ∧ k ≤ y.index →
      x.entry = y.entry := by
  apply List.Pairwise.forall_of_forall_of_flip
  · intro x _ k _ _
    rfl
  · refine h.imp fun hxy k hx hy => ?_
    omega
  · refine h.imp fun hxy k hy hx => ?_
    omega

theorem EnteredBy.isEntry (h : EnteredBy e pos y) : y.change.isEntry = true := by
  obtain ⟨signal, pos', hy, -, -⟩ := h
  rw [hy]
  rfl

/-- A backtest that returns has traded one position at a time. -/
theorem run_oneAtATime (h : (e.run candles provider start).1 = .ok trades) :
    e.OneAtATime candles provider start trades := by
  obtain ⟨o, hl⟩ := events_lineage (e := e) candles provider start
  have hbefore := events_before (e := e) candles provider start
  have htrades := (events_trades h).1
  have hof : ∀ trade ∈ trades, ∃ x ∈ e.events candles provider start, e.tradeOf x = some trade := by
    intro trade hm
    rw [htrades] at hm
    exact List.mem_filterMap.mp hm
  refine ⟨?_, ?_, ?_, ?_, ?_, ?_⟩
  · intro x hx signal pos hopened
    exact ⟨opened_entry hopened (events_allowed hx), entry_on_time hx hopened⟩
  · intro trade hm
    obtain ⟨x, hx, ht⟩ := hof trade hm
    obtain ⟨y, hy, hent, -⟩ := hl.entered x hx
    refine ⟨y, hy, hent.isEntry, ?_⟩
    rw [hent.index, (tradeOf_indices ht).1]
    rfl
  · exact intervals_disjoint hl.intervals
  · intro trade hm
    obtain ⟨x, hx, ht⟩ := hof trade hm
    obtain ⟨y, hy, hent, hle⟩ := hl.entered x hx
    have hentry : y.index = x.entry := hent.index
    rw [(tradeOf_indices ht).1, (tradeOf_indices ht).2]
    omega
  · rw [htrades]
    refine hbefore.filterMap _ fun x y hxy trade ht trade' ht' => ?_
    rw [(tradeOf_indices ht).2, (tradeOf_indices ht').2]
    exact hxy.1
  · rw [htrades]
    refine hl.intervals.filterMap _ fun x y hxy trade ht trade' ht' => ?_
    rw [(tradeOf_indices ht).1, (tradeOf_indices ht).2, (tradeOf_indices ht').1]
    exact hxy

end BacktestingEngine

/-- The rally's long is the only position of its backtest. -/
theorem rally_oneAtATime : ∃ trades, (standardEngine.run rallyOnce longAtStart ()).1 = .ok trades ∧
    standardEngine.OneAtATime rallyOnce longAtStart () trades := by
  have hok : (standardEngine.run rallyOnce longAtStart ()).1.toOption.isSome = true := by
    decide +kernel
  obtain ⟨trades, hr⟩ := ok_of_isSome hok
  exact ⟨trades, hr, BacktestingEngine.run_oneAtATime hr⟩

end FuturesBot
