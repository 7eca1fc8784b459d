import FuturesBot.Backtesting.Engine

namespace FuturesBot
open Lib

namespace BacktestState

variable {I J : ℕ → Prop} {s t u : BacktestState ρ}

/-- The logs have grown by calls and trades of the candles in `I`. -/
def Grows (I : ℕ → Prop) (s t : BacktestState ρ) : Prop :=
  ∃ calls trades, t.calls = s.calls ++ calls ∧ t.closedTrades = s.closedTrades ++ trades ∧
    (∀ c ∈ calls, I c.1) ∧ ∀ trade ∈ trades, I trade.exitCandleIndex ∧ trade.exitReason ≠ .endOfData

theorem Grows.of_same (hc : t.calls = s.calls) (ht : t.closedTrades = s.closedTrades) :
    Grows I s t := by
  refine ⟨[], [], ?_, ?_, List.forall_mem_nil _, List.forall_mem_nil _⟩
  · rw [hc, List.append_nil]
  · rw [ht, List.append_nil]

theorem Grows.refl (s : BacktestState ρ) : Grows I s s := .of_same rfl rfl

theorem Grows.trans (h : Grows I s t) (h' : Grows I t u) : Grows I s u := by
  obtain ⟨calls, trades, hc, ht, hIc, hIt⟩ := h
  obtain ⟨calls', trades', hc', ht', hIc', hIt'⟩ := h'
  refine ⟨calls ++ calls', trades ++ trades', ?_, ?_, ?_, ?_⟩
  · rw [hc', hc, List.append_assoc]
  · rw [ht', ht, List.append_assoc]
  · intro c hm
    exact (List.mem_append.mp hm).elim (hIc c) (hIc' c)
  · intro trade hm
    exact (List.mem_append.mp hm).elim (hIt trade) (hIt' trade)

theorem Grows.mono (h : Grows I s t) (hIJ : ∀ i, I i → J i) : Grows J s t := by
  obtain ⟨calls, trades, hc, ht, hIc, hIt⟩ := h
  refine ⟨calls, trades, hc, ht, ?_, ?_⟩
  · intro c hm
    exact hIJ _ (hIc c hm)
  · intro trade hm
    exact ⟨hIJ _ (hIt trade hm).1, (hIt trade hm).2⟩

/-- One more trade. -/
theorem Grows.trade (trade : ClosedTrade) (hc : t.calls = s.calls)
    (ht : t.closedTrades = s.closedTrades ++ [trade]) (hr : trade.exitReason ≠ .endOfData) :
    Grows (· = trade.exitCandleIndex) s t := by
  refine ⟨[], [trade], by rw [hc, List.append_nil], ht, List.forall_mem_nil _, ?_⟩
  intro trade' hm
  rw [List.mem_singleton.mp hm]
  exact ⟨rfl, hr⟩

end BacktestState

namespace BacktestingEngine
open BacktestState

variable (e : BacktestingEngine) (i : ℕ) (candle : CandleRow)

theorem fillPendingEntry_grows (s : BacktestState ρ) :
    Grows (· = i) s (e.fillPendingEntry i candle s).2 := by
  unfold fillPendingEntry
  split
  · exact .refl s
  · split
    · split
      · exact .refl s
      · exact .of_same rfl rfl
    · exact .refl s

theorem closeRequested_grows (s : BacktestState ρ) :
    Grows (· = i) s (e.closeRequested i candle s) := by
  unfold closeRequested
  split
  · rename_i pos _ _
    split
    · exact .trade (e.closePosition pos candle.openPrice i .closeSignal .market) rfl rfl
        (by simp [closePosition])
    · exact .refl s
  · exact .refl s

/-- A trade that a candle closes is closed at that candle, by one of its levels. -/
theorem checkSlTp_trade (h : (e.checkSlTp pos candle i).1 = some trade) :
    trade.exitCandleIndex = i ∧ trade.exitReason ≠ .endOfData ∧
      trade.exitReason ≠ .closeSignal := by
  have hsingle : (e.checkSingleTp pos candle i).1 = some trade →
      trade.exitCandleIndex = i ∧ trade.exitReason ≠ .endOfData ∧
        trade.exitReason ≠ .closeSignal := by
    intro h
    unfold checkSingleTp at h
    repeat' split at h
    all_goals cases h
    simp [closePosition]
  unfold checkSlTp at h
  split at h
  · cases h
    simp [closePosition]
  · split at h
    · split at h
      · split at h
        · cases h
          simp [closePosition]
        · unfold partialCloseTp at h
          dsimp only at h
          split at h <;> cases h
          simp
      · exact hsingle h
    · exact hsingle h

theorem checkExits_grows (s : BacktestState ρ) : Grows (· = i) s (e.checkExits i candle s) := by
  unfold checkExits
  split
  · exact .refl s
  · rename_i pos _
    split
    · rename_i trade updatedPos h
      obtain ⟨hi, hr, -⟩ := e.checkSlTp_trade i candle (congrArg Prod.fst h)
      rw [← hi]
      exact .trade trade rfl rfl hr
    · exact .of_same rfl rfl
    · exact .refl s

theorem accrueFunding_grows (s : BacktestState ρ) : Grows (· = i) s (accrueFunding candle s) := by
  unfold accrueFunding
  split
  · exact .refl s
  · split
    · exact .refl s
    · exact .of_same rfl rfl

theorem schedule_grows (signal : TradeSignal) (s : BacktestState ρ) :
    Grows (· = i) s (e.schedule i signal s) := by
  unfold schedule
  split
  · exact .of_same rfl rfl
  · split
    · exact .of_same rfl rfl
    · exact .refl s

theorem askProvider_grows (provider : SignalProvider ρ) (s : BacktestState ρ) :
    Grows (· = i) s (e.askProvider i provider s).2 := by
  have hcall : ∀ p, Grows (· = i) s
      { s with calls := s.calls ++ [(i, s.history)], provider := p } := by
    intro p
    refine ⟨[(i, s.history)], [], rfl, by rw [List.append_nil], ?_, List.forall_mem_nil _⟩
    intro c hm
    rw [List.mem_singleton.mp hm]
  unfold askProvider
  dsimp only
  split
  · exact hcall _
  · exact (hcall _).trans (e.schedule_grows i _ _)

theorem turn_grows (provider : SignalProvider ρ) (s : BacktestState ρ) :
    Grows (· = i) s (e.turn i candle provider s).2 := by
  have hfill := e.fillPendingEntry_grows i candle s
  unfold turn
  rcases hf : e.fillPendingEntry i candle s with ⟨err | u, t⟩
  · rwa [hf] at hfill
  · rw [hf] at hfill
    have hexits := (e.closeRequested_grows i candle t).trans (e.checkExits_grows i candle _)
    have hbefore := (hfill.trans hexits).trans (accrueFunding_grows i candle _)
    have hask := e.askProvider_grows i provider
      (accrueFunding candle (e.checkExits i candle (e.closeRequested i candle t)))
    dsimp only
    rcases ha : e.askProvider i provider
      (accrueFunding candle (e.checkExits i candle (e.closeRequested i candle t)))
      with ⟨err | u, t'⟩
    · rw [ha] at hask
      exact hbefore.trans hask
    · rw [ha] at hask
      exact (hbefore.trans hask).trans (.of_same rfl rfl)

/-- Candles leave calls and trades of their own indices only. -/
theorem loop_grows (provider : SignalProvider ρ) (candles : List CandleRow) (s : BacktestState ρ) :
    Grows (fun j => i ≤ j ∧ j < i + candles.length) s
      (loop (fun i candle => e.turn i candle provider) i candles s).2 := by
  refine loop_rel .refl (fun _ _ _ => .trans) candles ?_ s
  intro j candle s hj hlt
  exact (e.turn_grows j candle provider s).mono (fun j' he => he ▸ ⟨hj, hlt⟩)

/-- The trades that are settled by what happened before a candle. -/
def settledBefore (k : ℕ) (trades : List ClosedTrade) : List ClosedTrade :=
  trades.filter (fun t => t.exitCandleIndex < k ∧ t.exitReason ≠ .endOfData)

def callsBefore (k : ℕ) (calls : List (ℕ × List CandleRow)) : List (ℕ × List CandleRow) :=
  calls.filter (·.1 < k)

/-- The candles before `k` are the only ones that `settledBefore` and `callsBefore` keep. -/
theorem settledBefore_append (ht : ∀ t ∈ trades, t.exitCandleIndex < k ∧ t.exitReason ≠ .endOfData)
    (hl : ∀ t ∈ later, ¬(t.exitCandleIndex < k ∧ t.exitReason ≠ .endOfData)) :
    settledBefore k (trades ++ later) = trades := by
  have hall : settledBefore k trades = trades :=
    List.filter_eq_self.mpr fun t hm => decide_eq_true (ht t hm)
  have hnone : settledBefore k later = [] :=
    List.filter_eq_nil_iff.mpr fun t hm => by simpa using hl t hm
  rw [settledBefore, List.filter_append]
  exact (congrArg₂ (· ++ ·) hall hnone).trans (List.append_nil _)

theorem callsBefore_append {calls later : List (ℕ × List CandleRow)} (hc : ∀ c ∈ calls, c.1 < k)
    (hl : ∀ c ∈ later, k ≤ c.1) :
    callsBefore k (calls ++ later) = calls := by
  have hall : callsBefore k calls = calls :=
    List.filter_eq_self.mpr fun c hm => decide_eq_true (hc c hm)
  have hnone : callsBefore k later = [] :=
    List.filter_eq_nil_iff.mpr fun c hm => by simpa using hl c hm
  rw [callsBefore, List.filter_append]
  exact (congrArg₂ (· ++ ·) hall hnone).trans (List.append_nil _)

/-- What the first `k` candles make of a backtest. -/
def firstTurns (candles : List CandleRow) (k : ℕ) (provider : SignalProvider ρ) (start : ρ) :
    Except PyError Unit × BacktestState ρ :=
  loop (fun i candle => e.turn i candle provider) 0 (candles.take k) { provider := start }

theorem firstTurns_logs (candles : List CandleRow) (k : ℕ) (provider : SignalProvider ρ)
    (start : ρ) :
    (∀ c ∈ (e.firstTurns candles k provider start).2.calls, c.1 < k) ∧
    ∀ t ∈ (e.firstTurns candles k provider start).2.closedTrades,
      t.exitCandleIndex < k ∧ t.exitReason ≠ .endOfData := by
  obtain ⟨calls, trades, hc, ht, hIc, hIt⟩ :=
    e.loop_grows 0 provider (candles.take k) { provider := start }
  have hlen : (candles.take k).length ≤ k := List.length_take_le k candles
  rw [firstTurns, hc, ht, List.nil_append, List.nil_append]
  refine ⟨?_, ?_⟩
  · intro c hm
    have hb := hIc c hm
    omega
  · intro t hm
    have hb := (hIt t hm).1
    exact ⟨by omega, (hIt t hm).2⟩

/-- The later candles only add to what the first ones have made. -/
theorem loop_after_firstTurns (candles : List CandleRow) (k : ℕ) (provider : SignalProvider ρ)
    (start : ρ) : Grows (k ≤ ·) (e.firstTurns candles k provider start).2
      (loop (fun i candle => e.turn i candle provider) 0 candles { provider := start }).2 := by
  have hsplit := loop_append (fun i candle => e.turn i candle provider) 0 (candles.take k)
    (candles.drop k) { provider := start }
  rw [List.take_append_drop] at hsplit
  rw [hsplit, firstTurns]
  rcases loop (fun i candle => e.turn i candle provider) 0 (candles.take k)
    { provider := start } with ⟨err | u, s⟩
  · exact .refl s
  · refine (e.loop_grows _ provider (candles.drop k) s).mono ?_
    intro j hj
    simp only [List.length_take, List.length_drop] at hj
    omega

/-- A run calls and settles, as far as the first candles go, what they alone decide. -/
theorem run_prefix (candles : List CandleRow) (k : ℕ) (provider : SignalProvider ρ) (start : ρ) :
    callsBefore k (e.run candles provider start).2.calls =
      (e.firstTurns candles k provider start).2.calls ∧
    ∀ trades, (e.run candles provider start).1 = .ok trades →
      settledBefore k trades = (e.firstTurns candles k provider start).2.closedTrades := by
  obtain ⟨hfirst, hsettled⟩ := e.firstTurns_logs candles k provider start
  obtain ⟨calls, trades, hc, ht, hIc, hIt⟩ := e.loop_after_firstTurns candles k provider start
  have hlater : ∀ t ∈ trades, ¬(t.exitCandleIndex < k ∧ t.exitReason ≠ .endOfData) := by
    intro t hm hb
    have hk := (hIt t hm).1
    omega
  unfold run
  split
  · rename_i hnil
    have hempty : candles = [] := List.getLast?_eq_none_iff.mp hnil
    subst hempty
    simp [firstTurns, loop, callsBefore, settledBefore]
  · rcases hl : loop (fun i candle => e.turn i candle provider) 0 candles
      { provider := start } with ⟨err | u, s⟩
    all_goals rw [hl] at hc ht
    · refine ⟨?_, fun _ h => by cases h⟩
      rw [hc, callsBefore_append hfirst hIc]
    · dsimp only
      split
      · refine ⟨by rw [hc, callsBefore_append hfirst hIc], ?_⟩
        intro trades' h
        cases h
        rw [ht, settledBefore_append hsettled hlater]
      · refine ⟨by rw [hc, callsBefore_append hfirst hIc], ?_⟩
        intro trades' h
        cases h
        rw [ht, List.append_assoc]
        apply settledBefore_append hsettled
        intro t hm
        rcases List.mem_append.mp hm with hm | hm
        · exact hlater t hm
        · rw [List.mem_singleton.mp hm]
          simp [closePosition]

/-- Two lists of candles that agree on the first `k` give the provider the same calls at
the indices before `k`, and the same trades that are settled before `k`. -/
theorem backtest_causal (provider : SignalProvider ρ) (start : ρ)
    (h : candles.take k = candles'.take k) :
    callsBefore k (e.run candles provider start).2.calls =
      callsBefore k (e.run candles' provider start).2.calls ∧
    ∀ trades trades', (e.run candles provider start).1 = .ok trades →
      (e.run candles' provider start).1 = .ok trades' →
      settledBefore k trades = settledBefore k trades' := by
  obtain ⟨hc, ht⟩ := e.run_prefix candles k provider start
  obtain ⟨hc', ht'⟩ := e.run_prefix candles' k provider start
  have hsame : e.firstTurns candles k provider start = e.firstTurns candles' k provider start := by
    rw [firstTurns, firstTurns, h]
  refine ⟨by rw [hc, hc', hsame], ?_⟩
  intro trades trades' hr hr'
  rw [ht trades hr, ht' trades' hr', hsame]

end BacktestingEngine

def candleUpTo (high : Amount) (h : 100 ≤ high) : CandleRow where
  timestampUtc := 0
  openPrice := 100
  high := high
  low := 90
  close := 100
  volume := 1
  open_range := ⟨by norm_num, h⟩
  close_range := ⟨by norm_num, h⟩
  volume_nonneg := by norm_num

def quietCandle : CandleRow := candleUpTo 100 le_rfl

def rallyCandle : CandleRow := candleUpTo 110 (by norm_num)

/-- A long with a target at 105, asked for at the first candle. -/
def longSignal : TradeSignal where
  action := .long
  stopLoss := some 80
  takeProfit := some 105
  leverage_range := by decide
  margin_pos := by norm_num
  exits := by
    intro _
    refine ⟨rfl, by simp, ?_⟩
    intro level hl
    cases hl

def waitSignal : TradeSignal where
  action := .noOp
  leverage_range := by decide
  margin_pos := by norm_num
  exits := by
    intro h
    rcases h with h | h <;> cases h

def longAtStart : SignalProvider Unit := fun i _ _ =>
  (.ok (if i = 0 then longSignal else waitSignal), ())

/-- The engine as it is built unless it is given other models. -/
def standardEngine : BacktestingEngine := {}

def rallyOnce : List CandleRow := [quietCandle, rallyCandle, quietCandle]

def rallyTwice : List CandleRow := [quietCandle, rallyCandle, rallyCandle]

/-- The target is reached in the candle that both lists have, and its trade is the same. -/
theorem same_start_same_trades : ∃ trades trades',
    (standardEngine.run rallyOnce longAtStart ()).1 = .ok trades ∧
    (standardEngine.run rallyTwice longAtStart ()).1 = .ok trades' ∧
    trades.length = 1 ∧
    BacktestingEngine.settledBefore 2 trades = BacktestingEngine.settledBefore 2 trades' := by
  have hlen : (standardEngine.run rallyOnce longAtStart ()).1.toOption.map List.length = some 1 := by
    decide +kernel
  have hlen' : (standardEngine.run rallyTwice longAtStart ()).1.toOption.map List.length =
      some 1 := by
    decide +kernel
  have hsame : rallyOnce.take 2 = rallyTwice.take 2 := rfl
  have hcausal := (BacktestingEngine.backtest_causal standardEngine longAtStart () hsame).2
  obtain ⟨trades, hr, hone⟩ := ok_of_map hlen
  obtain ⟨trades', hr', -⟩ := ok_of_map hlen'
  exact ⟨trades, trades', hr, hr', hone, hcausal trades trades' hr hr'⟩

end FuturesBot
