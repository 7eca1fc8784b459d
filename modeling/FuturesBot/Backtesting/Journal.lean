import FuturesBot.Backtesting.PendingClose
import FuturesBot.Lib.Runs

namespace FuturesBot
open Lib

/-- What can happen to the position of a backtest. Apart from the entry, it is told with the
position as it was before. -/
inductive PositionChange
  | opened (signal : TradeSignal) (pos : OpenPosition)
  | reduced (pos : OpenPosition) (level : TakeProfitLevel)
  | funded (pos : OpenPosition)
  | closed (pos : OpenPosition) (price : Amount) (reason : ExitReason) (orderType : ModelOrderType)

structure BacktestEvent where
  index : ℕ
  candle : CandleRow
  change : PositionChange

namespace PositionChange

def position : PositionChange → OpenPosition
  | .opened _ pos | .reduced pos _ | .funded pos | .closed pos _ _ _ => pos

/-- What has to be open for the change to happen. -/
def before : PositionChange → Option OpenPosition
  | .opened _ _ => none
  | .reduced pos _ | .funded pos | .closed pos _ _ _ => some pos

def isEntry : PositionChange → Bool
  | .opened _ _ => true
  | .reduced _ _ | .funded _ | .closed _ _ _ _ => false

end PositionChange

/-- The candle of the entry of the position. -/
def BacktestEvent.entry (x : BacktestEvent) : ℕ := x.change.position.entryCandleIndex

/-- An event comes before another of the same backtest; an entry waits for a candle of its own. -/
def BacktestEvent.Before (x y : BacktestEvent) : Prop :=
  x.index ≤ y.index ∧ (y.change.isEntry → x.index < y.index)

/-- A target that closes the whole of the position. -/
def OpenPosition.FinalTarget (pos : OpenPosition) (price : Amount) : Prop :=
  (∃ level, pos.takeProfitLevels = [level] ∧ price = level.price) ∨ pos.takeProfit = some price

namespace BacktestingEngine

variable (e : BacktestingEngine)

/-- What is open after the event. -/
def after (x : BacktestEvent) : Option OpenPosition :=
  match x.change with
  | .opened _ pos => some pos
  | .reduced pos level => some (e.partialCloseTp pos level x.index).2
  | .funded pos =>
    some { pos with accruedFundingUsdt := pos.accruedFundingUsdt + computeFunding pos x.candle }
  | .closed _ _ _ _ => none

/-- The trade that the event leaves, if it leaves one. -/
def tradeOf (x : BacktestEvent) : Option ClosedTrade :=
  match x.change with
  | .opened _ _ | .funded _ => none
  | .reduced pos level => (e.partialCloseTp pos level x.index).1
  | .closed pos price reason orderType =>
    some (e.closePosition pos price x.index reason orderType)

/-- The rules of the simulation. -/
def Allowed (x : BacktestEvent) : Prop :=
  match x.change with
  | .opened signal pos => e.openPosition signal x.candle x.index = .ok (some pos)
  | .reduced pos level =>
    (∃ next later, pos.takeProfitLevels = level :: next :: later) ∧
    ¬stopHit pos.side pos.stopLoss x.candle ∧ targetHit pos.side level.price x.candle
  | .funded _ => x.candle.fundingRate ≠ 0
  | .closed pos price reason orderType =>
    match reason with
    | .sl => stopHit pos.side price x.candle ∧ price = pos.stopLoss ∧ orderType = .market
    | .tp =>
      pos.FinalTarget price ∧ ¬stopHit pos.side pos.stopLoss x.candle ∧
        targetHit pos.side price x.candle ∧ orderType = .limit
    | .closeSignal => price = x.candle.openPrice ∧ orderType = .market
    | .endOfData => price = x.candle.close ∧ orderType = .limit
    | .tpPartial => False

/-- One event in the life of the position. -/
structure Happens (o : Option OpenPosition) (x : BacktestEvent) (o' : Option OpenPosition) :
    Prop where
  before : x.change.before = o
  after : e.after x = o'
  allowed : e.Allowed x

variable (i : ℕ) (candle : CandleRow)

def fillEvents (s : BacktestState ρ) : List BacktestEvent :=
  match s.pendingEntry with
  | none => []
  | some (signal, fillIdx) =>
    if fillIdx ≤ i ∧ s.openPos.isNone then
      match e.openPosition signal candle i with
      | .ok (some pos) => [⟨i, candle, .opened signal pos⟩]
      | _ => []
    else []

def closeEvents (s : BacktestState ρ) : List BacktestEvent :=
  match s.pendingCloseIndex, s.openPos with
  | some closeIdx, some pos =>
    if closeIdx ≤ i then [⟨i, candle, .closed pos candle.openPrice .closeSignal .market⟩] else []
  | _, _ => []

def singleTarget (pos : OpenPosition) (candle : CandleRow) : Option PositionChange :=
  match pos.takeProfit with
  | none => none
  | some price =>
    if targetHit pos.side price candle then some (.closed pos price .tp .limit) else none

/-- What the range of a candle does to a position. -/
def exitOf (pos : OpenPosition) (candle : CandleRow) : Option PositionChange :=
  if stopHit pos.side pos.stopLoss candle then some (.closed pos pos.stopLoss .sl .market)
  else match pos.takeProfitLevels with
    | level :: later =>
      if targetHit pos.side level.price candle then
        some (if later.isEmpty then .closed pos level.price .tp .limit else .reduced pos level)
      else singleTarget pos candle
    | [] => singleTarget pos candle

def exitEvents (s : BacktestState ρ) : List BacktestEvent :=
  match s.openPos with
  | none => []
  | some pos => (exitOf pos candle).toList.map (⟨i, candle, ·⟩)

def fundingEvents (s : BacktestState ρ) : List BacktestEvent :=
  match s.openPos with
  | none => []
  | some pos => if candle.fundingRate = 0 then [] else [⟨i, candle, .funded pos⟩]

/-- What a turn does to the position, before it asks the provider. -/
def turnEvents (s : BacktestState ρ) : List BacktestEvent :=
  match e.fillPendingEntry i candle s with
  | (.error _, _) => []
  | (.ok (), t) =>
    let closed := e.closeRequested i candle t
    e.fillEvents i candle s ++ (closeEvents i candle t ++
      (exitEvents i candle closed ++ fundingEvents i candle (e.checkExits i candle closed)))

/-- The events of the first `k` candles. -/
def firstEvents (candles : List CandleRow) (provider : SignalProvider ρ) (start : ρ) :
    ℕ → List BacktestEvent
  | 0 => []
  | k + 1 => firstEvents candles provider start k ++
      match candles[k]?, e.firstTurns candles k provider start with
      | some candle, (.ok (), s) => e.turnEvents k candle s
      | _, _ => []

/-- The end of the data closes what is still open. -/
def endEvents (candles : List CandleRow) (provider : SignalProvider ρ) (start : ρ) :
    List BacktestEvent :=
  match candles.getLast?, e.firstTurns candles candles.length provider start with
  | some last, (.ok (), s) =>
    s.openPos.toList.map fun pos =>
      ⟨candles.length - 1, last, .closed pos last.close .endOfData .limit⟩
  | _, _ => []

/-- Everything that happens to the positions of a backtest. -/
def events (candles : List CandleRow) (provider : SignalProvider ρ) (start : ρ) :
    List BacktestEvent :=
  e.firstEvents candles provider start candles.length ++ e.endEvents candles provider start

/-- The events lead from one state to the other, and leave the trades that are new in it. -/
structure Records (l : List BacktestEvent) (s s' : BacktestState ρ) : Prop where
  happened : Run e.Happens s.openPos l s'.openPos
  trades : s'.closedTrades = s.closedTrades ++ l.filterMap e.tradeOf

variable {e i candle} {s s' s'' t : BacktestState ρ} {provider : SignalProvider ρ} {start : ρ}

theorem Records.of_same (hp : s'.openPos = s.openPos) (ht : s'.closedTrades = s.closedTrades) :
    e.Records [] s s' where
  happened := hp ▸ .nil _
  trades := by simp [ht]

theorem Records.one {x : BacktestEvent} (h : e.Happens s.openPos x s'.openPos)
    (ht : s'.closedTrades = s.closedTrades ++ (e.tradeOf x).toList) : e.Records [x] s s' where
  happened := .cons h (.nil _)
  trades := by
    rw [ht]
    cases hx : e.tradeOf x <;> simp [hx]

theorem Records.append (h : e.Records l s s') (h' : e.Records l' s' s'') :
    e.Records (l ++ l') s s'' where
  happened := h.happened.append h'.happened
  trades := by rw [h'.trades, h.trades, List.append_assoc, List.filterMap_append]

theorem fillEvents_records (hf : e.fillPendingEntry i candle s = (.ok (), t)) :
    e.Records (e.fillEvents i candle s) s t := by
  rcases e.fillPendingEntry_cases i candle s with ⟨err, h⟩ | ⟨h, hnot⟩ |
    ⟨signal, fillIdx, newPos, hp, hle, hnone, ho, h⟩
  all_goals
    rw [h] at hf
    cases hf
  · have hno : e.fillEvents i candle s = [] := by
      unfold fillEvents
      split
      · rfl
      · rename_i hp
        rw [if_neg]
        rintro ⟨hle, hnone⟩
        exact hnot _ _ hp hle (Option.isNone_iff_eq_none.mp hnone)
    rw [hno]
    exact .of_same rfl rfl
  · cases newPos with
    | none =>
      simp only [fillEvents, hp, hnone, ho, hle, Option.isNone_none, and_self, if_true]
      exact .of_same hnone.symm rfl
    | some pos =>
      simp only [fillEvents, hp, hnone, ho, hle, Option.isNone_none, and_self, if_true]
      exact .one ⟨hnone.symm, rfl, ho⟩ (by simp [tradeOf])

theorem closeEvents_records (e : BacktestingEngine) (i : ℕ) (candle : CandleRow)
    (s : BacktestState ρ) :
    e.Records (closeEvents i candle s) s (e.closeRequested i candle s) := by
  unfold closeEvents closeRequested
  cases hc : s.pendingCloseIndex with
  | none => exact .of_same rfl rfl
  | some closeIdx =>
    cases hp : s.openPos with
    | none => exact .of_same rfl rfl
    | some pos =>
      by_cases hdue : closeIdx ≤ i
      · simp only [if_pos hdue]
        exact .one ⟨hp.symm, rfl, rfl, rfl⟩ rfl
      · simp only [if_neg hdue]
        exact .of_same rfl rfl

theorem fundingEvents_records (e : BacktestingEngine) (i : ℕ) (candle : CandleRow)
    (s : BacktestState ρ) :
    e.Records (fundingEvents i candle s) s (accrueFunding candle s) := by
  unfold fundingEvents accrueFunding
  cases hp : s.openPos with
  | none => exact .of_same rfl rfl
  | some pos =>
    by_cases hrate : candle.fundingRate = 0
    · simp only [if_pos hrate]
      exact .of_same rfl rfl
    · simp only [if_neg hrate]
      exact .one ⟨hp.symm, rfl, hrate⟩ (by simp [tradeOf])

/-- The trade of a level on the way: it closes something, and is of the position. -/
structure PartialTrade (e : BacktestingEngine) (pos : OpenPosition) (level : TakeProfitLevel)
    (i : ℕ) (trade : ClosedTrade) : Prop where
  quantity : 0 < quantizeProduct pos.quantity level.closeFraction
  entry : trade.entry = pos.entry
  index : trade.exitCandleIndex = i
  reason : trade.exitReason = .tpPartial
  price : trade.exitPrice = e.slip.apply level.price pos.side.exitSide .limit
  gross : trade.grossPnlUsdt = pos.side.grossPnl pos.entryPrice trade.exitPrice
    (quantizeProduct pos.quantity level.closeFraction)

theorem partialCloseTp_trade (h : (e.partialCloseTp pos level i).1 = some trade) :
    e.PartialTrade pos level i trade := by
  unfold partialCloseTp at h
  dsimp only at h
  split at h
  · cases h
  · rename_i hquantity
    cases h
    exact ⟨lt_of_not_ge hquantity, rfl, rfl, rfl, rfl, rfl⟩

/-- A trade is left by a level on the way, or by the end of a position. -/
theorem tradeOf_cases {x : BacktestEvent} (h : e.tradeOf x = some trade) :
    (∃ pos level, x.change = .reduced pos level ∧
      (e.partialCloseTp pos level x.index).1 = some trade) ∨
    ∃ pos price reason orderType, x.change = .closed pos price reason orderType ∧
      trade = e.closePosition pos price x.index reason orderType := by
  unfold tradeOf at h
  cases hx : x.change with
  | opened signal pos => simp [hx] at h
  | funded pos => simp [hx] at h
  | reduced pos level =>
    simp only [hx] at h
    exact .inl ⟨pos, level, rfl, h⟩
  | closed pos price reason orderType =>
    simp only [hx] at h
    exact .inr ⟨pos, price, reason, orderType, rfl, (Option.some.inj h).symm⟩

/-- An event that leaves no trade leaves a position. -/
theorem after_of_no_trade {x : BacktestEvent} (h : e.tradeOf x = none) :
    ∃ pos, e.after x = some pos := by
  unfold tradeOf at h
  unfold after
  cases hx : x.change with
  | opened signal pos => exact ⟨_, rfl⟩
  | reduced pos level => exact ⟨_, rfl⟩
  | funded pos => exact ⟨_, rfl⟩
  | closed pos price reason orderType => simp [hx] at h

theorem singleTarget_checks (pos : OpenPosition) : e.checkSingleTp pos candle i =
    ((singleTarget pos candle).bind fun change => e.tradeOf ⟨i, candle, change⟩,
      (singleTarget pos candle).bind fun change => e.after ⟨i, candle, change⟩) := by
  unfold singleTarget checkSingleTp
  cases pos.takeProfit with
  | none => rfl
  | some price =>
    dsimp only
    split
    · rfl
    · rfl

/-- What the range of a candle does to a position is what the simulation makes of it. -/
theorem exitOf_checks (pos : OpenPosition) : e.checkSlTp pos candle i =
    ((exitOf pos candle).bind fun change => e.tradeOf ⟨i, candle, change⟩,
      (exitOf pos candle).bind fun change => e.after ⟨i, candle, change⟩) := by
  unfold exitOf checkSlTp
  by_cases hstop : stopHit pos.side pos.stopLoss candle
  · simp only [if_pos hstop]
    rfl
  · simp only [if_neg hstop]
    cases pos.takeProfitLevels with
    | nil => exact singleTarget_checks pos
    | cons level later =>
      by_cases hhit : targetHit pos.side level.price candle
      · simp only [if_pos hhit]
        cases later with
        | nil => rfl
        | cons next later => rfl
      · simp only [if_neg hhit]
        exact singleTarget_checks pos

theorem singleTarget_allowed (h : singleTarget pos candle = some change)
    (hstop : ¬stopHit pos.side pos.stopLoss candle) :
    change.before = some pos ∧ change.isEntry = false ∧ e.Allowed ⟨i, candle, change⟩ := by
  unfold singleTarget at h
  split at h
  · cases h
  · rename_i hp
    split at h
    · rename_i hhit
      cases h
      exact ⟨rfl, rfl, .inr hp, hstop, hhit, rfl⟩
    · cases h

theorem exitOf_allowed (h : exitOf pos candle = some change) :
    change.before = some pos ∧ change.isEntry = false ∧ e.Allowed ⟨i, candle, change⟩ := by
  unfold exitOf at h
  split at h
  · rename_i hstop
    cases h
    exact ⟨rfl, rfl, hstop, rfl, rfl⟩
  rename_i hstop
  split at h
  · rename_i level later hlevels
    split at h
    · rename_i hhit
      cases later with
      | nil =>
        cases h
        exact ⟨rfl, rfl, .inl ⟨level, hlevels, rfl⟩, hstop, hhit, rfl⟩
      | cons next later =>
        cases h
        exact ⟨rfl, rfl, ⟨next, later, hlevels⟩, hstop, hhit⟩
    · exact singleTarget_allowed h hstop
  · exact singleTarget_allowed h hstop

theorem exitEvents_records (e : BacktestingEngine) (i : ℕ) (candle : CandleRow)
    (s : BacktestState ρ) :
    e.Records (exitEvents i candle s) s (e.checkExits i candle s) := by
  unfold exitEvents checkExits
  cases hp : s.openPos with
  | none => exact .of_same rfl rfl
  | some pos =>
    dsimp only
    rw [exitOf_checks]
    cases hx : exitOf pos candle with
    | none => exact .of_same rfl rfl
    | some change =>
      obtain ⟨hbefore, -, hallowed⟩ := exitOf_allowed (e := e) (i := i) hx
      have hopen : change.before = s.openPos := hbefore.trans hp.symm
      dsimp only [Option.bind_some, Option.toList_some, List.map_cons, List.map_nil]
      cases ht : e.tradeOf ⟨i, candle, change⟩ with
      | some trade =>
        dsimp only
        exact .one ⟨hopen, rfl, hallowed⟩ (by rw [ht]; rfl)
      | none =>
        obtain ⟨pos', ha⟩ := after_of_no_trade ht
        rw [ha]
        exact .one ⟨hopen, ha, hallowed⟩ (by rw [ht]; simp)

theorem askProvider_records (provider : SignalProvider ρ) (s : BacktestState ρ) :
    e.Records [] s (e.askProvider i provider s).2 := by
  have hschedule : ∀ signal (t : BacktestState ρ), (e.schedule i signal t).openPos = t.openPos := by
    intro signal t
    rcases e.schedule_cases i signal t with h | ⟨-, h⟩ | ⟨-, -, -, h⟩
    all_goals rw [h]
  unfold askProvider
  dsimp only
  split
  · exact .of_same rfl rfl
  · exact .of_same (hschedule _ _) (e.schedule_closedTrades i _ _)

theorem turn_records (provider : SignalProvider ρ) (s : BacktestState ρ) :
    e.Records (e.turnEvents i candle s) s (e.turn i candle provider s).2 := by
  unfold turnEvents turn
  rcases hf : e.fillPendingEntry i candle s with ⟨err | u, t⟩
  · rcases e.fillPendingEntry_cases i candle s with ⟨err', h⟩ | ⟨h, -⟩ | ⟨_, _, _, -, -, -, -, h⟩
    all_goals
      rw [h] at hf
      cases hf
    exact .of_same rfl rfl
  · have hfilled := fillEvents_records hf
    have hclosed := e.closeEvents_records i candle t
    have hexit := e.exitEvents_records i candle
      (e.closeRequested i candle t)
    have hfunded := e.fundingEvents_records i candle
      (e.checkExits i candle (e.closeRequested i candle t))
    have hbefore := hfilled.append (hclosed.append (hexit.append hfunded))
    have hask := askProvider_records (e := e) (i := i) provider
      (accrueFunding candle (e.checkExits i candle (e.closeRequested i candle t)))
    dsimp only
    rcases ha : e.askProvider i provider
      (accrueFunding candle (e.checkExits i candle (e.closeRequested i candle t)))
      with ⟨err | u, t'⟩
    all_goals
      rw [ha] at hask
      have hall := hbefore.append hask
      rw [List.append_nil] at hall
    · exact hall
    · exact ⟨hall.happened, hall.trades⟩

/-- The events of the first candles lead to where these candles lead. -/
theorem firstEvents_records (e : BacktestingEngine) (candles : List CandleRow)
    (provider : SignalProvider ρ) (start : ρ) (k : ℕ) (hk : k ≤ candles.length) :
    e.Records (e.firstEvents candles provider start k) { provider := start }
      (e.firstTurns candles k provider start).2 := by
  induction k with
  | zero => exact .of_same rfl rfl
  | succ k ih =>
    have ih := ih (Nat.le_of_succ_le hk)
    have hc : candles[k]? = some candles[k] := List.getElem?_eq_getElem hk
    rw [firstEvents, hc, e.firstTurns_succ _ candles k hc]
    rcases hfirst : e.firstTurns candles k provider start with ⟨err | u, s⟩
    all_goals rw [hfirst] at ih
    · rw [List.append_nil]
      exact ih
    · exact ih.append (turn_records provider s)

theorem endEvents_run (hlast : candles.getLast? = some last)
    (hturns : e.firstTurns candles candles.length provider start = (.ok (), s)) :
    Run e.Happens s.openPos (e.endEvents candles provider start) none ∧
    (e.endEvents candles provider start).filterMap e.tradeOf =
      s.openPos.toList.map
        (e.closePosition · last.close (candles.length - 1) .endOfData .limit) := by
  unfold endEvents
  rw [hlast, hturns]
  dsimp only
  cases hp : s.openPos with
  | none => exact ⟨.nil _, rfl⟩
  | some pos =>
    refine ⟨.cons ⟨rfl, rfl, ?_⟩ (.nil _), rfl⟩
    exact ⟨rfl, rfl⟩

/-- The events of a backtest are what happens to its positions, from the first candle to
wherever it ends. -/
theorem events_run (candles : List CandleRow) (provider : SignalProvider ρ) (start : ρ) :
    ∃ o, Run e.Happens none (e.events candles provider start) o := by
  have hfirst := e.firstEvents_records candles provider start candles.length le_rfl
  rw [events]
  rcases hlast : candles.getLast? with _ | last
  · rw [endEvents, hlast, List.append_nil]
    exact ⟨_, hfirst.happened⟩
  rcases hturns : e.firstTurns candles candles.length provider start with ⟨err | u, s⟩
  · rw [endEvents, hlast, hturns, List.append_nil]
    exact ⟨_, hfirst.happened⟩
  · rw [hturns] at hfirst
    exact ⟨none, hfirst.happened.append (endEvents_run hlast hturns).1⟩

/-- A backtest that returns has closed its last position, and returns the trades of its events. -/
theorem events_trades (h : (e.run candles provider start).1 = .ok trades) :
    trades = (e.events candles provider start).filterMap e.tradeOf ∧
      Run e.Happens none (e.events candles provider start) none := by
  have hfirst := e.firstEvents_records candles provider start candles.length le_rfl
  have htake : e.firstTurns candles candles.length provider start =
      loop (fun i candle => e.turn i candle provider) 0 candles { provider := start } := by
    rw [firstTurns, List.take_length]
  unfold run at h
  rcases hlast : candles.getLast? with _ | last
  · rw [List.getLast?_eq_none_iff] at hlast
    subst hlast
    cases h
    exact ⟨rfl, .nil _⟩
  rw [hlast, ← htake] at h
  rcases hturns : e.firstTurns candles candles.length provider start with ⟨err | u, s⟩
  · rw [hturns] at h
    cases h
  · rw [hturns] at h hfirst
    obtain ⟨hend, htrades⟩ := endEvents_run hlast hturns
    rw [events, List.filterMap_append, htrades, ← List.nil_append (List.filterMap _ _),
      ← hfirst.trades]
    refine ⟨?_, hfirst.happened.append hend⟩
    dsimp only at h
    cases hp : s.openPos with
    | none =>
      rw [hp] at h
      cases h
      rw [Option.toList_none, List.map_nil, List.append_nil]
    | some pos =>
      rw [hp] at h
      cases h
      rfl

/-- An event of the candles belongs to the turn that starts in a state of the backtest. -/
theorem mem_firstEvents (candles : List CandleRow) (k : ℕ)
    (hx : x ∈ e.firstEvents candles provider start k) :
    ∃ j candle s, j < k ∧ e.Reaches candles provider start j candle s ∧
      x ∈ e.turnEvents j candle s := by
  induction k with
  | zero => cases hx
  | succ k ih =>
    rw [firstEvents] at hx
    rcases List.mem_append.mp hx with hx | hx
    · obtain ⟨j, candle, s, hj, hr⟩ := ih hx
      exact ⟨j, candle, s, by omega, hr⟩
    · split at hx
      · rename_i candle s hc hfirst
        exact ⟨k, candle, s, by omega, ⟨hc, hfirst⟩, hx⟩
      · cases hx

/-- An entry is the only event of the fill, and happens at the candle. -/
theorem fillEvents_cases (e : BacktestingEngine) (i : ℕ) (candle : CandleRow)
    (s : BacktestState ρ) : e.fillEvents i candle s = [] ∨
    ∃ signal fillIdx pos, s.pendingEntry = some (signal, fillIdx) ∧ fillIdx ≤ i ∧
      s.openPos = none ∧ e.fillEvents i candle s = [⟨i, candle, .opened signal pos⟩] := by
  unfold fillEvents
  split
  · exact .inl rfl
  · rename_i signal fillIdx hp
    split
    · rename_i hdue
      split
      · rename_i pos _
        exact .inr ⟨signal, fillIdx, pos, hp, hdue.1, Option.isNone_iff_eq_none.mp hdue.2, rfl⟩
      · exact .inl rfl
    · exact .inl rfl

/-- The events of a candle that are not entries. -/
def ExitAt (i : ℕ) (candle : CandleRow) (x : BacktestEvent) : Prop :=
  x.index = i ∧ x.candle = candle ∧ x.change.isEntry = false

theorem closeEvents_at {s : BacktestState ρ} (hx : x ∈ closeEvents i candle s) :
    ExitAt i candle x := by
  unfold closeEvents at hx
  split at hx
  · split at hx
    · rw [List.mem_singleton.mp hx]
      exact ⟨rfl, rfl, rfl⟩
    · cases hx
  · cases hx

theorem exitEvents_at {s : BacktestState ρ} (hx : x ∈ exitEvents i candle s) :
    ExitAt i candle x := by
  unfold exitEvents at hx
  split at hx
  · cases hx
  · rename_i pos _
    obtain ⟨change, hm, rfl⟩ := List.mem_map.mp hx
    have hexit : exitOf pos candle = some change := Option.mem_toList.mp hm
    exact ⟨rfl, rfl, (exitOf_allowed (e := {}) (i := i) hexit).2.1⟩

theorem fundingEvents_at {s : BacktestState ρ} (hx : x ∈ fundingEvents i candle s) :
    ExitAt i candle x := by
  unfold fundingEvents at hx
  split at hx
  · cases hx
  · split at hx
    · cases hx
    · rw [List.mem_singleton.mp hx]
      exact ⟨rfl, rfl, rfl⟩

/-- A turn is an entry, if one is due, and then the exits of its candle. -/
theorem turnEvents_split (e : BacktestingEngine) (i : ℕ) (candle : CandleRow)
    (s : BacktestState ρ) :
    ∃ exits, (e.turnEvents i candle s = exits ∨
      e.turnEvents i candle s = e.fillEvents i candle s ++ exits) ∧
      ∀ x ∈ exits, ExitAt i candle x := by
  unfold turnEvents
  split
  · exact ⟨[], .inl rfl, List.forall_mem_nil _⟩
  · refine ⟨_, .inr rfl, ?_⟩
    intro x hx
    rcases List.mem_append.mp hx with hx | hx
    · exact closeEvents_at hx
    rcases List.mem_append.mp hx with hx | hx
    · exact exitEvents_at hx
    · exact fundingEvents_at hx

theorem turnEvents_at (hx : x ∈ e.turnEvents i candle s) : x.index = i ∧ x.candle = candle := by
  obtain ⟨exits, heq, hexits⟩ := e.turnEvents_split i candle s
  have hcases : x ∈ e.fillEvents i candle s ∨ x ∈ exits := by
    rcases heq with heq | heq
    · exact .inr (heq ▸ hx)
    · rw [heq] at hx
      exact List.mem_append.mp hx
  rcases hcases with hx | hx
  · rcases e.fillEvents_cases i candle s with h | ⟨_, _, _, -, -, -, h⟩
    · rw [h] at hx
      cases hx
    · rw [h] at hx
      rw [List.mem_singleton.mp hx]
      exact ⟨rfl, rfl⟩
  · exact ⟨(hexits x hx).1, (hexits x hx).2.1⟩

theorem turnEvents_before (s : BacktestState ρ) :
    (e.turnEvents i candle s).Pairwise BacktestEvent.Before := by
  obtain ⟨exits, heq, hexits⟩ := e.turnEvents_split i candle s
  have hafter : ∀ x : BacktestEvent, x.index = i → ∀ y ∈ exits, x.Before y := by
    intro x hx y hy
    obtain ⟨hindex, -, hentry⟩ := hexits y hy
    exact ⟨by omega, fun h => by simp [hentry] at h⟩
  have hsame : exits.Pairwise BacktestEvent.Before :=
    List.pairwise_of_forall_mem_list fun x hx y hy => hafter x (hexits x hx).1 y hy
  rcases heq with heq | heq
  · rwa [heq]
  · rcases e.fillEvents_cases i candle s with h | ⟨_, _, _, -, -, -, h⟩
    all_goals rw [heq, h]
    · exact hsame
    · exact List.pairwise_cons.mpr ⟨hafter _ rfl, hsame⟩

theorem endEvents_at (hx : x ∈ e.endEvents candles provider start) :
    x.index = candles.length - 1 ∧ candles.getLast? = some x.candle ∧ x.change.isEntry = false := by
  unfold endEvents at hx
  split at hx
  · rename_i last _ hlast _
    obtain ⟨pos, -, rfl⟩ := List.mem_map.mp hx
    exact ⟨rfl, hlast, rfl⟩
  · cases hx

/-- An event happens at the candle that it is told with. -/
theorem events_candle (hx : x ∈ e.events candles provider start) :
    candles[x.index]? = some x.candle := by
  rcases List.mem_append.mp hx with hx | hx
  · obtain ⟨j, candle, s, -, ⟨hc, -⟩, hx⟩ := mem_firstEvents candles candles.length hx
    obtain ⟨rfl, rfl⟩ := turnEvents_at hx
    exact hc
  · obtain ⟨hindex, hlast, -⟩ := endEvents_at hx
    rw [hindex, ← hlast, List.getLast?_eq_getElem?]

theorem firstEvents_before (candles : List CandleRow) (k : ℕ) :
    (e.firstEvents candles provider start k).Pairwise BacktestEvent.Before := by
  induction k with
  | zero => exact .nil
  | succ k ih =>
    rw [firstEvents]
    split
    · refine List.pairwise_append.mpr ⟨ih, turnEvents_before _, ?_⟩
      intro x hx y hy
      obtain ⟨j, candle, s, hj, -, hx⟩ := mem_firstEvents candles k hx
      have hxi := (turnEvents_at hx).1
      have hyi := (turnEvents_at hy).1
      exact ⟨by omega, fun _ => by omega⟩
    · rw [List.append_nil]
      exact ih

/-- The events are told in the order in which they happen. -/
theorem events_before (candles : List CandleRow) (provider : SignalProvider ρ) (start : ρ) :
    (e.events candles provider start).Pairwise BacktestEvent.Before := by
  refine List.pairwise_append.mpr ⟨firstEvents_before candles candles.length, ?_, ?_⟩
  · refine List.pairwise_of_forall_mem_list fun x hx y hy => ?_
    have hxe := endEvents_at hx
    have hye := endEvents_at hy
    exact ⟨by omega, fun h => by simp [hye.2.2] at h⟩
  · intro x hx y hy
    obtain ⟨j, candle, s, hj, -, hx⟩ := mem_firstEvents candles candles.length hx
    have hxi := (turnEvents_at hx).1
    have hye := endEvents_at hy
    exact ⟨by omega, fun h => by simp [hye.2.2] at h⟩

end BacktestingEngine

end FuturesBot
