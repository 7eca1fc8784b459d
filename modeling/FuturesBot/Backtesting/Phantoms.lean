import FuturesBot.Backtesting.Splits

namespace FuturesBot
open Lib

/-- What the level leaves of the quantity, before it is rounded to its decimals. -/
def OpenPosition.unclosed (pos : OpenPosition) (level : TakeProfitLevel) : Amount :=
  pos.quantity - Decimal.roundContext (pos.quantity * level.closeFraction)

/-- The level leaves more than half a unit of the last decimal, or half a unit of an odd number
of them. -/
def OpenPosition.Leaves (pos : OpenPosition) (level : TakeProfitLevel) : Prop :=
  1 / 2 < pos.unclosed level * 10 ^ quantPlaces ∨
    pos.unclosed level * 10 ^ quantPlaces = 1 / 2 ∧ IsOdd quantPlaces pos.quantity

/-- A level on the way leaves something to the levels after it. -/
def PositionChange.Leaves : PositionChange → Prop
  | .reduced pos level => pos.Leaves level
  | .opened _ _ | .funded _ | .closed _ _ _ _ => True

theorem quantizeProduct_lt_iff_leaves {pos : OpenPosition} (h : pos.Rounded)
    (level : TakeProfitLevel) :
    quantizeProduct pos.quantity level.closeFraction < pos.quantity ↔ pos.Leaves level :=
  quantizeWith_lt_iff h.quantity _

namespace BacktestingEngine

/-- Whatever is open in a backtest has a quantity, and its trades close what is left of it. -/
structure NoPhantoms (e : BacktestingEngine) (candles : List CandleRow)
    (provider : SignalProvider ρ) (start : ρ) : Prop where
  held : ∀ k ≤ candles.length, ∀ pos,
    (e.firstTurns candles k provider start).2.openPos = some pos → 0 < pos.quantity
  between : ∀ x ∈ e.events candles provider start, 0 < x.change.position.quantity ∧
    ∀ pos, e.after x = some pos → 0 < pos.quantity
  returned : ∀ trades, (e.run candles provider start).1 = .ok trades →
    trades = (e.events candles provider start).filterMap e.tradeOf
  closes : ∀ x ∈ e.events candles provider start, ∀ trade, e.tradeOf x = some trade →
    0 < x.change.closedQuantity
  stillOpen : ∀ before x later, e.events candles provider start = before ++ x :: later →
    ∀ trade, e.tradeOf x = some trade → ∃ y ∈ before, ∃ signal pos,
      y.change = .opened signal pos ∧ y.index = trade.entryCandleIndex ∧
      ((before.filter (·.entry = y.index)).map (·.change.closedQuantity)).sum < pos.quantity

variable {e : BacktestingEngine} {candles : List CandleRow} {provider : SignalProvider ρ}
  {start : ρ}

theorem partialCloseTp_leaves_iff (h : pos.Rounded) (hpos : 0 < pos.quantity)
    (level : TakeProfitLevel) (i : ℕ) :
    0 < (e.partialCloseTp pos level i).2.quantity ↔ pos.Leaves level := by
  rw [partialCloseTp_quantity h, sub_pos, max_lt_iff, quantizeProduct_lt_iff_leaves h]
  exact and_iff_right hpos

/-- Where every level leaves something, every position has a quantity. -/
theorem positions_positive (hr : Run e.Happens none l o) (hl : ∀ x ∈ l, x.change.Leaves) :
    (∀ x ∈ l, 0 < x.change.position.quantity) ∧ ∀ pos, o = some pos → 0 < pos.quantity := by
  have hrounded := events_rounded hr
  apply positions_have (P := fun pos => 0 < pos.quantity) hr
  · intro x _ signal pos hopened hallowed
    rw [Allowed, hopened] at hallowed
    exact (openPosition_ok hallowed).2.1
  · intro x hx pos pos' hbefore hpos hafter
    have hround := hrounded x hx
    rw [(position_of_before hbefore).1] at hround
    rcases after_cases hbefore hafter with ⟨level, hreduced, rfl⟩ | ⟨-, rfl⟩
    · have hleaves := hl x hx
      rw [hreduced] at hleaves
      exact (partialCloseTp_leaves_iff hround hpos level x.index).mpr hleaves
    · exact hpos

/-- A trade of a position that has a quantity closes some of it. -/
theorem closedQuantity_pos {x : BacktestEvent} (ht : e.tradeOf x = some trade)
    (hpos : 0 < x.change.position.quantity) : 0 < x.change.closedQuantity := by
  rcases tradeOf_cases ht with ⟨pos, level, hx, ht⟩ | ⟨pos, price, reason, orderType, hx, -⟩
  · rw [hx]
    exact lt_max_of_lt_right (partialCloseTp_trade ht).quantity
  · rw [hx] at hpos ⊢
    exact hpos

/-- The events of the first candles are events of the backtest. -/
theorem firstEvents_subset (candles : List CandleRow) (k : ℕ) (hk : k ≤ candles.length) :
    ∀ x ∈ e.firstEvents candles provider start k, x ∈ e.events candles provider start := by
  have hmono : ∀ m, k ≤ m → ∀ x ∈ e.firstEvents candles provider start k,
      x ∈ e.firstEvents candles provider start m := by
    intro m hm
    induction m, hm using Nat.le_induction with
    | base => exact fun _ hx => hx
    | succ m _ ih => exact fun x hx => List.mem_append_left _ (ih x hx)
  intro x hx
  exact List.mem_append_left _ (hmono candles.length hk x hx)

/-- An event happens to what the events before it have left. -/
theorem events_split (h : e.events candles provider start = before ++ x :: later) :
    ∃ o o', Run e.Happens none before o ∧ e.Happens o x o' := by
  obtain ⟨_, hr⟩ := events_run (e := e) candles provider start
  rw [h, List.append_cons] at hr
  obtain ⟨_, hr, -⟩ := hr.of_append
  obtain ⟨o, hr, hx⟩ := hr.of_snoc
  exact ⟨o, _, hr, hx⟩

/-- Before and after every event, what is open has a quantity. -/
theorem events_positive (hleaves : ∀ x ∈ e.events candles provider start, x.change.Leaves) :
    ∀ x ∈ e.events candles provider start, 0 < x.change.position.quantity ∧
      ∀ pos, e.after x = some pos → 0 < pos.quantity := by
  intro x hx
  obtain ⟨before, later, heq⟩ := List.append_of_mem hx
  obtain ⟨o, o', hr, hhappens⟩ := events_split heq
  have hsub : ∀ y ∈ before ++ [x], y.change.Leaves := by
    intro y hy
    apply hleaves y
    rw [heq, List.append_cons]
    exact List.mem_append_left _ hy
  obtain ⟨hpositions, hlast⟩ := positions_positive (hr.snoc hhappens) hsub
  refine ⟨hpositions x (List.mem_append_right _ (List.mem_singleton_self x)), ?_⟩
  intro pos hpos
  exact hlast pos (hhappens.after.symm.trans hpos)

/-- A trade is of a position that is open, and of which its events have left that much. -/
theorem trade_of_open (h : e.events candles provider start = before ++ x :: later)
    (ht : e.tradeOf x = some trade) : ∃ y ∈ before, ∃ signal pos,
      y.change = .opened signal pos ∧ y.index = trade.entryCandleIndex ∧
      pos.quantity = ((before.filter (·.entry = y.index)).map (·.change.closedQuantity)).sum +
        x.change.position.quantity := by
  obtain ⟨o, o', hr, hx⟩ := events_split h
  have hb := events_before (e := e) candles provider start
  rw [h] at hb
  have hb := (List.pairwise_append.mp hb).1
  cases hopen : o with
  | none =>
    obtain ⟨signal, pos, hopened⟩ := opened_of_no_before (hx.before.trans hopen)
    simp [tradeOf, hopened] at ht
  | some pos =>
    have hposition := (position_of_before (hx.before.trans hopen)).1
    obtain ⟨y, hy, hent⟩ := (lineage hr hb).held pos hopen
    have hindex := hent.index
    obtain ⟨signal, pos', hopened, -, -⟩ := hent
    refine ⟨y, hy, signal, pos', hopened, ?_, ?_⟩
    · rw [(tradeOf_indices ht).1, BacktestEvent.entry, hposition]
      exact hindex
    · have hquantity := closed_quantity hr hb hy hopened
      rw [hopen, heldOf, if_pos hindex.symm] at hquantity
      rw [hposition]
      exact hquantity

/-- A backtest has no phantoms just when every level on the way leaves something. -/
theorem no_phantoms_iff (e : BacktestingEngine) (candles : List CandleRow)
    (provider : SignalProvider ρ) (start : ρ) :
    e.NoPhantoms candles provider start ↔
      ∀ x ∈ e.events candles provider start, x.change.Leaves := by
  constructor
  · intro h x hx
    obtain ⟨o, hr⟩ := events_run (e := e) candles provider start
    have hround := events_rounded hr x hx
    obtain ⟨hpos, hafter⟩ := h.between x hx
    cases hreduced : x.change with
    | reduced pos level =>
      rw [hreduced] at hround hpos
      have hleft := hafter (e.partialCloseTp pos level x.index).2 (by rw [after, hreduced])
      exact (partialCloseTp_leaves_iff hround hpos level x.index).mp hleft
    | _ => trivial
  intro hleaves
  have hbetween := events_positive hleaves
  refine ⟨?_, hbetween, fun trades h => (events_trades h).1, ?_, ?_⟩
  · intro k hk
    have hr := (e.firstEvents_records candles provider start k hk).happened
    exact (positions_positive hr fun x hx => hleaves x (firstEvents_subset candles k hk x hx)).2
  · intro x hx trade ht
    exact closedQuantity_pos ht (hbetween x hx).1
  · intro before x later heq trade ht
    obtain ⟨y, hy, signal, pos, hopened, hindex, hquantity⟩ := trade_of_open heq ht
    have hx : x ∈ e.events candles provider start := by simp [heq]
    have hpos := (hbetween x hx).1
    exact ⟨y, hy, signal, pos, hopened, hindex, by linarith⟩

end BacktestingEngine

/-- A long whose first target closes everything, though a second one is to come. -/
def wholeFirst : SignalProvider Unit :=
  askAtStart (levelsSignal 10 1 longSignal.margin_pos whole_fraction)

/-- The second target closes a position of which nothing is left. -/
theorem whole_first_leaves_phantom :
    ¬∀ (e : BacktestingEngine) (candles : List CandleRow) (provider : SignalProvider Unit)
      (start : Unit), e.NoPhantoms candles provider start := by
  intro h
  have he : (levelsEngine.events rallyTwice wholeFirst ()).any (fun x =>
      (levelsEngine.tradeOf x).isSome ∧ x.change.closedQuantity = 0) = true := by
    decide +kernel
  obtain ⟨x, hx, he⟩ := List.any_eq_true.mp he
  obtain ⟨ht, hzero⟩ := of_decide_eq_true he
  obtain ⟨trade, ht⟩ := Option.isSome_iff_exists.mp ht
  have hcloses := (h levelsEngine rallyTwice wholeFirst ()).closes x hx trade ht
  exact hcloses.ne' hzero

end FuturesBot
