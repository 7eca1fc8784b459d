import FuturesBot.Backtesting.Slippage

namespace FuturesBot
open Lib

/-- The amounts of a position that its trades have to share out. -/
inductive PositionCost
  | notional | margin | entryFee | entrySlippage | funding
  deriving DecidableEq

namespace PositionCost

def ofPosition (c : PositionCost) (pos : OpenPosition) : Amount :=
  match c with
  | .notional => pos.notionalUsdt
  | .margin => pos.marginUsdt
  | .entryFee => pos.entryFeeUsdt
  | .entrySlippage => pos.entrySlippageUsdt
  | .funding => pos.accruedFundingUsdt

def ofTrade (c : PositionCost) (trade : ClosedTrade) : Amount :=
  match c with
  | .notional => trade.notionalUsdt
  | .margin => trade.marginUsdt
  | .entryFee => trade.entryFeeUsdt
  | .entrySlippage => trade.entrySlippageUsdt
  | .funding => trade.fundingCostUsdt

/-- What an event adds while the position is held: only funding accrues. -/
def accrued (c : PositionCost) (x : BacktestEvent) : Amount :=
  match c, x.change with
  | .funding, .funded pos => BacktestingEngine.computeFunding pos x.candle
  | _, _ => 0

end PositionCost

instance {p : PositionCost → Prop} [DecidablePred p] : Decidable (∀ c, p c) :=
  decidable_of_iff
    (p .notional ∧ p .margin ∧ p .entryFee ∧ p .entrySlippage ∧ p .funding) <| by
      constructor
      · rintro ⟨hn, hm, hf, hs, hp⟩ c
        cases c <;> assumption
      · intro h
        exact ⟨h _, h _, h _, h _, h _⟩

/-- A level that closes something shares out the cost: the decimals that are nearest to the two
products, as the context gives them, add up to it. -/
def OpenPosition.SharesOut (pos : OpenPosition) (level : TakeProfitLevel) (c : PositionCost) :
    Prop :=
  0 < quantizeProduct pos.quantity level.closeFraction →
    ∃ part rest : Amount, part + rest = c.ofPosition pos ∧
      IsNearest quantPlaces (Decimal.roundContext (c.ofPosition pos * level.closeFraction)) part ∧
      IsNearest quantPlaces
        (Decimal.roundContext (c.ofPosition pos * Decimal.roundContext (1 - level.closeFraction)))
        rest

theorem OpenPosition.sharesOut_iff (pos : OpenPosition) (level : TakeProfitLevel)
    (c : PositionCost) : pos.SharesOut level c ↔
      (0 < quantizeProduct pos.quantity level.closeFraction →
        quantizeProduct (c.ofPosition pos) level.closeFraction +
          quantizeProduct (c.ofPosition pos) (Decimal.roundContext (1 - level.closeFraction)) =
            c.ofPosition pos) := by
  unfold SharesOut
  refine imp_congr_right fun _ => ?_
  constructor
  · intro h
    obtain ⟨part, rest, hsum, hpart, hrest⟩ := h
    rw [quantizeProduct, quantizeProduct, quantize, quantize, (quantizeWith_eq_iff _ _).mpr hpart,
      (quantizeWith_eq_iff _ _).mpr hrest, hsum]
  · intro h
    exact ⟨_, _, h, (quantizeWith_eq_iff _ _).mp rfl, (quantizeWith_eq_iff _ _).mp rfl⟩

/-- Where the context keeps both products whole, an odd amount must not be split into ties. -/
theorem OpenPosition.sharesOut_iff_of_whole {pos : OpenPosition}
    (hd : IsDecimal quantPlaces (c.ofPosition pos))
    (h : Decimal.roundContext (c.ofPosition pos * Decimal.roundContext (1 - level.closeFraction)) =
      c.ofPosition pos - Decimal.roundContext (c.ofPosition pos * level.closeFraction)) :
    pos.SharesOut level c ↔
      (0 < quantizeProduct pos.quantity level.closeFraction →
        ¬(IsOdd quantPlaces (c.ofPosition pos) ∧
          IsTie quantPlaces (Decimal.roundContext (c.ofPosition pos * level.closeFraction)))) := by
  rw [pos.sharesOut_iff]
  refine imp_congr_right fun _ => ?_
  rw [quantizeProduct, quantizeProduct, h]
  exact quantizeWith_split_iff hd _

instance (pos : OpenPosition) (level : TakeProfitLevel) (c : PositionCost) :
    Decidable (pos.SharesOut level c) :=
  decidable_of_iff _ (pos.sharesOut_iff level c).symm

/-- A level on the way shares out every cost of the position. -/
def PositionChange.SharesOut : PositionChange → Prop
  | .reduced pos level => ∀ c, pos.SharesOut level c
  | .opened _ _ | .funded _ | .closed _ _ _ _ => True

instance : (change : PositionChange) → Decidable change.SharesOut
  | .reduced pos level => inferInstanceAs (Decidable (∀ c, pos.SharesOut level c))
  | .opened _ _ | .funded _ | .closed _ _ _ _ => inferInstanceAs (Decidable True)

/-- Something that a position holds. It accrues while the position is open, and is taken by the
events that close it. -/
structure Holding where
  held : OpenPosition → Amount
  accrued : BacktestEvent → Amount
  taken : BacktestEvent → Amount

/-- What an event brings in: what a position is entered with, or what accrues to it. -/
def Holding.added (q : Holding) (x : BacktestEvent) : Amount :=
  if x.change.isEntry then q.held x.change.position else q.accrued x

namespace BacktestingEngine

variable (e : BacktestingEngine)

def costHolding (c : PositionCost) : Holding where
  held := c.ofPosition
  accrued := c.accrued
  taken x := ((e.tradeOf x).map c.ofTrade).getD 0

def quantityHolding : Holding where
  held pos := pos.quantity
  accrued _ := 0
  taken x := x.change.closedQuantity

/-- Nothing of the holding is made or lost in an event. -/
structure Keeps (q : Holding) (x : BacktestEvent) : Prop where
  entry : x.change.isEntry → q.accrued x = 0 ∧ q.taken x = 0
  kept : ∀ pos, x.change.before = some pos →
    q.held pos + q.accrued x = q.taken x + ((e.after x).map q.held).getD 0

variable {e} {candles : List CandleRow} {provider : SignalProvider ρ} {start : ρ}

/-- What is held of the entry at a candle. -/
def heldOf (q : Holding) (k : ℕ) : Option OpenPosition → Amount
  | none => 0
  | some pos => if pos.entryCandleIndex = k then q.held pos else 0

theorem Keeps.balance {x : BacktestEvent} (hq : e.Keeps q x) (hx : e.Happens o x o') (k : ℕ) :
    heldOf q k o + (if x.entry = k then q.added x else 0) =
      (if x.entry = k then q.taken x else 0) + heldOf q k o' := by
  have hkey : ∀ pos, e.after x = some pos → pos.entryCandleIndex = x.entry :=
    fun pos h => congrArg Prod.fst (after_entry h)
  rw [← hx.after]
  cases o with
  | none =>
    obtain ⟨signal, pos, hopened⟩ := opened_of_no_before hx.before
    have hentry : x.change.isEntry = true := by rw [hopened]; rfl
    have hafter : e.after x = some x.change.position := by
      unfold after
      rw [hopened]
      rfl
    rw [hafter, heldOf, heldOf, Holding.added, if_pos hentry, (hq.entry hentry).2, ite_self]
    rfl
  | some pos =>
    obtain ⟨hposition, hnot⟩ := position_of_before hx.before
    have hentry : pos.entryCandleIndex = x.entry := by rw [BacktestEvent.entry, hposition]
    have hkept := hq.kept pos hx.before
    by_cases hk : x.entry = k
    · rw [heldOf, if_pos (hentry.trans hk), if_pos hk, if_pos hk, Holding.added, hnot]
      cases ha : e.after x with
      | none =>
        rw [ha] at hkept
        exact hkept
      | some pos' =>
        rw [ha] at hkept
        rw [heldOf, if_pos ((hkey pos' ha).trans hk)]
        exact hkept
    · rw [heldOf, if_neg (hentry ▸ hk), if_neg hk, if_neg hk]
      cases ha : e.after x with
      | none => rfl
      | some pos' => rw [heldOf, if_neg ((hkey pos' ha) ▸ hk)]

/-- The entry of a candle is the only one there. -/
theorem sum_entries {l : List BacktestEvent} (f : BacktestEvent → Amount)
    (hb : l.Pairwise BacktestEvent.Before) (ha : ∀ x ∈ l, e.Allowed x) (hy : y ∈ l)
    (hentry : y.change.isEntry = true) :
    (l.map fun x => if x.entry = y.index ∧ x.change.isEntry then f x else 0).sum = f y := by
  obtain ⟨before, later, rfl⟩ := List.append_of_mem hy
  obtain ⟨-, hlater, hbefore⟩ := List.pairwise_append.mp hb
  have hat : ∀ x, e.Allowed x → x.change.isEntry = true → x.entry = x.index := by
    intro x hallowed hx
    cases hchange : x.change with
    | opened signal pos =>
      rw [← opened_entry hchange hallowed, BacktestEvent.entry, hchange]
      rfl
    | _ =>
      rw [hchange] at hx
      cases hx
  have hself : y.entry = y.index := hat y (ha y hy) hentry
  have hzero : ∀ l' : List BacktestEvent, (∀ x ∈ l', e.Allowed x) →
      (∀ x ∈ l', x.change.isEntry = true → x.index ≠ y.index) →
      (l'.map fun x => if x.entry = y.index ∧ x.change.isEntry then f x else 0).sum = 0 := by
    intro l' hallowed hne
    apply List.sum_eq_zero
    intro a hm
    obtain ⟨x, hx, rfl⟩ := List.mem_map.mp hm
    rw [if_neg]
    rintro ⟨hk, he⟩
    exact hne x hx he ((hat x (hallowed x hx) he).symm.trans hk)
  rw [List.map_append, List.sum_append, List.map_cons, List.sum_cons, if_pos ⟨hself, hentry⟩,
    hzero before, hzero later, zero_add, add_zero]
  · intro x hx
    exact ha x (by simp [hx])
  · intro x hx he heq
    have hlt := ((List.pairwise_cons.mp hlater).1 x hx).2 he
    omega
  · intro x hx
    exact ha x (by simp [hx])
  · intro x hx _ heq
    have hlt := (hbefore x hx y List.mem_cons_self).2 hentry
    omega

/-- What a position is entered with and what accrues to it is what its events take from it, and
what is still held of it. -/
theorem holding_conserved (q : Holding) (hr : Run e.Happens none l o)
    (hb : l.Pairwise BacktestEvent.Before) (hq : ∀ x ∈ l, e.Keeps q x) (hy : y ∈ l)
    (hopened : y.change = .opened signal pos) :
    q.held pos + ((l.filter (·.entry = y.index)).map q.accrued).sum =
      ((l.filter (·.entry = y.index)).map q.taken).sum + heldOf q y.index o := by
  have hallowed : ∀ x ∈ l, e.Allowed x := hr.forall_label fun _ _ _ h => h.allowed
  have hentry : y.change.isEntry = true := by rw [hopened]; rfl
  have hbalance := hr.balance (v := heldOf q y.index)
    (a := fun x => if x.entry = y.index then q.added x else 0)
    (b := fun x => if x.entry = y.index then q.taken x else 0)
    fun x hx o o' h => (hq x hx).balance h y.index
  have hadded : ∀ x ∈ l, (if x.entry = y.index then q.added x else 0) =
      (if x.entry = y.index ∧ x.change.isEntry then q.held x.change.position else 0) +
        if x.entry = y.index then q.accrued x else 0 := by
    intro x hx
    unfold Holding.added
    by_cases hk : x.entry = y.index
    · by_cases he : x.change.isEntry
      · simp [hk, he, ((hq x hx).entry he).1]
      · simp [hk, he]
    · simp [hk]
  have hsum := sum_entries (fun x => q.held x.change.position) hb hallowed hy hentry
  rw [List.map_congr_left hadded, List.sum_map_add, hsum, hopened] at hbalance
  rw [sum_map_filter, sum_map_filter]
  simpa only [heldOf, zero_add, PositionChange.position] using hbalance

theorem partialCloseTp_spent (h : quantizeProduct pos.quantity level.closeFraction ≤ 0) :
    e.partialCloseTp pos level i = (none, spendLevel pos) := if_pos h

theorem partialCloseTp_cost (h : 0 < quantizeProduct pos.quantity level.closeFraction) (i : ℕ)
    (c : PositionCost) : ∃ trade, (e.partialCloseTp pos level i).1 = some trade ∧
      c.ofTrade trade = quantizeProduct (c.ofPosition pos) level.closeFraction ∧
      c.ofPosition (e.partialCloseTp pos level i).2 =
        quantizeProduct (c.ofPosition pos) (Decimal.roundContext (1 - level.closeFraction)) := by
  unfold partialCloseTp
  dsimp only
  rw [if_neg (not_le.mpr h)]
  refine ⟨_, rfl, ?_⟩
  cases c <;> exact ⟨rfl, rfl⟩

theorem partialCloseTp_quantity {pos : OpenPosition} (h : pos.Rounded) (level : TakeProfitLevel)
    (i : ℕ) :
    (e.partialCloseTp pos level i).2.quantity =
      pos.quantity - max 0 (quantizeProduct pos.quantity level.closeFraction) := by
  by_cases hq : quantizeProduct pos.quantity level.closeFraction ≤ 0
  · rw [partialCloseTp_spent hq, max_eq_left hq, sub_zero]
    rfl
  · unfold partialCloseTp
    dsimp only
    rw [if_neg hq, max_eq_right (le_of_lt (lt_of_not_ge hq))]
    exact quantize_eq_self (h.quantity.sub quantizeProduct_isDecimal)

/-- The quantity of a position is never rounded away. -/
theorem quantity_kept {x : BacktestEvent} (h : x.change.position.Rounded) :
    e.Keeps quantityHolding x := by
  constructor
  · intro hentry
    cases hx : x.change with
    | opened signal pos => simp [quantityHolding, hx, PositionChange.closedQuantity]
    | _ =>
      rw [hx] at hentry
      cases hentry
  · intro pos hbefore
    simp only [quantityHolding, after]
    cases hx : x.change with
    | opened signal pos' =>
      rw [hx] at hbefore
      cases hbefore
    | reduced pos' level =>
      rw [hx] at hbefore h
      cases hbefore
      have hquantity := partialCloseTp_quantity (e := e) h level x.index
      simp only [PositionChange.position] at hquantity
      simp [PositionChange.closedQuantity, hquantity]
    | funded pos' =>
      rw [hx] at hbefore
      cases hbefore
      simp [PositionChange.closedQuantity]
    | closed pos' price reason orderType =>
      rw [hx] at hbefore
      cases hbefore
      simp [PositionChange.closedQuantity]

theorem partialCloseTp_shares_iff (pos : OpenPosition) (level : TakeProfitLevel) (i : ℕ)
    (c : PositionCost) :
    c.ofPosition pos = (((e.partialCloseTp pos level i).1).map c.ofTrade).getD 0 +
        c.ofPosition (e.partialCloseTp pos level i).2 ↔ pos.SharesOut level c := by
  rw [pos.sharesOut_iff]
  by_cases hq : 0 < quantizeProduct pos.quantity level.closeFraction
  · obtain ⟨trade, ht, htaken, hleft⟩ := partialCloseTp_cost (e := e) hq i c
    rw [ht, hleft, Option.map_some, Option.getD_some, htaken, eq_comm]
    exact ⟨fun h _ => h, fun h => h hq⟩
  · rw [partialCloseTp_spent (not_lt.mp hq)]
    refine iff_of_true ?_ fun hpos => absurd hpos hq
    cases c <;> simp [spendLevel, PositionCost.ofPosition]

/-- A cost is kept by an event just when the event is no level that leaves something over. -/
theorem cost_kept_iff {x : BacktestEvent} (h : x.change.position.Rounded) (c : PositionCost) :
    e.Keeps (e.costHolding c) x ↔
      ∀ pos level, x.change = .reduced pos level → pos.SharesOut level c := by
  constructor
  · intro hkeeps pos level hx
    have hkept := hkeeps.kept pos (by rw [hx]; rfl)
    rw [← partialCloseTp_shares_iff (e := e) pos level x.index c]
    have hno : c.accrued x = 0 := by cases c <;> simp [PositionCost.accrued, hx]
    simpa [costHolding, tradeOf, after, hx, hno] using hkept
  intro hshares
  constructor
  · intro hentry
    cases hx : x.change with
    | opened signal pos => cases c <;> simp [costHolding, PositionCost.accrued, tradeOf, hx]
    | _ =>
      rw [hx] at hentry
      cases hentry
  · intro pos hbefore
    cases hx : x.change with
    | opened signal pos' =>
      rw [hx] at hbefore
      cases hbefore
    | reduced pos' level =>
      rw [hx] at hbefore h
      cases hbefore
      have hkept :=
        (partialCloseTp_shares_iff (e := e) pos level x.index c).mpr (hshares _ _ hx)
      have hno : c.accrued x = 0 := by cases c <;> simp [PositionCost.accrued, hx]
      simpa [costHolding, tradeOf, after, hx, hno] using hkept
    | funded pos' =>
      rw [hx] at hbefore
      cases hbefore
      cases c <;> simp [costHolding, PositionCost.accrued, PositionCost.ofPosition, tradeOf,
        after, hx]
    | closed pos' price reason orderType =>
      rw [hx] at hbefore h
      cases hbefore
      have hfunding := quantize_eq_self h.accruedFunding
      cases c <;> simp [costHolding, PositionCost.accrued, PositionCost.ofPosition,
        PositionCost.ofTrade, tradeOf, after, hx, closePosition]
      exact hfunding.symm

/-- The trades of the entry at a candle are those of its events. -/
theorem sum_trades (l : List BacktestEvent) (k : ℕ) (f : ClosedTrade → Amount) :
    (((l.filterMap e.tradeOf).filter (·.entryCandleIndex = k)).map f).sum =
      ((l.filter (·.entry = k)).map fun x => ((e.tradeOf x).map f).getD 0).sum := by
  induction l with
  | nil => rfl
  | cons x l ih =>
    cases ht : e.tradeOf x with
    | none =>
      rw [List.filterMap_cons_none ht, ih]
      by_cases hk : x.entry = k
      · simp [hk, ht]
      · simp [hk]
    | some trade =>
      have hentry := (tradeOf_indices ht).1
      rw [List.filterMap_cons_some ht]
      by_cases hk : x.entry = k
      · simp only [List.filter_cons, hentry, hk, decide_true, if_true, List.map_cons,
          List.sum_cons, ih, ht, Option.map_some, Option.getD_some]
      · simpa [List.filter_cons, hentry, hk] using ih

/-- The events of a position close its quantity, up to what is still held of it. -/
theorem closed_quantity (hr : Run e.Happens none l o) (hb : l.Pairwise BacktestEvent.Before)
    (hy : y ∈ l) (hopened : y.change = .opened signal pos) :
    pos.quantity = ((l.filter (·.entry = y.index)).map (·.change.closedQuantity)).sum +
      heldOf quantityHolding y.index o := by
  have hkeeps : ∀ x ∈ l, e.Keeps quantityHolding x :=
    fun x hx => quantity_kept (events_rounded hr x hx)
  have hsum := holding_conserved quantityHolding hr hb hkeeps hy hopened
  have hnothing : ((l.filter (·.entry = y.index)).map quantityHolding.accrued).sum = 0 := by
    apply List.sum_eq_zero
    intro a ha
    obtain ⟨x, -, rfl⟩ := List.mem_map.mp ha
    rfl
  rw [hnothing, add_zero] at hsum
  exact hsum

/-- Where every level on the way shares out every cost, the trades of a position share out what
it was entered with, and the funding that it has accrued, and close its quantity. -/
theorem partial_closes_conserve (h : (e.run candles provider start).1 = .ok trades)
    (hshares : ∀ x ∈ e.events candles provider start, x.change.SharesOut)
    (hy : y ∈ e.events candles provider start) (hopened : y.change = .opened signal pos) :
    (∀ c : PositionCost, ((trades.filter (·.entryCandleIndex = y.index)).map c.ofTrade).sum =
      c.ofPosition pos + (((e.events candles provider start).filter (·.entry = y.index)).map
        c.accrued).sum) ∧
    (((e.events candles provider start).filter (·.entry = y.index)).map
      (·.change.closedQuantity)).sum = pos.quantity := by
  obtain ⟨rfl, hr⟩ := events_trades h
  have hb := events_before (e := e) candles provider start
  have hquantity := closed_quantity hr hb hy hopened
  rw [heldOf, add_zero] at hquantity
  refine ⟨?_, hquantity.symm⟩
  intro c
  have hkeeps : ∀ x ∈ e.events candles provider start, e.Keeps (e.costHolding c) x := by
    intro x hx
    rw [cost_kept_iff (events_rounded hr x hx) c]
    intro pos level hchange
    have hx := hshares x hx
    rw [hchange] at hx
    exact hx c
  have hsum := holding_conserved (e.costHolding c) hr hb hkeeps hy hopened
  rw [heldOf, add_zero] at hsum
  rw [sum_trades]
  exact hsum.symm

end BacktestingEngine

/-- The engine that takes the levels of its signals. -/
def levelsEngine : BacktestingEngine := { standardEngine with partialCloseEnabled := true }

def levelAt (price closeFraction : Amount) (hp : 0 < price)
    (hf : 0 < closeFraction ∧ closeFraction ≤ 1) : TakeProfitLevel where
  price := price
  closeFraction := closeFraction
  price_pos := hp
  fraction_range := hf

theorem whole_fraction : 0 < (1 : Amount) ∧ (1 : Amount) ≤ 1 := by norm_num

theorem half_fraction : 0 < (1 / 2 : Amount) ∧ (1 / 2 : Amount) ≤ 1 := by norm_num

/-- A long that takes a part of its profit at 105, and the rest at 110. -/
def levelsSignal (margin closeFraction : Amount) (hm : 0 < margin)
    (hf : 0 < closeFraction ∧ closeFraction ≤ 1) : TradeSignal where
  action := .long
  stopLoss := some 80
  takeProfitLevels :=
    [levelAt 105 closeFraction (by norm_num) hf, levelAt 110 1 (by norm_num) whole_fraction]
  marginUsdt := margin
  leverage_range := longSignal.leverage_range
  margin_pos := hm
  exits := by
    intro _
    refine ⟨rfl, by simp, ?_⟩
    intro level hl
    cases hl
    rfl

/-- A provider of this signal at the first candle. -/
def askAtStart (signal : TradeSignal) : SignalProvider Unit := fun i _ _ =>
  (.ok (if i = 0 then signal else waitSignal), ())

/-- Halves of a margin of 10 USDT. -/
def evenHalves : SignalProvider Unit :=
  askAtStart (levelsSignal 10 (1 / 2) longSignal.margin_pos half_fraction)

/-- The entry fee of this margin is an odd number of units. -/
def oddHalves : SignalProvider Unit :=
  askAtStart (levelsSignal (10 + 2 / 10 ^ 5) (1 / 2) (by norm_num) half_fraction)

/-- The two halves of the even margin share out everything. -/
theorem even_halves_conserve : ∃ trades y pos,
    (levelsEngine.run rallyTwice evenHalves ()).1 = .ok trades ∧ trades.length = 2 ∧
    y ∈ levelsEngine.events rallyTwice evenHalves () ∧
    ∀ c : PositionCost, ((trades.filter (·.entryCandleIndex = y.index)).map c.ofTrade).sum =
      c.ofPosition pos + (((levelsEngine.events rallyTwice evenHalves ()).filter
        (·.entry = y.index)).map c.accrued).sum := by
  have hlen : (levelsEngine.run rallyTwice evenHalves ()).1.toOption.map List.length = some 2 := by
    decide +kernel
  have hshares : (levelsEngine.events rallyTwice evenHalves ()).all (·.change.SharesOut) =
      true := by
    decide +kernel
  have hentry : (levelsEngine.events rallyTwice evenHalves ()).any (·.change.before.isNone) =
      true := by
    decide +kernel
  obtain ⟨y, hy, hbefore⟩ := List.any_eq_true.mp hentry
  obtain ⟨signal, pos, hopened⟩ :=
    BacktestingEngine.opened_of_no_before (Option.isNone_iff_eq_none.mp hbefore)
  obtain ⟨trades, hr, htwo⟩ := ok_of_map hlen
  exact ⟨trades, y, pos, hr, htwo, hy, (BacktestingEngine.partial_closes_conserve hr
    (fun x hx => of_decide_eq_true (List.all_eq_true.mp hshares x hx)) hy hopened).1⟩

/-- Two halves of an entry fee of 500001 units are 250000 units each. -/
theorem odd_fee_loses_a_unit :
    ¬∀ (e : BacktestingEngine) (candles : List CandleRow) (provider : SignalProvider Unit)
      (start : Unit) (trades : List ClosedTrade) (y : BacktestEvent) (signal : TradeSignal)
      (pos : OpenPosition), (e.run candles provider start).1 = .ok trades →
      y ∈ e.events candles provider start → y.change = .opened signal pos →
      (∀ c : PositionCost, ((trades.filter (·.entryCandleIndex = y.index)).map c.ofTrade).sum =
        c.ofPosition pos + (((e.events candles provider start).filter (·.entry = y.index)).map
          c.accrued).sum) ∧
      (((e.events candles provider start).filter (·.entry = y.index)).map
        (·.change.closedQuantity)).sum = pos.quantity := by
  intro h
  have hok : (levelsEngine.run rallyTwice oddHalves ()).1.toOption.isSome = true := by
    decide +kernel
  have he : (levelsEngine.events rallyTwice oddHalves ()).any (fun y =>
      y.change.before = none ∧
      (((((levelsEngine.events rallyTwice oddHalves ()).filterMap levelsEngine.tradeOf).filter
          (·.entryCandleIndex = y.index)).map PositionCost.entryFee.ofTrade).sum ≠
        PositionCost.entryFee.ofPosition y.change.position +
          (((levelsEngine.events rallyTwice oddHalves ()).filter (·.entry = y.index)).map
            PositionCost.entryFee.accrued).sum)) = true := by
    decide +kernel
  obtain ⟨y, hy, he⟩ := List.any_eq_true.mp he
  obtain ⟨hbefore, hne⟩ := of_decide_eq_true he
  obtain ⟨signal, pos, hopened⟩ := BacktestingEngine.opened_of_no_before hbefore
  obtain ⟨trades, hr⟩ := ok_of_isSome hok
  have hfees := (h _ _ _ _ trades y signal pos hr hy hopened).1 .entryFee
  rw [(BacktestingEngine.events_trades hr).1] at hfees
  rw [hopened] at hne
  exact hne hfees

end FuturesBot
