import FuturesBot.Exchange.Paper
import FuturesBot.Lib.Runs
import FuturesBot.Positions.Exits
import FuturesBot.Storage.Session

namespace FuturesBot
open Lib

/-- What the simulation has been sent: an entry, or a close with what it realised,
which is its PnL less its fee. -/
inductive Movement
  | entry (time : Timestamp) (request : OrderRequest)
  | close (time : Timestamp) (netPnl : Amount)

namespace Movement

def isClose : Movement → Bool
  | .entry _ _ => false
  | .close _ _ => true

/-- The result of a close that lost, at a time that passes. -/
def loss (keep : Timestamp → Bool) : Movement → Option Amount
  | .entry _ _ => none
  | .close time netPnl => if keep time ∧ netPnl < 0 then some netPnl else none

def ofOrder (request : OrderRequest) (before after : PaperAdapter) : Movement :=
  if request.isReduceOnly then .close before.now (after.balanceUsdt - before.balanceUsdt)
  else .entry before.now request

end Movement

def realisedLoss (keep : Timestamp → Bool) (book : List Movement) : Amount :=
  |(book.filterMap (Movement.loss keep)).sum|

/-- The net losses realised since the start of the UTC day, and since the start. -/
def realisedTotals (now : Timestamp) (book : List Movement) : Amount × Amount :=
  (realisedLoss (dayStart now ≤ ·) book, realisedLoss (fun _ => true) book)

/-- One of the two losses has reached its percentage of the initial balance. -/
def LimitReached (config : AppConfig) (now : Timestamp) (book : List Movement) : Prop :=
  config.risk.maxDailyLossPercent ≤
    (realisedTotals now book).1 / config.challenge.initialBalanceUsdt * 100 ∨
  config.risk.maxTotalLossPercent ≤
    (realisedTotals now book).2 / config.challenge.initialBalanceUsdt * 100

instance (config : AppConfig) (now : Timestamp) (book : List Movement) :
    Decidable (LimitReached config now book) :=
  inferInstanceAs (Decidable (_ ∨ _))

/-- A movement that the limits allow: no entry once one of them is reached. -/
def AllowedByLimits (config : AppConfig) (before : List Movement) : Movement → Prop
  | .entry time _ => ¬LimitReached config time before
  | .close _ _ => True

/-- No entry has been sent after a limit was reached. -/
def LimitsBind (config : AppConfig) (book : List Movement) : Prop :=
  EachAfter (AllowedByLimits config) book

/-- Nothing but closes is added, and no time passes. -/
def OnlyCloses (x x' : PaperAdapter × List Movement) : Prop :=
  x'.1.now = x.1.now ∧ ∃ closes, x'.2 = x.2 ++ closes ∧ ∀ m ∈ closes, m.isClose

namespace PaperAdapter

/-- The simulation, with the book of what it has been sent. -/
def booked : ExchangeAdapter (PaperAdapter × List Movement) :=
  { exchange.beside (List Movement) with
    placeOrder := fun request x =>
      let (r, a) := placeOrder request x.1
      (r, (a, x.2 ++ [.ofOrder request x.1 a])) }

theorem booked_placeOrder (request : OrderRequest) (x : PaperAdapter × List Movement) :
    (booked.placeOrder request x).2 =
      ((placeOrder request x.1).2, x.2 ++ [.ofOrder request x.1 (placeOrder request x.1).2]) := rfl

theorem placeOrder_now (request : OrderRequest) (a : PaperAdapter) :
    (placeOrder request a).2.now = a.now := by
  obtain ⟨orders, balance, positions, h⟩ := placeOrder_moved request a
  rw [h]

theorem booked_reads : ReadsLeave booked (fun x => x) where
  getPosition _ _ := rfl
  getOpenOrders _ _ := rfl
  getAccountState _ := rfl
  getFeeRates _ _ := rfl

/-- Nothing but orders changes more than the leverage. -/
theorem booked_untouched : Untouched booked (fun x => ({ x.1 with leverage := .empty }, x.2)) where
  getPosition _ _ := rfl
  getOpenOrders _ _ := rfl
  getAccountState _ := rfl
  getFeeRates _ _ := rfl
  setLeverage s l x := by
    simp only [booked, ExchangeAdapter.beside, exchange, setLeverage]
    split <;> rfl
  setMarginType s m x := by
    simp only [booked, ExchangeAdapter.beside, exchange, setMarginType]
    split <;> rfl

/-- Whatever the manager does to the simulation, it books nothing but closes. -/
theorem booked_exits : ExitsStayIn booked OnlyCloses where
  refl x := ⟨rfl, [], by simp⟩
  trans x y z := by
    rintro ⟨hn, closes, hb, hc⟩ ⟨hn', closes', hb', hc'⟩
    refine ⟨hn'.trans hn, closes ++ closes', by rw [hb', hb, List.append_assoc], ?_⟩
    intro m hm
    rcases List.mem_append.mp hm with hm | hm
    · exact hc m hm
    · exact hc' m hm
  getPosition s x := ⟨rfl, [], by simp [booked, ExchangeAdapter.beside, exchange]⟩
  reduceOnly request x _ hr := by
    rw [booked_placeOrder]
    refine ⟨placeOrder_now request x.1, _, rfl, ?_⟩
    simp [Movement.ofOrder, hr, Movement.isClose]

end PaperAdapter

theorem LimitsBind.closes (h : LimitsBind config x.2) (hx : OnlyCloses x x') :
    LimitsBind config x'.2 := by
  obtain ⟨_, closes, hb, hc⟩ := hx
  rw [hb]
  refine EachAfter.append h ?_
  intro m hm before
  have hm' := hc m hm
  cases m with
  | entry time request => cases hm'
  | close time netPnl => trivial

/-- An entry is one more movement, at the time of the exchange. -/
theorem LimitsBind.entry {x y : PaperAdapter × List Movement} (h : LimitsBind config x.2)
    (hv : (y.1.now, y.2) = (x.1.now, x.2)) (hr : request.isReduceOnly = false)
    (hn : ¬LimitReached config x.1.now x.2) :
    LimitsBind config (PaperAdapter.booked.placeOrder request y).2.2 := by
  obtain ⟨hnow, hbook⟩ := Prod.mk.inj hv
  rw [PaperAdapter.booked_placeOrder, hbook]
  refine EachAfter.snoc h ?_
  simpa [Movement.ofOrder, hr, AllowedByLimits, hnow] using hn

end FuturesBot
