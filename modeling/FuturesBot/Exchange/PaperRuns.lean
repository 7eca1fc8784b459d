import FuturesBot.Exchange.Paper
import FuturesBot.Lib.Runs

namespace FuturesBot
open Lib

/-- The calls that can change the simulation. -/
inductive PaperCall
  | placeOrder (req : OrderRequest)
  | cancelOrder (id : ClientOrderId)
  | setLeverage (symbol : Symbol) (leverage : ℤ)
  | setMarginType (symbol : Symbol) (marginType : MarginType)
  | applyFunding (symbol : Symbol) (fundingRate markPrice : Amount)

namespace PaperAdapter

def discard (outcome : Except PyError α × PaperAdapter) : Except PyError Unit × PaperAdapter :=
  (outcome.1.map (fun _ => ()), outcome.2)

/-- A call at a time of the clock, without the value that it returns. -/
def call (now : Timestamp) (c : PaperCall) : Call PaperAdapter Unit := fun a =>
  let a := { a with now := now }
  match c with
  | .placeOrder req => discard (placeOrder req a)
  | .cancelOrder id => discard (cancelOrder id a)
  | .setLeverage symbol leverage => setLeverage symbol leverage a
  | .setMarginType symbol marginType => setMarginType symbol marginType a
  | .applyFunding symbol fundingRate markPrice =>
    (.ok (), (applyFunding symbol fundingRate markPrice a).2)

/-- The simulation as it is built, whatever its balance, its fees and its slippage. -/
def Fresh (a : PaperAdapter) : Prop :=
  a.orders = .empty ∧ a.positions = .empty ∧ a.leverage = .empty ∧ a.fundingPaid = .empty

/-- The call may have raised. -/
def Called (a : PaperAdapter) (c : PaperCall) (a' : PaperAdapter) : Prop :=
  ∃ now r, call now c a = (r, a')

def Reachable (a : PaperAdapter) : Prop := ∃ a₀ calls, Fresh a₀ ∧ Run Called a₀ calls a

/-- The leverage of a symbol, where it has been chosen, is within the range of PAPER. -/
def LeverageInRange (a : PaperAdapter) : Prop :=
  ∀ s l, a.leverage.get s = some l → 1 ≤ l ∧ l ≤ maxLeveragePaper

theorem LeverageInRange.call {now : Timestamp} (h : LeverageInRange a)
    (hc : PaperAdapter.call now c a = (r, a')) : LeverageInRange a' := by
  cases c with
  | placeOrder req =>
    obtain ⟨orders, balance, positions, hm⟩ := placeOrder_moved req { a with now := now }
    have ha : a' = _ := (congrArg Prod.snd hc).symm.trans hm
    rw [ha]
    exact h
  | cancelOrder id =>
    have ha : (cancelOrder id { a with now := now }).2 = a' := congrArg Prod.snd hc
    unfold cancelOrder at ha
    repeat' split at ha
    all_goals
      rw [← ha]
      exact h
  | setLeverage symbol leverage =>
    have ha : (setLeverage symbol leverage { a with now := now }).2 = a' := congrArg Prod.snd hc
    unfold setLeverage at ha
    split at ha
    · rw [← ha]
      exact h
    · rename_i hr
      rw [← ha]
      intro s l hl
      rw [Dict.get_set] at hl
      split at hl
      · cases hl
        omega
      · exact h s l hl
  | setMarginType symbol marginType =>
    have ha : (setMarginType symbol marginType { a with now := now }).2 = a' :=
      congrArg Prod.snd hc
    unfold setMarginType at ha
    split at ha <;> rw [← ha] <;> exact h
  | applyFunding symbol rate mark =>
    have ha : (applyFunding symbol rate mark { a with now := now }).2 = a' := congrArg Prod.snd hc
    unfold applyFunding at ha
    split at ha <;> rw [← ha] <;> exact h

theorem Reachable.leverageInRange (h : Reachable a) : LeverageInRange a := by
  obtain ⟨a₀, calls, ⟨_, _, hl, _⟩, hr⟩ := h
  refine hr.invariant (I := LeverageInRange) ?_ ?_
  · intro s l he
    rw [hl] at he
    cases he
  · rintro a c a' hi ⟨now, r, hc⟩
    exact hi.call hc

end PaperAdapter

end FuturesBot
