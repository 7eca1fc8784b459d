import FuturesBot.Backtesting.Metrics
import FuturesBot.Lib.Drawdown
import FuturesBot.Replay.Metrics

namespace FuturesBot
open Lib

/-- The balances after each of the trades. -/
def balancesAfter (balance : Amount) : List ClosedTrade → List Amount
  | [] => []
  | trade :: trades =>
    (balance + trade.netPnlUsdt) :: balancesAfter (balance + trade.netPnlUsdt) trades

/-- The initial balance is the first point of the curve. -/
def balanceCurve (initialBalance : Amount) (trades : List ClosedTrade) : List Amount :=
  initialBalance :: balancesAfter initialBalance trades

/-- The loop of a backtest passes over its balances. -/
theorem drawdownOver_eq (hm : 0 ≤ maxDd) (trades : List ClosedTrade) :
    drawdownOver equity peak maxDd trades =
      Lib.drawdown peak maxDd (balancesAfter equity trades) := by
  induction trades generalizing equity peak maxDd with
  | nil => rfl
  | cons trade trades ih =>
    unfold drawdownOver
    rw [balancesAfter, Lib.drawdown]
    dsimp only
    rw [← max_def_lt]
    by_cases hpeak : 0 < max peak (equity + trade.netPnlUsdt)
    · rw [if_pos hpeak, if_pos hpeak, ← max_def_lt]
      exact ih (le_max_of_le_left hm)
    · rw [if_neg hpeak, if_neg hpeak, if_neg (not_lt.mpr hm)]
      exact ih hm

/-- And that of a replay over its scores, though it measures nothing at a new peak. -/
theorem drawdownFrom_eq (hm : 0 ≤ maxDd) (scores : List Amount) :
    drawdownFrom peak maxDd scores = Lib.drawdown peak maxDd scores := by
  induction scores generalizing peak maxDd with
  | nil => rfl
  | cons score scores ih =>
    unfold drawdownFrom
    rw [Lib.drawdown]
    by_cases hhigher : peak < score
    · rw [if_pos hhigher, max_eq_right hhigher.le, sub_self, zero_div, max_eq_left hm, ite_self]
      exact ih hm
    · rw [if_neg hhigher, max_eq_left (not_lt.mp hhigher)]
      by_cases hpeak : 0 < peak
      · rw [if_pos hpeak, if_pos hpeak]
        exact ih (le_max_of_le_left hm)
      · rw [if_neg hpeak, if_neg hpeak]
        exact ih hm

theorem largestFall_drawdown (first : Amount) (rest : List Amount) :
    LargestFall (first :: rest) (Lib.drawdown first 0 rest) :=
  (measured_drawdown (measured_singleton first) (by simp) rest).largestFall

/-- Both loops find the largest fall from the highest point so far. -/
theorem drawdowns_largest :
    (∀ trades initialBalance, trades ≠ [] → ∃ dd, maxDrawdown trades initialBalance = some dd ∧
      LargestFall (balanceCurve initialBalance trades) dd) ∧
    ∀ scores : List (Option Amount), scores.filterMap id ≠ [] →
      LargestFall (scores.filterMap id) (computeMaxDrawdown scores) := by
  constructor
  · intro trades initialBalance hne
    refine ⟨_, if_neg (by simpa using hne), ?_⟩
    rw [drawdownOver_eq le_rfl]
    exact largestFall_drawdown _ _
  · intro scores hne
    unfold computeMaxDrawdown
    cases hscores : scores.filterMap id with
    | nil => exact absurd hscores hne
    | cons first rest =>
      dsimp only
      rw [drawdownFrom_eq le_rfl]
      exact largestFall_drawdown first rest

/-- A long over a price that doubles. -/
def doubledLong : ClosedTrade where
  side := .long
  entryCandleIndex := 0
  exitCandleIndex := 1
  entryPrice := 100
  exitPrice := 200
  exitReason := .endOfData
  leverage := 10
  marginUsdt := 10
  notionalUsdt := 100
  grossPnlUsdt := 100
  entryFeeUsdt := 0
  exitFeeUsdt := 0
  entrySlippageUsdt := 0
  exitSlippageUsdt := 0
  fundingCostUsdt := 0
  netPnlUsdt := 100
  holdCandles := 1

/-- And a short over one that grows to four times itself. -/
def overdrawingShort : ClosedTrade :=
  { doubledLong with
    side := .short, entryCandleIndex := 1, exitCandleIndex := 2, exitPrice := 400,
    grossPnlUsdt := -300, netPnlUsdt := -300 }

theorem overdrawn_largest : ∃ dd, maxDrawdown [doubledLong, overdrawingShort] 100 = some dd ∧
    LargestFall (balanceCurve 100 [doubledLong, overdrawingShort]) dd :=
  drawdowns_largest.1 _ _ (List.cons_ne_nil _ _)

/-- From 200 to -100 a balance falls by one and a half times its peak, and from the 100 that it
began with by twice that. -/
theorem overdrawn_from_start :
    ¬∀ trades initialBalance, trades ≠ [] → 0 < initialBalance →
      ∃ dd, maxDrawdown trades initialBalance = some dd ∧
        IsMaximum (falls (balanceCurve initialBalance trades)) dd ∧
        (dd = 0 ↔ ∀ i j peak point,
          Fall (balanceCurve initialBalance trades) i j peak point → peak ≤ point) := by
  intro h
  obtain ⟨dd, hdd, hmax, -⟩ := h [doubledLong, overdrawingShort] 100 (List.cons_ne_nil _ _)
    (by norm_num)
  have hloop : maxDrawdown [doubledLong, overdrawingShort] 100 = some (3 / 2) := by
    decide +kernel
  have hcurve : balanceCurve 100 [doubledLong, overdrawingShort] = [100, 200, -100] := by
    decide +kernel
  cases hdd.symm.trans hloop
  rw [hcurve] at hmax
  have htwice : (2 : Amount) ∈ falls [100, 200, -100] :=
    ⟨0, 2, 100, -100, ⟨by decide, rfl, by simp, by norm_num⟩, by norm_num⟩
  rcases hmax with hgreatest | ⟨hnone, -⟩
  · have hle := hgreatest.2 htwice
    norm_num at hle
  · rw [hnone] at htwice
    exact htwice

end FuturesBot
