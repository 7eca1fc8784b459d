import FuturesBot.Trading.Turns

namespace FuturesBot
open Lib

namespace Session

def storedTrades (s : Session) : List TradeRow := s.working.trades ++ s.committed.trades

/-- Every trade that is stored afterwards was stored before, or is open. -/
def ClosesNoTrade (s s' : Session) : Prop :=
  s'.now = s.now ∧ ∀ t ∈ s'.storedTrades, t ∈ s.storedTrades ∨ t.status = .open

namespace ClosesNoTrade

theorem refl (s : Session) : s.ClosesNoTrade s := ⟨rfl, fun _ ht => .inl ht⟩

theorem trans (h : ClosesNoTrade s s') (h' : ClosesNoTrade s' s'') : ClosesNoTrade s s'' := by
  refine ⟨h'.1.trans h.1, ?_⟩
  intro t ht
  rcases h'.2 t ht with ht | ho
  · exact h.2 t ht
  · exact .inr ho

/-- Only the trades count. -/
theorem of_trades {s s' : Session} (hn : s'.now = s.now)
    (hw : s'.working.trades = s.working.trades) (hc : s'.committed.trades = s.committed.trades) :
    ClosesNoTrade s s' := by
  refine ⟨hn, ?_⟩
  intro t ht
  rw [storedTrades, hw, hc] at ht
  exact .inl ht

theorem commit (s : Session) : s.ClosesNoTrade s.commit := by
  refine ⟨rfl, ?_⟩
  intro t ht
  have hw : t ∈ s.working.trades := by simpa [storedTrades] using ht
  exact .inl (List.mem_append_left _ hw)

theorem rollback (s : Session) : s.ClosesNoTrade s.rollback := by
  refine ⟨rfl, ?_⟩
  intro t ht
  have hc : t ∈ s.committed.trades := by simpa [storedTrades, Session.rollback] using ht
  exact .inl (List.mem_append_right _ hc)

theorem rollbackTo (h : ClosesNoTrade saved s) : saved.ClosesNoTrade (s.rollbackTo saved) := by
  unfold Session.rollbackTo
  split
  · refine ⟨h.1, ?_⟩
    intro t ht
    rcases List.mem_append.mp ht with hw | hc
    · exact .inl (List.mem_append_left _ hw)
    · exact h.2 t (List.mem_append_right _ hc)
  · exact h

theorem addOrder (row : OrderRow) (s : Session) : s.ClosesNoTrade (s.addOrder row) :=
  .of_trades rfl rfl rfl

theorem addPosition (row : PositionRow) (s : Session) : s.ClosesNoTrade (s.addPosition row) :=
  .of_trades rfl rfl rfl

theorem linkTrade (order trade : RowId) (s : Session) : s.ClosesNoTrade (s.linkTrade order trade) :=
  .of_trades rfl rfl rfl

theorem addVolatilityAssessment (row : VolatilityAssessmentRow) (s : Session) :
    s.ClosesNoTrade (s.addVolatilityAssessment row) :=
  .of_trades rfl rfl rfl

theorem addTrade {r : TradeRow} (ho : r.status = .open) (s : Session) :
    s.ClosesNoTrade (s.addTrade r) := by
  refine ⟨rfl, ?_⟩
  intro t ht
  simp only [storedTrades, Session.addTrade, List.mem_append, List.mem_singleton] at ht ⊢
  rcases ht with (hw | rfl) | hc
  · exact .inl (.inl hw)
  · exact .inr ho
  · exact .inl (.inr hc)

end ClosesNoTrade

/-- A turn opens trades, and closes none. -/
theorem ClosesNoTrade.turnWrites : TurnWrites ClosesNoTrade where
  refl := .refl
  trans h h' := h.trans h'
  commit := .commit
  rollbackTo h := h.rollbackTo
  addOrder := .addOrder
  addTrade _ ho s := .addTrade ho s
  linkTrade := .linkTrade
  addPosition := .addPosition
  auditModelDecision d s := by
    unfold auditModelDecision
    split
    · exact .refl s
    · exact .of_trades rfl rfl rfl
  auditDecisionAggregation _ _ := .of_trades rfl rfl rfl
  auditRiskValidation _ _ := .of_trades rfl rfl rfl

/-- Without closed trades there is nothing to add up. -/
theorem getLossTotals_of_open {db : Database} (h : ∀ t ∈ db.trades, t.status = .open)
    (now : Timestamp) : db.getLossTotals now = (0, 0) := by
  have hloss : ∀ keep, db.lossOf keep = 0 := by
    intro keep
    have hnone : db.trades.filter (fun t => t.status = .closed && keep t) = [] := by
      apply List.filter_eq_nil_iff.mpr
      intro t ht
      simp [h t ht]
    simp [Database.lossOf, hnone]
  simp only [Database.getLossTotals, hloss]

end Session

end FuturesBot
