import FuturesBot.Core.Config

namespace FuturesBot

inductive DecisionType
  | long | short | noOperar
  deriving DecidableEq, Repr

inductive EntryType
  | market | limit | noEntry
  deriving DecidableEq, Repr

structure PositionManagementPlan where
  useTrailingStop : Bool
  moveToBreakEven : Bool
  partialClosePlan : String
  maxTimeInTradeMinutes : ℕ

structure ModelDecisionFields where
  decisionId : ClientOrderId
  environment : Environment
  decision : DecisionType
  symbol : Symbol
  marginType : MarginType := .isolated
  entryType : EntryType
  entryPrice : Amount
  stopLoss : Amount
  takeProfit : Amount
  leverage : ℤ
  marginUsdt : Amount
  netRiskReward : Amount
  liquidationDistancePercentEstimated : Amount
  positionManagementPlan : PositionManagementPlan
  execute : Bool

/-- The caps of the schema itself, apart from those of the configuration. -/
def leverageCap : Environment → ℤ
  | .paper => 10
  | .testnet | .live => 5

namespace ModelDecisionFields

def FieldsInRange (f : ModelDecisionFields) : Prop :=
  0 ≤ f.entryPrice ∧ 0 ≤ f.stopLoss ∧ 0 ≤ f.takeProfit ∧ (1 ≤ f.leverage ∧ f.leverage ≤ 10) ∧
  (0 ≤ f.marginUsdt ∧ f.marginUsdt ≤ 10) ∧ 0 ≤ f.netRiskReward ∧
  0 ≤ f.liquidationDistancePercentEstimated ∧ f.symbol ∈ allowedSymbols

/-- The stop below the entry and the target above it, mirrored for a short. -/
def SlTpCoherent (f : ModelDecisionFields) : Prop :=
  match f.decision with
  | .long => f.stopLoss < f.entryPrice ∧ f.entryPrice < f.takeProfit
  | .short => f.entryPrice < f.stopLoss ∧ f.takeProfit < f.entryPrice
  | .noOperar => True

instance (f : ModelDecisionFields) : Decidable f.SlTpCoherent := by
  unfold SlTpCoherent
  split <;> infer_instance

/-- The model validators, in the source's order. -/
def Coherent (f : ModelDecisionFields) : Prop :=
  ¬(f.decision = .noOperar ∧ f.execute) ∧
  (f.execute ∧ f.decision ≠ .noOperar → 0 < f.stopLoss ∧ 0 < f.takeProfit) ∧
  (f.execute ∧ f.decision ≠ .noOperar → 0 < f.marginUsdt) ∧
  (f.execute ∧ f.decision ≠ .noOperar → minNetRiskRewardFloor ≤ f.netRiskReward) ∧
  f.leverage ≤ leverageCap f.environment ∧
  (f.execute → f.SlTpCoherent)

def Valid (f : ModelDecisionFields) : Prop := f.FieldsInRange ∧ f.Coherent

instance (f : ModelDecisionFields) : Decidable f.FieldsInRange :=
  inferInstanceAs (Decidable (_ ∧ _))

instance (f : ModelDecisionFields) : Decidable f.Coherent :=
  inferInstanceAs (Decidable (_ ∧ _))

instance (f : ModelDecisionFields) : Decidable f.Valid :=
  inferInstanceAs (Decidable (_ ∧ _))

end ModelDecisionFields

structure ModelDecision extends ModelDecisionFields where
  valid : toModelDecisionFields.Valid

namespace ModelDecision

theorem symbol_allowed (d : ModelDecision) : d.symbol ∈ allowedSymbols := d.valid.1.2.2.2.2.2.2.2

theorem leverage_range (d : ModelDecision) : 1 ≤ d.leverage ∧ d.leverage ≤ 10 :=
  d.valid.1.2.2.2.1

theorem margin_range (d : ModelDecision) : 0 ≤ d.marginUsdt ∧ d.marginUsdt ≤ 10 :=
  d.valid.1.2.2.2.2.1

theorem decision_of_execute (d : ModelDecision) (h : d.execute) : d.decision ≠ .noOperar :=
  fun hn => d.valid.2.1 ⟨hn, h⟩

/-- What the schema guarantees of a decision to trade. -/
theorem protected_of_execute (d : ModelDecision) (h : d.execute) :
    0 < d.stopLoss ∧ 0 < d.takeProfit ∧ 0 < d.marginUsdt := by
  have hd := d.decision_of_execute h
  obtain ⟨_, hp, hm, _⟩ := d.valid.2
  exact ⟨(hp ⟨h, hd⟩).1, (hp ⟨h, hd⟩).2, hm ⟨h, hd⟩⟩

theorem entryPrice_pos (d : ModelDecision) (h : d.execute) : 0 < d.entryPrice := by
  obtain ⟨hs, ht, _⟩ := d.protected_of_execute h
  have hc := d.valid.2.2.2.2.2.2 h
  unfold ModelDecisionFields.SlTpCoherent at hc
  split at hc
  · exact lt_trans hs hc.1
  · exact lt_trans ht hc.2
  · rename_i hn
    exact absurd hn (d.decision_of_execute h)

end ModelDecision

end FuturesBot
