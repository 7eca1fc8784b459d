import FuturesBot.Trading.Pipeline

namespace FuturesBot
open Lib CycleRunner

namespace CycleRunner

/-- A completed risk validation, in the state in which its rows have been flushed. -/
structure Verdict (σ : Type u) where
  decision : ModelDecision
  result : RiskValidationResult
  slippage : Option SlippageEstimate
  state : PipelineState σ

/-- How far a turn comes before it executes anything. -/
def verdict (A : ExchangeAdapter σ) (config : AppConfig) (o : DecisionSources) (reliable : Bool)
    (snapshot : MarketSnapshot) (st : PipelineState σ) : Option (Verdict σ) :=
  match askModel o snapshot with
  | .error _ => none
  | .ok none => none
  | .ok (some (d, action)) =>
    let st := { st with session := auditDecision config d action st.session }
    if action = .noOperar then none
    else match assess A config reliable snapshot d st with
      | (.error _, _) => none
      | (.ok (r, slippage), x) =>
        some ⟨d, r, slippage,
          { st with exchange := x, session := auditValidation config r st.session }⟩

/-- What has to come together for a risk validation to complete. -/
theorem verdict_iff {v : Verdict σ} : verdict A config o reliable snapshot st = some v ↔
    ∃ action x, askModel o snapshot = .ok (some (v.decision, action)) ∧ action ≠ .noOperar ∧
      assess A config reliable snapshot v.decision
        { st with session := auditDecision config v.decision action st.session } =
        (.ok (v.result, v.slippage), x) ∧
      v.state = { st with
        exchange := x
        session := auditValidation config v.result
          (auditDecision config v.decision action st.session) } := by
  unfold verdict
  constructor
  · intro h
    split at h
    · cases h
    · cases h
    rename_i d action ha
    dsimp only at h
    split at h
    · cases h
    rename_i hn
    split at h
    · cases h
    rename_i r slippage x hs
    cases h
    exact ⟨action, x, ha, hn, hs, rfl⟩
  · intro hex
    obtain ⟨action, x, ha, hn, hs, hst⟩ := hex
    rw [ha]
    dsimp only
    rw [if_neg hn, hs]
    dsimp only
    rw [← hst]

/-- What a turn leaves whose risk validation does not complete. -/
structure Unjudged (A : ExchangeAdapter σ) (config : AppConfig) (reliable : Bool)
    (snapshot : MarketSnapshot) (st st' : PipelineState σ) : Prop where
  counter : st'.openedThisTick = st.openedThisTick
  session : st'.session = st.session ∨
    ∃ d action, st'.session = auditDecision config d action st.session
  exchange : st'.exchange = st.exchange ∨ ∃ d st₁ e, st₁.exchange = st.exchange ∧
    assess A config reliable snapshot d st₁ = (.error e, st'.exchange)

/-- A turn ends before its risk validation has completed, or goes on to execute what it
may. -/
theorem processSymbol_cases (h : processSymbol A config o reliable snapshot st = (r, st')) :
    (verdict A config o reliable snapshot st = none ∧
      Unjudged A config reliable snapshot st st') ∨
    ∃ v, verdict A config o reliable snapshot st = some v ∧
      (if v.result.decision.executable then
        enter A config snapshot v.decision v.result v.slippage v.state
      else (.ok (), v.state)) = (r, st') := by
  unfold processSymbol at h
  unfold verdict
  rcases ha : askModel o snapshot with e | _ | ⟨d, action⟩
  · rw [ha] at h
    cases h
    exact .inl ⟨rfl, rfl, .inl rfl, .inl rfl⟩
  · rw [ha] at h
    cases h
    exact .inl ⟨rfl, rfl, .inl rfl, .inl rfl⟩
  rw [ha] at h
  dsimp only at h ⊢
  by_cases hn : action = .noOperar
  · rw [if_pos hn] at h ⊢
    cases h
    exact .inl ⟨rfl, rfl, .inr ⟨d, action, rfl⟩, .inl rfl⟩
  rw [if_neg hn] at h ⊢
  rcases hs : assess A config reliable snapshot d
    { st with session := auditDecision config d action st.session } with ⟨e | ⟨r', slippage⟩, x⟩
  · rw [hs] at h
    cases h
    exact .inl ⟨rfl, rfl, .inr ⟨d, action, rfl⟩,
      .inr ⟨d, { st with session := auditDecision config d action st.session }, e, rfl, hs⟩⟩
  · rw [hs] at h
    exact .inr ⟨_, rfl, h⟩

end CycleRunner

/-- A relation between sessions that everything the turn of a symbol does to its
session respects. -/
structure TurnWrites (R : Session → Session → Prop) : Prop where
  refl : ∀ s, R s s
  trans : ∀ {s t u}, R s t → R t u → R s u
  commit : ∀ s, R s s.commit
  rollbackTo : ∀ {s t}, R s t → R s (t.rollbackTo s)
  addOrder : ∀ row s, R s (s.addOrder row)
  addTrade : ∀ row : TradeRow, row.status = .open → ∀ s, R s (s.addTrade row)
  linkTrade : ∀ order trade s, R s (s.linkTrade order trade)
  addPosition : ∀ row s, R s (s.addPosition row)
  auditModelDecision : ∀ d s, R s (s.auditModelDecision d)
  auditDecisionAggregation : ∀ row s, R s (s.auditDecisionAggregation row)
  auditRiskValidation : ∀ row s, R s (s.auditRiskValidation row)

namespace TurnWrites

variable {R : Session → Session → Prop}

theorem recordEntry (hR : TurnWrites R)
    (h : ExecutionEngine.recordEntry s d p atr1h estimate result st = (o, st')) :
    R st.session st'.session := by
  have hr := hR.addOrder (ExecutionEngine.orderRow s d result estimate st.session.now) st.session
  unfold ExecutionEngine.recordEntry at h
  dsimp only at h
  split at h
  · cases h
    exact hR.trans hr (hR.commit _)
  split at h
  · cases h
    exact hR.trans hr (hR.commit _)
  · have ht := hR.trans hr (hR.addTrade (ExecutionEngine.tradeRow s d p result) rfl _)
    have hp := fun order trade row =>
      hR.trans (hR.trans ht (hR.linkTrade order trade _)) (hR.addPosition row _)
    split at h
    · cases h
      exact hp _ _ _
    · cases h
      exact hR.trans (hp _ _ _) (hR.commit _)

theorem executeApprovedPlan (hR : TurnWrites R)
    (h : ExecutionEngine.executeApprovedPlan A s d r estimate st = (o, st')) :
    R st.session st'.session := by
  unfold ExecutionEngine.executeApprovedPlan at h
  split at h
  · cases h
    exact hR.refl _
  split at h
  · cases h
    exact hR.refl _
  split at h
  · cases h
    exact hR.refl _
  split at h
  · cases h
    exact hR.refl _
  · have hrec := hR.recordEntry h
    exact hrec

theorem auditDecision (hR : TurnWrites R) (config : AppConfig) (d : ModelDecision)
    (action : DecisionType) (s : Session) : R s (CycleRunner.auditDecision config d action s) := by
  unfold CycleRunner.auditDecision
  split
  · exact hR.trans (hR.auditModelDecision d s) (hR.auditDecisionAggregation _ _)
  · exact hR.refl _

theorem auditValidation (hR : TurnWrites R) (config : AppConfig) (r : RiskValidationResult)
    (s : Session) : R s (CycleRunner.auditValidation config r s) := by
  unfold CycleRunner.auditValidation
  split
  · exact hR.auditRiskValidation _ s
  · exact hR.refl _

theorem enter (hR : TurnWrites R)
    (h : CycleRunner.enter A config snapshot d r slippage st = (o, st')) :
    R st.session st'.session := by
  unfold CycleRunner.enter at h
  split at h
  · cases h
    exact hR.refl _
  split at h
  · cases h
    exact hR.refl _
  dsimp only at h
  split at h
  · rename_i he
    cases h
    exact hR.executeApprovedPlan he
  · rename_i he
    split at h <;> cases h <;> exact hR.executeApprovedPlan he

theorem verdict (hR : TurnWrites R)
    (hv : CycleRunner.verdict A config o reliable snapshot st = some v) :
    R st.session v.state.session := by
  obtain ⟨action, x, _, _, _, hst⟩ := verdict_iff.mp hv
  have hd := hR.auditDecision config v.decision action st.session
  rw [hst]
  exact hR.trans hd (hR.auditValidation config v.result _)

theorem processSymbol (hR : TurnWrites R)
    (h : CycleRunner.processSymbol A config o reliable snapshot st = (r, st')) :
    R st.session st'.session := by
  rcases processSymbol_cases h with ⟨_, hu⟩ | ⟨v, hv, h⟩
  · rcases hu.session with hs | ⟨d, action, hs⟩
    · rw [hs]
      exact hR.refl _
    · rw [hs]
      exact hR.auditDecision config d action _
  · have hj := hR.verdict hv
    split at h
    · exact hR.trans hj (hR.enter h)
    · cases h
      exact hj

/-- So the whole turn respects it, its rollback included. -/
theorem processNested (hR : TurnWrites R) (A : ExchangeAdapter σ) (config : AppConfig)
    (o : DecisionSources) (reliable : Bool) (snapshot : MarketSnapshot) (st : PipelineState σ) :
    R st.session (CycleRunner.processNested A config o reliable snapshot st).session := by
  unfold CycleRunner.processNested
  split
  · rename_i hp
    exact hR.processSymbol hp
  · rename_i hp
    exact hR.rollbackTo (hR.processSymbol hp)

end TurnWrites

end FuturesBot
