import FuturesBot.Lib.Transactions
import FuturesBot.Trading.Coverage

namespace FuturesBot
open Lib CycleRunner

/-- The tables in which the turns of the pipeline account for themselves. -/
structure AuditTables where
  decisions : List ModelDecision
  decisionAggregations : List DecisionAggregationRow
  riskValidations : List RiskValidationRow

/-- Rows are only ever added at the end: those of `a` are in `b` when they come first
there. -/
instance : Preorder AuditTables where
  le a b := a.decisions <+: b.decisions ∧ a.decisionAggregations <+: b.decisionAggregations ∧
    a.riskValidations <+: b.riskValidations
  le_refl _ := ⟨List.prefix_rfl, List.prefix_rfl, List.prefix_rfl⟩
  le_trans _ _ _ h h' := ⟨h.1.trans h'.1, h.2.1.trans h'.2.1, h.2.2.trans h'.2.2⟩

def Database.audits (db : Database) : AuditTables :=
  ⟨db.decisions, db.decisionAggregations, db.riskValidations⟩

namespace Session

/-- The session, as far as the audit tables go. -/
def audits (s : Session) : Store AuditTables :=
  ⟨s.working.audits, s.committed.audits, s.commits⟩

theorem audits_rollbackTo (s saved : Session) :
    (s.rollbackTo saved).audits = s.audits.rollbackTo saved.audits := by
  by_cases h : s.commits = saved.commits
  · simp [rollbackTo, Store.rollbackTo, audits, h]
  · simp [rollbackTo, Store.rollbackTo, audits, h]

/-- No audit row is lost between the two sessions. -/
def KeepsAudits (s t : Session) : Prop := s.audits.Keeps t.audits

/-- Nothing that a turn does to its session, but a rollback, loses an audit row. -/
theorem KeepsAudits.turnWrites : TurnWrites KeepsAudits where
  refl s := .refl s.audits
  trans h h' := h.trans h'
  commit s := .commit s.audits
  rollbackTo h := by
    unfold KeepsAudits
    rw [audits_rollbackTo]
    exact h.rollbackTo
  addOrder _ s := .refl s.audits
  addTrade _ _ s := .refl s.audits
  linkTrade _ _ s := .refl s.audits
  addPosition _ s := .refl s.audits
  auditModelDecision d s := by
    unfold auditModelDecision
    split
    · exact .refl s.audits
    · exact .write ⟨List.prefix_append _ _, List.prefix_rfl, List.prefix_rfl⟩
  auditDecisionAggregation _ _ :=
    .write ⟨List.prefix_rfl, List.prefix_append _ _, List.prefix_rfl⟩
  auditRiskValidation _ _ :=
    .write ⟨List.prefix_rfl, List.prefix_rfl, List.prefix_append _ _⟩

end Session

open Session

namespace ExecutionEngine

/-- An execution comes to its end, or at least to a commit. -/
def Completes (A : ExchangeAdapter σ) (s : ExecutionSettings) (d : ModelDecision)
    (r : RiskValidationResult) (estimate : Option SlippageEstimate) (st : TradingState σ) : Prop :=
  match st.session.working.getByClientOrderId d.decisionId with
  -- The order has been stored before, and its row can be read.
  | some row => ∃ e, resultFromExistingOrder
      ((st.session.working.orders ++ st.session.working.ordersOfOtherRuns).findIdx
        (·.clientOrderId = d.decisionId)) row = .ok e
  | none =>
    match sentOrder A d r estimate st with
    | none => False
    | some (atr1h, request, x) => ∃ result, (A.placeOrder request x).1 = .ok result ∧
      (result.status = .filled → result.fillPrice.isSome → Protectable s d atr1h)

theorem recordEntry_completes_iff (h : recordEntry s d p atr1h estimate result st = (o, st')) :
    ((∃ e, o = .ok e) ∨ st.session.commits < st'.session.commits) ↔
      (result.status = .filled → result.fillPrice.isSome → Protectable s d atr1h) := by
  unfold recordEntry at h
  dsimp only at h
  by_cases hf : result.status = .filled
  · rw [if_neg (not_not.mpr hf)] at h
    cases hp : result.fillPrice with
    | none =>
      rw [hp] at h
      cases h
      simp [Session.commit, Session.addOrder]
    | some price =>
      have hprice : 0 ≤ price := result.valid.2.1 price hp
      have hplan : (∃ c, planConfig s d atr1h price = .ok c) ↔ Protectable s d atr1h :=
        planConfig_iff hprice
      simp only [hf, Option.isSome_some, forall_const]
      rw [hp] at h
      dsimp only at h
      rw [← hplan]
      cases hc : planConfig s d atr1h price with
      | error e =>
        rw [hc] at h
        cases h
        simp [Session.addOrder, Session.addTrade, Session.linkTrade, Session.addPosition]
      | ok c =>
        rw [hc] at h
        cases h
        simp
  · rw [if_pos hf] at h
    cases h
    simp [hf]

theorem executeApprovedPlan_completes_iff
    (h : executeApprovedPlan A s d r estimate st = (o, st')) :
    ((∃ e, o = .ok e) ∨ st.session.commits < st'.session.commits) ↔
      Completes A s d r estimate st := by
  unfold executeApprovedPlan at h
  unfold Completes sentOrder
  cases hrow : st.session.working.getByClientOrderId d.decisionId with
  | some row =>
    rw [hrow] at h
    obtain ⟨ho, rfl⟩ := Prod.mk.inj h
    rw [← ho]
    simp
  | none =>
    rw [hrow] at h
    cases hplan : admitPlan d r (st.session.working.latestAtr d.symbol) with
    | error e =>
      rw [hplan] at h
      cases h
      simp
    | ok plan =>
      obtain ⟨adjusted, atr1h⟩ := plan
      rw [hplan] at h
      dsimp only at h ⊢
      rcases hp : prepareOrder A d adjusted estimate st.exchange with ⟨e | request, x⟩
      · rw [hp] at h
        cases h
        simp
      · rw [hp] at h
        dsimp only at h ⊢
        rcases ho : A.placeOrder request x with ⟨e | result, x'⟩
        · rw [ho] at h
          cases h
          simp
        · rw [ho] at h
          have hrec := recordEntry_completes_iff h
          simpa using hrec

end ExecutionEngine

namespace CycleRunner

/-- The execution of a verdict comes to its end, or at least to a commit. -/
def EntryCompletes (A : ExchangeAdapter σ) (config : AppConfig) (snapshot : MarketSnapshot)
    (v : Verdict σ) : Prop :=
  ∃ approved estimate, v.result.adjustedParameters = some approved ∧
    executedEstimate config snapshot v.decision approved v.slippage = .ok estimate ∧
    ExecutionEngine.Completes A (executionSettings config) v.decision v.result estimate
      v.state.toTradingState

/-- Once its risk validation has completed, a turn goes on to execute what it may. -/
theorem processSymbol_verdict (hv : verdict A config o reliable snapshot st = some v) :
    processSymbol A config o reliable snapshot st =
      if v.result.decision.executable then
        enter A config snapshot v.decision v.result v.slippage v.state
      else (.ok (), v.state) := by
  rcases processSymbol_cases rfl with ⟨hn, _⟩ | ⟨v', hv', h⟩
  · rw [hv] at hn
    cases hn
  · rw [hv] at hv'
    cases hv'
    exact h.symm

/-- The rows of a verdict are flushed onto what the session saw, without a commit. -/
theorem verdict_session (hv : verdict A config o reliable snapshot st = some v) :
    ∃ action, v.state.session =
      auditValidation config v.result (auditDecision config v.decision action st.session) := by
  obtain ⟨action, x, _, _, _, hst⟩ := verdict_iff.mp hv
  exact ⟨action, by rw [hst]⟩

theorem enter_completes_iff (h : enter A config snapshot v.decision v.result v.slippage v.state =
    (o, st')) : (o = .ok () ∨ v.state.session.commits < st'.session.commits) ↔
      EntryCompletes A config snapshot v := by
  unfold enter at h
  unfold EntryCompletes
  cases ha : v.result.adjustedParameters with
  | none =>
    rw [ha] at h
    cases h
    simp
  | some approved =>
    rw [ha] at h
    dsimp only at h
    cases he : executedEstimate config snapshot v.decision approved v.slippage with
    | error e =>
      rw [he] at h
      cases h
      simp [he]
    | ok estimate =>
      rw [he] at h
      dsimp only at h
      rcases hx : ExecutionEngine.executeApprovedPlan A (executionSettings config) v.decision
        v.result estimate v.state.toTradingState with ⟨e | execution, t⟩
      all_goals
        rw [hx] at h
        have hi := ExecutionEngine.executeApprovedPlan_completes_iff hx
      · cases h
        simpa [he] using hi
      · have hok : o = .ok () := by
          dsimp only at h
          split at h <;> exact (Prod.mk.inj h).1.symm
        simpa [hok, he] using hi

/-- The audit tables as the validation left them. -/
def Verdict.rows (v : Verdict σ) : AuditTables := v.state.session.working.audits

theorem verdict_keeps (hv : verdict A config o reliable snapshot st = some v) :
    st.session.KeepsAudits v.state.session :=
  KeepsAudits.turnWrites.verdict hv

theorem verdict_commits (hv : verdict A config o reliable snapshot st = some v) :
    v.state.session.commits = st.session.commits := by
  obtain ⟨action, hs⟩ := verdict_session hv
  rw [hs]
  unfold auditValidation auditDecision Session.auditModelDecision
  split <;> split <;> try split
  all_goals rfl

theorem verdict_holds (hv : verdict A config o reliable snapshot st = some v) :
    Store.Holds st.session.commits v.rows v.state.session.audits := by
  rw [← verdict_commits hv]
  exact .start v.state.session.audits

/-- Some of the tables are kept at all. -/
def Logs (config : AppConfig) : Prop :=
  config.storage.logAllDecisions ∨ config.storage.logRiskValidations

theorem verdict_unlogged (hv : verdict A config o reliable snapshot st = some v)
    (hl : ¬Logs config) : v.rows = st.session.working.audits := by
  obtain ⟨action, hs⟩ := verdict_session hv
  obtain ⟨hd, hr⟩ := not_or.mp hl
  rw [Verdict.rows, hs, auditValidation, if_neg hr, auditDecision, if_neg hd]

/-- A verdict adds at least one row. -/
theorem verdict_logged (hv : verdict A config o reliable snapshot st = some v)
    (hl : Logs config) : ¬v.rows ≤ st.session.working.audits := by
  obtain ⟨action, hs⟩ := verdict_session hv
  rw [Verdict.rows, hs]
  intro h
  obtain ⟨_, hd, hr⟩ := h
  have hdl := hd.length_le
  have hrl := hr.length_le
  rcases hl with hl | hl
  · have hone : (auditValidation config v.result (auditDecision config v.decision action
        st.session)).working.decisionAggregations.length =
        st.session.working.decisionAggregations.length + 1 := by
      unfold auditValidation auditDecision Session.auditModelDecision
      rw [if_pos hl]
      split <;> split <;> simp [Session.auditRiskValidation, Session.auditDecisionAggregation]
    simp only [Database.audits, hone] at hdl
    omega
  · have hone : (auditValidation config v.result (auditDecision config v.decision action
        st.session)).working.riskValidations.length =
        st.session.working.riskValidations.length + 1 := by
      unfold auditValidation auditDecision Session.auditModelDecision
      rw [if_pos hl]
      split <;> try split
      all_goals simp [Session.auditRiskValidation, Session.auditDecisionAggregation]
    simp only [Database.audits, hone] at hrl
    omega

/-- The rows of a turn outlast it exactly when its execution completes, if there is one. -/
theorem processNested_holds_iff (hv : verdict A config o reliable snapshot st = some v)
    (hl : Logs config) :
    Store.Holds st.session.commits v.rows
        (processNested A config o reliable snapshot st).session.audits ↔
      (v.result.decision.executable → EntryCompletes A config snapshot v) := by
  unfold processNested
  rw [processSymbol_verdict hv]
  by_cases hx : v.result.decision.executable
  · rw [if_pos hx]
    rcases he : enter A config snapshot v.decision v.result v.slippage v.state with ⟨e | _, st'⟩
    all_goals
      have hi := enter_completes_iff he
      have hk : v.state.session.KeepsAudits st'.session := KeepsAudits.turnWrites.enter he
      have hh := (verdict_holds hv).keeps hk
    · have hlost := hh.rollbackTo_iff ((verdict_keeps hv).trans hk) (verdict_logged hv hl)
      rw [verdict_commits hv] at hi
      dsimp only
      rw [audits_rollbackTo]
      refine hlost.trans ⟨fun h _ => hi.mp (.inr h), fun h => ?_⟩
      rcases hi.mpr (h hx) with ho | hc
      · cases ho
      · exact hc
    · exact ⟨fun _ _ => hi.mp (.inl rfl), fun _ => hh⟩
  · rw [if_neg hx]
    exact ⟨fun _ h => absurd h hx, fun _ => verdict_holds hv⟩

/-- Whatever the turn may execute completes, if its rows are kept at all. -/
def TurnKept (A : ExchangeAdapter σ) (config : AppConfig) (o : DecisionSources) (reliable : Bool)
    (snapshot : MarketSnapshot) (st : PipelineState σ) : Prop :=
  Logs config → ∀ v, verdict A config o reliable snapshot st = some v →
    v.result.decision.executable → EntryCompletes A config snapshot v

theorem TurnKept.holds (h : TurnKept A config o reliable snapshot st)
    (hv : verdict A config o reliable snapshot st = some v) :
    Store.Holds st.session.commits v.rows
      (processNested A config o reliable snapshot st).session.audits := by
  by_cases hl : Logs config
  · exact (processNested_holds_iff hv hl).mpr (h hl v hv)
  · rw [verdict_unlogged hv hl]
    have hk := KeepsAudits.turnWrites.processNested A config o reliable snapshot st
    exact (Store.Holds.start st.session.audits).keeps hk

end CycleRunner

end FuturesBot
