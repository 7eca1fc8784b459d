import FuturesBot.Execution.Engine
import FuturesBot.Exchange.Paper
import FuturesBot.Risk.Soundness

namespace FuturesBot
open Lib ExecutionEngine

variable {A : ExchangeAdapter σ} {held : σ → ClientOrderId → Amount}

/-- Choosing the margin type or the leverage of a symbol trades nothing. `held` is
what the exchange still holds of the fill of an order. -/
structure SettingsTradeNothing (A : ExchangeAdapter σ) (held : σ → ClientOrderId → Amount) :
    Prop where
  setMarginType : ∀ s m x, held (A.setMarginType s m x).2 = held x
  setLeverage : ∀ s l x, held (A.setLeverage s l x).2 = held x

/-- Whatever is held of the plan's entry is watched by a configuration and known
to the database. -/
def EntryCovered (held : σ → ClientOrderId → Amount) (d : ModelDecision) (st : TradingState σ) :
    Prop :=
  0 < held st.exchange d.decisionId →
    (st.manager.getConfig d.symbol).isSome ∧ st.session.Recorded d.decisionId

namespace ExecutionEngine

/-- The order that a call sends, with the ATR of the plan and the state in which
the exchange receives it. -/
def sentOrder (A : ExchangeAdapter σ) (d : ModelDecision) (r : RiskValidationResult)
    (estimate : Option SlippageEstimate) (st : TradingState σ) :
    Option (Amount × OrderRequest × σ) :=
  match st.session.working.getByClientOrderId d.decisionId with
  | some _ => none
  | none =>
    match admitPlan d r (st.session.working.latestAtr d.symbol) with
    | .error _ => none
    | .ok (adjusted, atr1h) =>
      match prepareOrder A d adjusted estimate st.exchange with
      | (.error _, _) => none
      | (.ok request, x) => some (atr1h, request, x)

/-- The exits of the plan can be registered. -/
def Protectable (s : ExecutionSettings) (d : ModelDecision) (atr1h : Amount) : Prop :=
  0 < d.stopLoss ∧ 0 < d.takeProfit ∧
  (UsesAtr d.positionManagementPlan.useTrailingStop d.positionManagementPlan.moveToBreakEven
    s.positionManagementDefaults → 0 < atr1h)

/-- The conditions under which an entry leaves nothing uncovered. An order that
holds something must have been answered under its own identifier, and either as
a priced fill whose exits can be registered, or for a symbol that is watched. -/
def EntersSafely (A : ExchangeAdapter σ) (held : σ → ClientOrderId → Amount)
    (s : ExecutionSettings) (d : ModelDecision) (r : RiskValidationResult)
    (estimate : Option SlippageEstimate) (st : TradingState σ) : Prop :=
  match sentOrder A d r estimate st with
  | none => EntryCovered held d st
  | some (atr1h, request, x) =>
    0 < held (A.placeOrder request x).2 d.decisionId →
      ∃ result, (A.placeOrder request x).1 = .ok result ∧ result.clientOrderId = d.decisionId ∧
        if result.status = .filled ∧ result.fillPrice.isSome then Protectable s d atr1h
        else (st.manager.getConfig d.symbol).isSome

/-- A plan that the risk engine lets through has both prices, so only the ATR counts. -/
theorem protectable_of_executable (h : validate d ctx config = .ok r) (he : r.decision.executable) :
    Protectable s d atr1h ↔
      (UsesAtr d.positionManagementPlan.useTrailingStop d.positionManagementPlan.moveToBreakEven
        s.positionManagementDefaults → 0 < atr1h) := by
  obtain ⟨hs, ht, _⟩ := d.protected_of_execute (validate_executable h he).1
  simp [Protectable, hs, ht]

theorem planConfig_iff (hp : 0 ≤ price) :
    (∃ c, planConfig s d atr1h price = .ok c) ↔ Protectable s d atr1h :=
  buildPositionConfig_iff hp

/-- What the two settings of a symbol leave as it is, the preparation of an order does. -/
theorem prepareOrder_same {view : σ → β} (hm : ∀ s m x, view (A.setMarginType s m x).2 = view x)
    (hl : ∀ s l x, view (A.setLeverage s l x).2 = view x) (d : ModelDecision)
    (p : AdjustedParameters) (estimate : Option SlippageEstimate) (x : σ) :
    view (prepareOrder A d p estimate x).2 = view x := by
  have hm := hm d.symbol d.marginType x
  unfold prepareOrder
  split
  · rename_i x₁ h
    rw [h] at hm
    exact hm
  · rename_i x₁ h
    rw [h] at hm
    have hl := hl d.symbol p.leverage x₁
    split
    all_goals
      rename_i h'
      rw [h'] at hl
      exact hl.trans hm

theorem prepareOrder_held (hA : SettingsTradeNothing A held) (d : ModelDecision)
    (p : AdjustedParameters) (estimate : Option SlippageEstimate) (x : σ) :
    held (prepareOrder A d p estimate x).2 = held x :=
  prepareOrder_same hA.setMarginType hA.setLeverage d p estimate x

/-- An order that is prepared is the plan's. -/
theorem prepareOrder_built (h : prepareOrder A d p estimate x = (.ok request, x')) :
    buildOrderRequest d (computeQuantity p.marginUsdt p.leverage d) estimate = .ok request := by
  unfold prepareOrder at h
  split at h
  · cases h
  · split at h
    · cases h
    · exact congrArg Prod.fst h

/-- What a plan has that is let through to the exchange. -/
theorem admitPlan_ok (h : admitPlan d r atr = .ok (adjusted, atr1h)) :
    r.decision.executable ∧ d.entryType ≠ .noEntry ∧ r.adjustedParameters = some adjusted := by
  unfold admitPlan at h
  split at h
  · cases h
  rename_i hx
  split at h
  · cases h
  rename_i hentry
  split at h
  · cases h
  rename_i hadjusted
  split at h
  · cases h
  split at h
  · cases h
  · cases h
    exact ⟨not_not.mp hx, hentry, hadjusted⟩

theorem recordEntry_exchange (s : ExecutionSettings) (d : ModelDecision) (p : AdjustedParameters)
    (atr1h : Amount) (estimate : Option SlippageEstimate) (result : OrderResult)
    (st : TradingState σ) :
    (recordEntry s d p atr1h estimate result st).2.exchange = st.exchange := by
  unfold recordEntry
  dsimp only
  split
  · rfl
  split
  · rfl
  split <;> rfl

/-- What is left of a call once the answer to its order is in. -/
theorem recordEntry_entryCovered (st : TradingState σ)
    (hn : ∀ o ∈ st.session.working.orders, o.clientOrderId ≠ d.decisionId)
    (hc : st.session.Consistent) :
    EntryCovered held d (recordEntry s d p atr1h estimate result st).2 ↔
      (0 < held st.exchange d.decisionId → result.clientOrderId = d.decisionId ∧
        if result.status = .filled ∧ result.fillPrice.isSome then Protectable s d atr1h
        else (st.manager.getConfig d.symbol).isSome) := by
  have hold : ¬st.session.Recorded d.decisionId := by
    intro h
    obtain ⟨o, ho, he⟩ := hc _ h
    exact hn o ho he
  have hnew := Session.recorded_addOrder hn (orderRow s d result estimate st.session.now)
  unfold recordEntry EntryCovered
  dsimp only
  by_cases hf : result.status = .filled
  · rw [if_neg (not_not.mpr hf)]
    cases hp : result.fillPrice with
    | none =>
      rw [if_neg (by simp)]
      exact imp_congr_right fun _ => by rw [and_comm]; exact and_congr_left fun _ => hnew
    | some price =>
      have hprice : 0 ≤ price := result.valid.2.1 price hp
      have hplan : (∃ c, planConfig s d atr1h price = .ok c) ↔ Protectable s d atr1h :=
        planConfig_iff hprice
      rw [if_pos ⟨hf, rfl⟩]
      cases hb : planConfig s d atr1h price with
      | error e =>
        simp only [hb]
        rw [hb] at hplan
        have hno : ¬Protectable s d atr1h := fun h => by simpa using hplan.mpr h
        exact imp_congr_right fun _ => ⟨fun h => absurd h.2 hold, fun h => absurd h.2 hno⟩
      | ok c =>
        simp only [hb]
        have hs : c.symbol = d.symbol := buildPositionConfig_symbol hb
        have hyes : Protectable s d atr1h := hplan.mp ⟨c, hb⟩
        have hset : ((st.manager.setConfig c).getConfig d.symbol).isSome := by
          rw [← hs]
          simp [PositionManager.getConfig, PositionManager.setConfig]
        refine imp_congr_right fun _ => ⟨fun h => ⟨hnew.mp ?_, hyes⟩, fun h => ⟨hset, ?_⟩⟩
        · exact (Session.mem_linkTrade _ _ _ _).mp h.2
        · exact (Session.mem_linkTrade _ _ _ _).mpr (hnew.mpr h.1)
  · rw [if_pos hf, if_neg (fun h => hf h.1)]
    exact imp_congr_right fun _ => by rw [and_comm]; exact and_congr_left fun _ => hnew

/-- A call leaves nothing uncovered exactly when its entry is safe. -/
theorem entry_covered_iff (hA : SettingsTradeNothing A held) (hc : st.session.Consistent) :
    EntryCovered held d (executeApprovedPlan A s d r estimate st).2 ↔
      EntersSafely A held s d r estimate st := by
  unfold executeApprovedPlan EntersSafely sentOrder
  cases hex : st.session.working.getByClientOrderId d.decisionId with
  | some row => exact Iff.rfl
  | none =>
    have hn : ∀ o ∈ st.session.working.orders, o.clientOrderId ≠ d.decisionId := by
      intro o ho
      simpa using List.find?_eq_none.mp hex o (List.mem_append_left _ ho)
    cases hadm : admitPlan d r (st.session.working.latestAtr d.symbol) with
    | error e => exact Iff.rfl
    | ok plan =>
      obtain ⟨p, atr1h⟩ := plan
      have hheld := prepareOrder_held hA d p estimate st.exchange
      dsimp only
      rcases hp : prepareOrder A d p estimate st.exchange with ⟨e | request, x⟩
      · rw [hp] at hheld
        simp only [EntryCovered, hheld]
      · dsimp only
        rcases ho : A.placeOrder request x with ⟨e | result, x'⟩
        · have hold : ¬st.session.Recorded d.decisionId := by
            intro h
            obtain ⟨o, hm, he⟩ := hc _ h
            exact hn o hm he
          simp [EntryCovered, hold]
        · simp only [Except.ok.injEq, exists_eq_left']
          exact recordEntry_entryCovered { st with exchange := x' } hn hc

end ExecutionEngine

namespace PaperAdapter

/-- What the simulation still holds of the fill of an order. -/
def heldFrom (a : PaperAdapter) (oid : ClientOrderId) : Amount :=
  match a.orders.get oid with
  | none => 0
  | some o =>
    match a.positions.get o.symbol with
    | none => 0
    | some p => if p.side = o.side then min o.quantityFilled p.quantity else 0

theorem settingsTradeNothing : SettingsTradeNothing exchange heldFrom where
  setMarginType s m a := by
    simp only [exchange, setMarginType]
    split <;> rfl
  setLeverage s l a := by
    simp only [exchange, setLeverage]
    split <;> rfl

end PaperAdapter

def paperSettings : ExecutionSettings :=
  { environment := .paper, positionManagementDefaults := defaultConfig.positionManagement }

/-- An idle bot whose last volatility assessment stored this ATR. -/
def idleWithAtr (atr : Amount) : TradingState PaperAdapter where
  manager := .idle
  exchange := {}
  session :=
    { working := { volatilityAssessments := [⟨"BTCUSDT", 0, some atr⟩] }
      committed := { volatilityAssessments := [⟨"BTCUSDT", 0, some atr⟩] } }

/-- The sample decision, approved and executed by the idle bot. -/
def sampleEntry (atr : Amount) (r : RiskValidationResult) : TradingState PaperAdapter :=
  (executeApprovedPlan PaperAdapter.exchange paperSettings sampleDecision r none
    (idleWithAtr atr)).2

def approvedSample : Option RiskValidationResult :=
  (validate sampleDecision sampleContext defaultConfig).toOption

theorem covered_with_atr : ∃ r, validate sampleDecision sampleContext defaultConfig = .ok r ∧
    EntersSafely PaperAdapter.exchange PaperAdapter.heldFrom paperSettings sampleDecision r none
      (idleWithAtr 2) := by
  have he : approvedSample.map (fun r =>
      ((sampleEntry 2 r).manager.getConfig "BTCUSDT").isSome &&
        decide ((sampleEntry 2 r).session.Recorded "decision")) = some true := by decide +kernel
  cases hv : validate sampleDecision sampleContext defaultConfig with
  | error e =>
    rw [approvedSample, hv] at he
    cases he
  | ok r =>
    rw [approvedSample, hv] at he
    have hboth := Option.some.inj he
    simp only [Bool.and_eq_true, decide_eq_true_eq] at hboth
    refine ⟨r, rfl, ?_⟩
    have hc : (idleWithAtr 2).session.Consistent := fun _ h => h
    exact (entry_covered_iff PaperAdapter.settingsTradeNothing hc).mp (fun _ => hboth)

/-- With an ATR of zero the exits of the plan are refused after its order has
filled: what it holds is neither watched nor recorded. -/
theorem zero_atr_uncovered :
    ¬∀ (d : ModelDecision) (r : RiskValidationResult) (ctx : RiskContext) (config : AppConfig)
      (s : ExecutionSettings) (estimate : Option SlippageEstimate) (st : TradingState PaperAdapter),
      validate d ctx config = .ok r → r.decision.executable →
      s.positionManagementDefaults = config.positionManagement →
      (∀ v ∈ st.session.working.volatilityAssessments, ∀ a ∈ v.atr, 0 ≤ a) →
      st.session.Consistent → EntryCovered PaperAdapter.heldFrom d st →
      EntryCovered PaperAdapter.heldFrom d
        (executeApprovedPlan PaperAdapter.exchange s d r estimate st).2 := by
  intro h
  have he : approvedSample.map (fun r => r.decision.executable &&
      decide (0 < (sampleEntry 0 r).exchange.heldFrom "decision") &&
      ((sampleEntry 0 r).manager.getConfig "BTCUSDT").isNone) = some true := by decide +kernel
  cases hv : validate sampleDecision sampleContext defaultConfig with
  | error e =>
    rw [approvedSample, hv] at he
    cases he
  | ok r =>
    rw [approvedSample, hv] at he
    have hall := Option.some.inj he
    simp only [Bool.and_eq_true, decide_eq_true_eq, Option.isNone_iff_eq_none] at hall
    obtain ⟨⟨hx, hheld⟩, hnone⟩ := hall
    have hidle : EntryCovered PaperAdapter.heldFrom sampleDecision (idleWithAtr 0) :=
      fun hpos => absurd hpos (lt_irrefl 0)
    have hcov := h _ r _ _ paperSettings none (idleWithAtr 0) hv hx rfl
      (by simp [idleWithAtr]) (fun _ hr => hr) hidle
    have hsome := (hcov hheld).1
    rw [show sampleDecision.symbol = "BTCUSDT" from rfl] at hsome
    rw [sampleEntry] at hnone
    rw [hnone] at hsome
    cases hsome

end FuturesBot
