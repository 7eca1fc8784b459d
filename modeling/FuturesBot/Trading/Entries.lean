import FuturesBot.Execution.Exposure
import FuturesBot.Trading.Turns

namespace FuturesBot
open Lib

/-- As far as the view goes, at most one order has been sent between the two states,
and it is an entry. -/
def EntersOnce (A : ExchangeAdapter σ) (view : σ → β) (x x' : σ) : Prop :=
  view x' = view x ∨ ∃ y request, view y = view x ∧ request.isReduceOnly = false ∧
    view x' = view (A.placeOrder request y).2

/-- As far as the view goes, this order and nothing else has been sent between the two
states; it is an entry, and it came last. -/
def Sent (A : ExchangeAdapter σ) (view : σ → β) (order : Option (OrderRequest × σ)) (x x' : σ) :
    Prop :=
  match order with
  | none => view x' = view x
  | some (request, y) =>
    view y = view x ∧ request.isReduceOnly = false ∧ x' = (A.placeOrder request y).2

variable {A : ExchangeAdapter σ} {view : σ → β}

theorem Sent.trans_left (h : view y = view x) (hs : Sent A view order y z) :
    Sent A view order x z := by
  cases order with
  | none => exact hs.trans h
  | some sent =>
    obtain ⟨hy, hr, hz⟩ := hs
    exact ⟨hy.trans h, hr, hz⟩

theorem Sent.entersOnce (h : Sent A view order x x') : EntersOnce A view x x' := by
  cases order with
  | none => exact .inl h
  | some sent =>
    obtain ⟨hy, hr, hx⟩ := h
    exact .inr ⟨sent.2, sent.1, hy, hr, congrArg view hx⟩

namespace ExecutionEngine

theorem buildOrderRequest_entry (h : buildOrderRequest d quantity estimate = .ok request) :
    request.isReduceOnly = false ∧ request.symbol = d.symbol := by
  have hf := OrderRequest.build_ok h
  rw [hf]
  exact ⟨rfl, rfl⟩

theorem prepareOrder_view (hA : Untouched A view) (d : ModelDecision) (p : AdjustedParameters)
    (estimate : Option SlippageEstimate) (x : σ) :
    view (prepareOrder A d p estimate x).2 = view x :=
  prepareOrder_same hA.setMarginType hA.setLeverage d p estimate x

theorem prepareOrder_entry (h : prepareOrder A d p estimate x = (.ok request, x')) :
    request.isReduceOnly = false ∧ request.symbol = d.symbol :=
  buildOrderRequest_entry (prepareOrder_built h)

theorem sentOrder_entry (h : sentOrder A d r estimate st = some (atr1h, request, x)) :
    request.isReduceOnly = false ∧ request.symbol = d.symbol := by
  unfold sentOrder at h
  repeat' split at h
  all_goals try cases h
  rename_i hp
  exact prepareOrder_entry hp

/-- An approved plan sends its order, and nothing else. -/
theorem executeApprovedPlan_sent (hA : Untouched A view)
    (h : executeApprovedPlan A s d r estimate st = (o, st')) :
    Sent A view ((sentOrder A d r estimate st).map (·.2)) st.exchange st'.exchange := by
  unfold executeApprovedPlan at h
  unfold sentOrder
  cases hrow : st.session.working.getByClientOrderId d.decisionId with
  | some row =>
    rw [hrow] at h
    cases h
    exact rfl
  | none =>
    rw [hrow] at h
    cases hplan : admitPlan d r (st.session.working.latestAtr d.symbol) with
    | error e =>
      rw [hplan] at h
      cases h
      exact rfl
    | ok plan =>
      obtain ⟨adjusted, atr1h⟩ := plan
      rw [hplan] at h
      dsimp only at h ⊢
      have hx := prepareOrder_view hA d adjusted estimate st.exchange
      rcases hp : prepareOrder A d adjusted estimate st.exchange with ⟨e | request, x⟩
      · rw [hp] at h hx
        cases h
        exact hx
      · rw [hp] at h hx
        dsimp only at h
        refine ⟨hx, (prepareOrder_entry hp).1, ?_⟩
        rcases ho : A.placeOrder request x with ⟨e | result, x'⟩
        · rw [ho] at h
          cases h
          rfl
        · rw [ho] at h
          have hs := congrArg (·.2.exchange) h
          rw [recordEntry_exchange] at hs
          exact hs.symm

end ExecutionEngine

namespace CycleRunner

/-- The model takes a position on the snapshot, and the aggregator follows it. -/
def Proposes (o : DecisionSources) (snapshot : MarketSnapshot) : Prop :=
  ∃ d action, askModel o snapshot = .ok (some (d, action)) ∧ action ≠ .noOperar

/-- The order of an approved result, with the exchange that receives it. -/
def enterOrder (A : ExchangeAdapter σ) (config : AppConfig) (snapshot : MarketSnapshot)
    (d : ModelDecision) (r : RiskValidationResult) (slippage : Option SlippageEstimate)
    (st : PipelineState σ) : Option (OrderRequest × σ) :=
  match r.adjustedParameters with
  | none => none
  | some approved =>
    match executedEstimate config snapshot d approved slippage with
    | .error _ => none
    | .ok estimate => (ExecutionEngine.sentOrder A d r estimate st.toTradingState).map (·.2)

/-- The order that the turn of a symbol sends. -/
def turnOrder (A : ExchangeAdapter σ) (config : AppConfig) (o : DecisionSources) (reliable : Bool)
    (snapshot : MarketSnapshot) (st : PipelineState σ) : Option (OrderRequest × σ) :=
  match askModel o snapshot with
  | .error _ => none
  | .ok none => none
  | .ok (some (d, action)) =>
    let st := { st with session := auditDecision config d action st.session }
    if action = .noOperar then none
    else match assess A config reliable snapshot d st with
      | (.error _, _) => none
      | (.ok (r, slippage), x) =>
        let st := { st with exchange := x, session := auditValidation config r st.session }
        if r.decision.executable then enterOrder A config snapshot d r slippage st else none

theorem proposedFees_view (hA : ReadsLeave A view) (symbol : Symbol) (d : ModelDecision) (x : σ) :
    view (proposedFees A symbol d x).2 = view x := by
  have hf := hA.getFeeRates symbol x
  unfold proposedFees
  split
  · rfl
  split
  all_goals
    rename_i hr
    rw [hr] at hf
    exact hf

theorem assess_view (hA : ReadsLeave A view)
    (h : assess A config reliable snapshot d st = (o, x)) : view x = view st.exchange := by
  have hfees := proposedFees_view hA snapshot.symbol d st.exchange
  unfold assess at h
  split at h
  · cases h
    rfl
  split at h
  · rename_i hf
    rw [hf] at hfees
    cases h
    exact hfees
  · rename_i x₁ hf
    rw [hf] at hfees
    have hp := hA.getPosition snapshot.symbol x₁
    split at h
    all_goals
      rename_i hr
      rw [hr] at hp
      cases h
      exact hp.trans hfees

/-- What an assessment that returns has asked, and of whom. -/
theorem assess_ok_iff : assess A config reliable snapshot d st = (.ok (r, slippage), x) ↔
    ∃ fees x₁ position, proposedSlippage config snapshot d = .ok slippage ∧
      proposedFees A snapshot.symbol d st.exchange = (.ok fees, x₁) ∧
      A.getPosition snapshot.symbol x₁ = (.ok position, x) ∧
      validate d (riskContext st.session.working st.session.now snapshot
        (if reliable then some (snapshot.openPositionsCount + st.openedThisTick) else none)
        (position.map (·.unrealizedPnl)) fees slippage) config = .ok r := by
  unfold assess
  constructor
  · intro h
    split at h
    · cases h
    rename_i slippage' hs
    split at h
    · cases h
    rename_i fees x₁ hf
    split at h
    · cases h
    rename_i position x₂ hp
    obtain ⟨hr, rfl⟩ := Prod.mk.inj h
    cases hv : validate d (riskContext st.session.working st.session.now snapshot
      (if reliable then some (snapshot.openPositionsCount + st.openedThisTick) else none)
      (position.map (·.unrealizedPnl)) fees slippage') config with
    | error e =>
      rw [hv] at hr
      cases hr
    | ok r' =>
      rw [hv] at hr
      cases hr
      exact ⟨fees, x₁, position, hs, hf, hp, hv⟩
  · intro hex
    obtain ⟨fees, x₁, position, hs, hf, hp, hv⟩ := hex
    rw [hs]
    dsimp only
    rw [hf]
    dsimp only
    rw [hp]
    dsimp only
    rw [hv]
    rfl

theorem enterOrder_iff : enterOrder A config snapshot d r slippage st = some (request, y) ↔
    ∃ approved estimate atr1h, r.adjustedParameters = some approved ∧
      executedEstimate config snapshot d approved slippage = .ok estimate ∧
      ExecutionEngine.sentOrder A d r estimate st.toTradingState = some (atr1h, request, y) := by
  unfold enterOrder
  constructor
  · intro h
    split at h
    · cases h
    split at h
    · cases h
    rename_i approved ha _ estimate he
    obtain ⟨⟨atr1h, sent⟩, hs, rfl⟩ := Option.map_eq_some_iff.mp h
    exact ⟨approved, estimate, atr1h, ha, he, hs⟩
  · intro hex
    obtain ⟨approved, estimate, atr1h, ha, he, hs⟩ := hex
    rw [ha]
    dsimp only
    rw [he]
    dsimp only
    rw [hs]
    rfl

theorem Unjudged.sameView (hA : ReadsLeave A view)
    (h : Unjudged A config reliable snapshot st st') : view st'.exchange = view st.exchange := by
  rcases h.exchange with hx | ⟨d, st₁, e, hx, ha⟩
  · rw [hx]
  · rw [← hx]
    exact assess_view hA ha

theorem verdict_view (hA : ReadsLeave A view)
    (hv : verdict A config o reliable snapshot st = some v) :
    view v.state.exchange = view st.exchange := by
  obtain ⟨action, x, _, _, ha, hst⟩ := verdict_iff.mp hv
  have hx := assess_view hA ha
  rw [hst]
  exact hx

/-- Only a completed risk validation leads to an order. -/
theorem turnOrder_eq : turnOrder A config o reliable snapshot st =
    (verdict A config o reliable snapshot st).bind (fun v =>
      if v.result.decision.executable then
        enterOrder A config snapshot v.decision v.result v.slippage v.state
      else none) := by
  unfold turnOrder verdict
  rcases ha : askModel o snapshot with e | _ | ⟨d, action⟩
  · rfl
  · rfl
  dsimp only
  by_cases hn : action = .noOperar
  · rw [if_pos hn, if_pos hn]
    rfl
  rw [if_neg hn, if_neg hn]
  rcases hs : assess A config reliable snapshot d
    { st with session := auditDecision config d action st.session } with ⟨e | ⟨r, slippage⟩, x⟩
  · rfl
  · rfl

/-- What has to come together for a turn to send an order. -/
theorem turnOrder_iff : turnOrder A config o reliable snapshot st = some (request, y) ↔
    ∃ d action r slippage x, askModel o snapshot = .ok (some (d, action)) ∧ action ≠ .noOperar ∧
      assess A config reliable snapshot d
        { st with session := auditDecision config d action st.session } = (.ok (r, slippage), x) ∧
      r.decision.executable ∧ enterOrder A config snapshot d r slippage
        { st with
          exchange := x
          session := auditValidation config r (auditDecision config d action st.session) } =
        some (request, y) := by
  rw [turnOrder_eq, Option.bind_eq_some_iff]
  constructor
  · intro hex
    obtain ⟨v, hv, h⟩ := hex
    obtain ⟨action, x, ha, hn, hs, hst⟩ := verdict_iff.mp hv
    split at h
    · rename_i hx
      rw [hst] at h
      exact ⟨v.decision, action, v.result, v.slippage, x, ha, hn, hs, hx, h⟩
    · cases h
  · intro hex
    obtain ⟨d, action, r, slippage, x, ha, hn, hs, hx, he⟩ := hex
    let v : Verdict _ := ⟨d, r, slippage, { st with
      exchange := x
      session := auditValidation config r (auditDecision config d action st.session) }⟩
    refine ⟨v, verdict_iff.mpr ⟨action, x, ha, hn, hs, rfl⟩, ?_⟩
    rw [if_pos hx]
    exact he

theorem enter_sent (hA : Untouched A view)
    (h : enter A config snapshot d r slippage st = (o, st')) :
    Sent A view (enterOrder A config snapshot d r slippage st) st.exchange st'.exchange := by
  unfold enter at h
  unfold enterOrder
  cases hadj : r.adjustedParameters with
  | none =>
    rw [hadj] at h
    cases h
    exact rfl
  | some approved =>
    rw [hadj] at h
    dsimp only at h ⊢
    cases hest : executedEstimate config snapshot d approved slippage with
    | error e =>
      rw [hest] at h
      cases h
      exact rfl
    | ok estimate =>
      rw [hest] at h
      dsimp only at h ⊢
      rcases he : ExecutionEngine.executeApprovedPlan A (executionSettings config) d r estimate
        st.toTradingState with ⟨e | execution, t⟩
      all_goals have hs := ExecutionEngine.executeApprovedPlan_sent hA he
      · rw [he] at h
        cases h
        exact hs
      · rw [he] at h
        dsimp only at h
        split at h <;> cases h <;> exact hs

/-- One symbol of a tick sends the order of its turn, if there is one. -/
theorem processSymbol_sent (hA : Untouched A view)
    (h : processSymbol A config o reliable snapshot st = (r, st')) :
    Sent A view (turnOrder A config o reliable snapshot st) st.exchange st'.exchange := by
  rw [turnOrder_eq]
  rcases processSymbol_cases h with ⟨hv, hu⟩ | ⟨v, hv, h⟩
  · rw [hv]
    exact hu.sameView hA.toReadsLeave
  · have hx := verdict_view hA.toReadsLeave hv
    rw [hv]
    dsimp only [Option.bind_some]
    by_cases he : v.result.decision.executable
    · rw [if_pos he] at h ⊢
      exact (enter_sent hA h).trans_left hx
    · rw [if_neg he] at h ⊢
      cases h
      exact hx

/-- Without a proposal nothing reaches the exchange. -/
theorem processSymbol_unproposed (hn : ¬Proposes o snapshot)
    (h : processSymbol A config o reliable snapshot st = (r, st')) :
    st'.exchange = st.exchange := by
  unfold processSymbol at h
  split at h
  · cases h
    rfl
  · cases h
    rfl
  · rename_i d action ha
    have hno : action = .noOperar := by
      by_contra hne
      exact hn ⟨d, action, ha, hne⟩
    rw [if_pos hno] at h
    cases h
    rfl

theorem processNested_sent (hA : Untouched A view) :
    Sent A view (turnOrder A config o reliable snapshot st) st.exchange
      (processNested A config o reliable snapshot st).exchange := by
  unfold processNested
  split
  · rename_i hp
    exact processSymbol_sent hA hp
  · rename_i st' hp
    have hs : Sent A view (turnOrder A config o reliable snapshot st) st.exchange st'.exchange :=
      processSymbol_sent hA hp
    exact hs

theorem processNested_unproposed (hn : ¬Proposes o snapshot) :
    (processNested A config o reliable snapshot st).exchange = st.exchange := by
  unfold processNested
  split
  · rename_i hp
    exact processSymbol_unproposed hn hp
  · rename_i st' hp
    have he : st'.exchange = st.exchange := processSymbol_unproposed hn hp
    exact he

end CycleRunner

/-- Between the two states at most one order has been asked of the exchange. -/
def AtMostOneOrder (x x' : σ × List OrderRequest) : Prop :=
  x'.2 = x.2 ∨ ∃ request, x'.2 = x.2 ++ [request]

theorem CycleRunner.processNested_orders :
    AtMostOneOrder st.exchange (processNested A.logged config o reliable snapshot st).exchange := by
  rcases (processNested_sent (Untouched.logged A)).entersOnce with he | ⟨y, request, hy, _, he⟩
  · exact .inl he
  · have hlog : y.2 = st.exchange.2 := hy
    refine .inr ⟨request, he.trans ?_⟩
    rw [← hlog]
    rfl

end FuturesBot
